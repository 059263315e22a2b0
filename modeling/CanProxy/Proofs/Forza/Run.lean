import CanProxy.Forza.Plugin
import Mathlib.Data.List.Chain

/-! The link in a run of the game's plugin: it follows the packets that are accepted, and carries the publishes. -/

namespace CanProxy.Forza

open Numeric

/-- One thing the plugin does, with what it tells. -/
inductive Move : Plugin → List Event → Plugin → Prop where
  /-- The link comes up. -/
  | raised {p : Plugin} (down : p.linked = false) : Move p [.setLink true] { p with linked := true }
  /-- The link goes down. -/
  | dropped {p : Plugin} (up : p.linked = true) : Move p [.setLink false] { p with linked := false }
  /-- A state is published. -/
  | published {p : Plugin} (up : p.linked = true) {now : ℤ} (due : p.lastPublish + 20 ≤ now)
    (s : VehicleState) : Move p [.publish s now] { p with lastPublish := now }
  /-- Something is logged or remembered that concerns neither the link nor the publishes. -/
  | noted {p q : Plugin} {events : List Event} (linked : q.linked = p.linked)
    (publish : q.lastPublish = p.lastPublish) (quiet : ∀ e ∈ events, e.link? = none ∧ e.publish? = none) :
    Move p events q

/-- What the log of a run looks like at any time. -/
structure Orderly (log : List Event) (p : Plugin) : Prop where
  /-- The plugin knows what it told its host last. -/
  link : lastLink log = some true ↔ p.linked = true
  /-- The link is up after an odd number of reports. -/
  parity : (log.filterMap Event.link?).length % 2 = if p.linked then 1 else 0
  /-- Every other report says that the vehicle is there, from the first one on. -/
  alternates : ∀ k present, (log.filterMap Event.link?)[k]? = some present → present = decide (k % 2 = 0)
  /-- States are published while the link is up. -/
  shown : Run.Each WhileUp log
  /-- Publishes are at least twenty milliseconds apart. -/
  spaced : (log.filterMap Event.publish?).IsChain fun earlier later => earlier + 20 ≤ later
  /-- The plugin knows when it published last. -/
  latest : ∀ time ∈ (log.filterMap Event.publish?).getLast?, time = p.lastPublish

theorem orderly_new : Orderly [] Plugin.new where
  link := by decide
  parity := rfl
  alternates := by simp
  shown := Run.each_nil
  spaced := .nil
  latest := by simp

section Kept

variable {log : List Event} {p : Plugin} (orderly : Orderly log p)

include orderly

/-- A report that contradicts the one before keeps the reports alternating. -/
theorem Orderly.report {present : Bool} (turned : p.linked = !present) :
    Orderly (log ++ [.setLink present]) { p with linked := present } := by
  have reports : (log ++ [Event.setLink present]).filterMap Event.link? =
      log.filterMap Event.link? ++ [present] := Run.filterMap_concat ..
  have times : (log ++ [Event.setLink present]).filterMap Event.publish? = log.filterMap Event.publish? :=
    (Run.filterMap_concat ..).trans (List.append_nil _)
  -- An even number of reports calls for the link to come up, and an odd number for it to go down.
  have parity : (log.filterMap Event.link?).length % 2 = if present then 0 else 1 := by
    rw [orderly.parity, turned]
    cases present <;> rfl
  refine ⟨?_, ?_, ?_, ?_, ?_, ?_⟩
  · rw [lastLink, Run.last_concat]
    exact Option.some_inj
  · rw [reports, List.length_append, List.length_singleton, Nat.add_mod, parity]
    cases present <;> rfl
  · intro k b found
    rw [reports, List.getElem?_append] at found
    split at found
    next early => exact orderly.alternates k b found
    next late =>
      -- The new report is the last one, and its place has the parity just found.
      rw [List.getElem?_singleton] at found
      split at found
      next last =>
        cases found
        have place : k % 2 = if present then 0 else 1 := by
          rw [← parity, Nat.le_antisymm (Nat.sub_eq_zero_iff_le.mp last) (Nat.not_lt.mp late)]
        rw [place]
        cases present <;> rfl
      next => cases found
  · exact Run.each_concat orderly.shown nofun
  · rw [times]
    exact orderly.spaced
  · rw [times]
    exact orderly.latest

/-- A publish that is due keeps the distance to the one before. -/
theorem Orderly.publish (up : p.linked = true) {now : ℤ} (due : p.lastPublish + 20 ≤ now)
    (s : VehicleState) : Orderly (log ++ [.publish s now]) { p with lastPublish := now } := by
  -- A publish is no report of the link, and the last of the publishes.
  have reports : (log ++ [Event.publish s now]).filterMap Event.link? = log.filterMap Event.link? :=
    (Run.filterMap_concat ..).trans (List.append_nil _)
  have times : (log ++ [Event.publish s now]).filterMap Event.publish? =
      log.filterMap Event.publish? ++ [now] := Run.filterMap_concat ..
  refine ⟨?_, ?_, ?_, ?_, ?_, ?_⟩
  · rw [lastLink, Run.last_concat]
    exact orderly.link
  · rw [reports]
    exact orderly.parity
  · rw [reports]
    exact orderly.alternates
  · exact Run.each_concat orderly.shown fun _ => orderly.link.mpr up
  · rw [times, List.isChain_append]
    refine ⟨orderly.spaced, .singleton now, fun earlier last later first => ?_⟩
    cases first
    rw [orderly.latest earlier last]
    exact due
  · rw [times, List.getLast?_concat]
    intro time same
    cases same
    rfl

/-- What concerns neither the link nor the publishes changes nothing. -/
theorem Orderly.note {q : Plugin} {events : List Event} (linked : q.linked = p.linked)
    (publish : q.lastPublish = p.lastPublish)
    (quiet : ∀ e ∈ events, e.link? = none ∧ e.publish? = none) : Orderly (log ++ events) q := by
  -- Neither the reports nor the publishes get any longer.
  have reports : (log ++ events).filterMap Event.link? = log.filterMap Event.link? :=
    Run.filterMap_append_quiet _ log fun e member => (quiet e member).1
  have times : (log ++ events).filterMap Event.publish? = log.filterMap Event.publish? :=
    Run.filterMap_append_quiet _ log fun e member => (quiet e member).2
  refine ⟨?_, ?_, ?_, ?_, ?_, ?_⟩
  · rw [lastLink, Run.last, reports, linked]
    exact orderly.link
  · rw [reports, linked]
    exact orderly.parity
  · rw [reports]
    exact orderly.alternates
  · refine Run.each_append orderly.shown fun e member before shown => ?_
    rw [(quiet e member).2] at shown
    cases shown
  · rw [times]
    exact orderly.spaced
  · rw [times, publish]
    exact orderly.latest

/-- Every move keeps a log orderly. -/
theorem Orderly.move {events : List Event} {q : Plugin} (moved : Move p events q) :
    Orderly (log ++ events) q := by
  -- Three moves tell something that counts, and the fourth nothing.
  cases moved with
  | raised down => exact orderly.report down
  | dropped up => exact orderly.report up
  | published up due s => exact orderly.publish up due s
  | noted linked publish quiet => exact orderly.note linked publish quiet

end Kept

section Turn

variable (length : Length) (c : Config) (p : Plugin)

/-- A packet that parses raises the link first, and is published at the end. -/
theorem onFrame_path (now : ℤ) (size : Nat) (f : Frame) :
    Run.Path Move p (p.onFrame c now size f).2 (p.onFrame c now size f).1 := by
  let up : Plugin := { p with linked := true }
  let seen : Plugin := { up with lastFormat := f.format, lastPacket := now }
  -- The link is reported only if it was down; then the format is noted, if it is another one.
  have raised : Run.Path Move p (if p.linked then [] else [.setLink true]) up := by
    by_cases linked : p.linked = true
    · rw [if_pos linked]
      exact .single (.noted linked.symm rfl (by simp))
    · rw [if_neg linked]
      exact .single (.raised (Bool.eq_false_iff.mpr linked))
  have noted : Move up
      (if f.format ≠ p.lastFormat then [.telemetryFormat f.format size] else []) seen := by
    refine .noted rfl rfl ?_
    split <;> simp [Event.link?, Event.publish?]
  have shown := raised.extend noted
  unfold Plugin.onFrame
  dsimp only
  split
  next due =>
    have spaced : seen.lastPublish + 20 ≤ now := Int.add_le_of_le_sub_left due
    exact shown.extend (.published rfl spaced _)
  next => exact shown

/-- What the socket has is a packet that parses, or changes nothing that is told. -/
theorem receive_path (turn : Turn) :
    Run.Path Move p (p.receive length c turn).2 (p.receive length c turn).1 := by
  unfold Plugin.receive
  -- An empty read is none, and a packet that does not parse is noted at most.
  split
  · exact .stay p
  · split
    · exact onFrame_path c p _ _ _
    · split
      · exact .single (.noted rfl rfl (by simp [Event.link?, Event.publish?]))
      · exact .stay p

/-- A silence takes the link down. -/
theorem checkSilence_path (now : ℤ) :
    Run.Path Move p (p.checkSilence c now).2 (p.checkSilence c now).1 := by
  unfold Plugin.checkSilence
  -- The format is forgotten before the link is reported down.
  split
  next silent =>
    have forgotten : Move p [.vehicleGone c.timeoutMs] { p with lastFormat := "" } :=
      .noted rfl rfl (by simp [Event.link?, Event.publish?])
    exact (Run.Path.single forgotten).extend (.dropped silent.1)
  next => exact .stay p

theorem step_path (turn : Turn) :
    Run.Path Move p (p.step length c turn).2 (p.step length c turn).1 :=
  (receive_path length c p turn).trans (checkSilence_path c _ turn.now)

end Turn

/-- The log of every run is orderly. -/
theorem run_orderly (length : Length) (c : Config) (turns : List Turn) :
    Orderly (Plugin.log length c turns) (Run.final (Plugin.step length c) Plugin.new turns) :=
  Run.Path.invariant (step_path length c) (fun orderly moved => orderly.move moved) orderly_new turns

section Packets

variable {length : Length} (c : Config) (p : Plugin)

/-- A packet that parses brings the link up, and its time is remembered. -/
theorem onFrame_state (now : ℤ) (size : Nat) (f : Frame) :
    (p.onFrame c now size f).1.linked = true ∧ (p.onFrame c now size f).1.lastPacket = now := by
  unfold Plugin.onFrame
  dsimp only
  split <;> exact ⟨rfl, rfl⟩

/-- A silence takes down a link whose last packet is too old, and remembers the packet. -/
theorem checkSilence_state (now : ℤ) :
    (p.checkSilence c now).1.lastPacket = p.lastPacket ∧
      ((p.checkSilence c now).1.linked = true ↔ p.linked = true ∧ now - p.lastPacket ≤ c.timeoutMs) := by
  unfold Plugin.checkSilence
  -- Only a link that is up can fall silent.
  split
  next silent =>
    refine ⟨rfl, ⟨nofun, fun kept => ?_⟩⟩
    exact absurd silent.2 (not_lt.mpr kept.2)
  next heard =>
    refine ⟨rfl, ⟨fun up => ⟨up, ?_⟩, And.left⟩⟩
    exact not_lt.mp fun late => heard ⟨up, late⟩

/-- After a turn that accepts a packet the link is up, and its time is remembered. -/
theorem step_accepted {turn : Turn} {time : ℤ} (accepted : turn.accepted length = some time) :
    time = turn.now ∧ (p.step length c turn).1.linked = true ∧
      (p.step length c turn).1.lastPacket = turn.now := by
  obtain ⟨f, parsed, rfl⟩ := Option.map_eq_some_iff.mp accepted
  have received : turn.received.length ≠ 0 := by
    intro empty
    rw [List.eq_nil_of_length_eq_zero empty] at parsed
    cases parsed
  obtain ⟨up, latest⟩ := onFrame_state c p turn.now turn.received.length f
  obtain ⟨kept, still⟩ :=
    checkSilence_state c (p.onFrame c turn.now turn.received.length f).1 turn.now
  -- The packet is as old as the clock reading, so the link stays up.
  have stepped : (p.step length c turn).1 =
      ((p.onFrame c turn.now turn.received.length f).1.checkSilence c turn.now).1 := by
    rw [Plugin.step, Plugin.receive, if_neg received, parsed]
  rw [stepped]
  refine ⟨rfl, still.mpr ⟨up, ?_⟩, kept.trans latest⟩
  have enough := c.longEnough
  rw [latest]
  omega

/-- A turn that accepts none keeps the link at most, and remembers its time at most as the first one. -/
theorem step_refused {turn : Turn} (refused : turn.accepted length = none) :
    ((p.step length c turn).1.lastPacket = p.lastPacket ∨ p.lastPacket < 0) ∧
      ((p.step length c turn).1.linked = true ↔
        p.linked = true ∧ turn.now - (p.step length c turn).1.lastPacket ≤ c.timeoutMs) := by
  have parsed : parse length turn.received = none := Option.map_eq_none_iff.mp refused
  -- Without a packet the time is set once at most, where there was none yet.
  have received : (p.receive length c turn).1.linked = p.linked ∧
      ((p.receive length c turn).1.lastPacket = p.lastPacket ∨ p.lastPacket < 0) := by
    unfold Plugin.receive
    simp only [parsed]
    split
    · exact ⟨rfl, .inl rfl⟩
    · split
      next unmarked => exact ⟨rfl, .inr unmarked⟩
      next => exact ⟨rfl, .inl rfl⟩
  obtain ⟨kept, still⟩ := checkSilence_state c (p.receive length c turn).1 turn.now
  have stepped : (p.step length c turn).1 = ((p.receive length c turn).1.checkSilence c turn.now).1 := rfl
  rw [stepped, kept, ← received.1]
  exact ⟨received.2, still⟩

end Packets

/-- The link is up exactly while the last accepted packet is recent enough, and its time is remembered. -/
structure Alive (length : Length) (c : Config) (past : List Turn) (p : Plugin) : Prop where
  /-- The time of the last accepted packet is remembered, and no refused packet replaces it. -/
  latest : ∀ time ∈ lastAccepted length past, p.lastPacket = time ∧ 0 < time
  /-- Without an accepted packet the link is down. -/
  heard : p.linked = true → (lastAccepted length past).isSome
  /-- After the last turn the link is up exactly when the packet is recent enough. -/
  up : ∀ turn ∈ past.getLast?, p.linked = true ↔
    ∃ time, lastAccepted length past = some time ∧ turn.now - time ≤ c.timeoutMs

section Step

variable {length : Length} {c : Config} {past : List Turn} {p : Plugin} {turn : Turn}

/-- A packet that is accepted is the last one, and has the age zero. -/
theorem Alive.accept {time : ℤ} (accepted : turn.accepted length = some time) (positive : 0 < turn.now) :
    Alive length c (past ++ [turn]) (p.step length c turn).1 := by
  obtain ⟨rfl, up, remembered⟩ := step_accepted c p accepted
  -- The packet is the newest, whatever was accepted before.
  have latest : lastAccepted length (past ++ [turn]) = some turn.now := by
    rw [lastAccepted, Run.last_concat, accepted, Option.some_or]
  refine ⟨?_, fun _ => by rw [latest]; rfl, ?_⟩
  · intro time last
    rw [latest] at last
    cases last
    exact ⟨remembered, positive⟩
  · intro last same
    rw [List.getLast?_concat] at same
    cases same
    have enough := c.longEnough
    exact iff_of_true up ⟨turn.now, latest, by omega⟩

/-- Without a packet that is accepted the last one grows older, and may become too old. -/
theorem Alive.refuse (alive : Alive length c past p) (refused : turn.accepted length = none)
    (later : ∀ before ∈ past, before.now ≤ turn.now) :
    Alive length c (past ++ [turn]) (p.step length c turn).1 := by
  obtain ⟨kept, still⟩ := step_refused c p refused
  have latest : lastAccepted length (past ++ [turn]) = lastAccepted length past := by
    rw [lastAccepted, Run.last_concat, refused, Option.none_or, ← lastAccepted]
  -- An accepted packet was at a positive time, so a refused one does not replace it.
  have remembered : ∀ time ∈ lastAccepted length past, (p.step length c turn).1.lastPacket = time := by
    intro time last
    obtain ⟨same, positive⟩ := alive.latest time last
    rcases kept with kept | unmarked
    · exact kept.trans same
    · omega
  refine ⟨?_, ?_, ?_⟩
  · intro time last
    rw [latest] at last
    exact ⟨remembered time last, (alive.latest time last).2⟩
  · intro up
    rw [latest]
    exact alive.heard (still.mp up).1
  · intro last same
    rw [List.getLast?_concat] at same
    cases same
    rw [latest, still]
    constructor
    · intro stays
      obtain ⟨time, last⟩ := Option.isSome_iff_exists.mp (alive.heard stays.1)
      have recent := stays.2
      rw [remembered time last] at recent
      exact ⟨time, last, recent⟩
    · intro there
      obtain ⟨time, last, recent⟩ := there
      refine ⟨?_, by rwa [remembered time last]⟩
      -- The packet was recent enough after the turn before as well.
      rcases List.eq_nil_or_concat past with rfl | ⟨earlier, before, rfl⟩
      · cases last
      · have ordered := later before (by simp)
        exact (alive.up before (by simp)).mpr ⟨time, last, by omega⟩

/-- A turn keeps the link in step with the accepted packets. -/
theorem Alive.step (alive : Alive length c past p) (positive : 0 < turn.now)
    (later : ∀ before ∈ past, before.now ≤ turn.now) :
    Alive length c (past ++ [turn]) (p.step length c turn).1 := by
  cases accepted : turn.accepted length with
  | some time => exact .accept accepted positive
  | none => exact alive.refuse accepted later

end Step

/-- In every run with a positive clock that never goes back, the link keeps in step with the packets. -/
theorem run_alive (length : Length) (c : Config) (turns : List Turn)
    (positive : ∀ turn ∈ turns, 0 < turn.now) (ordered : (turns.map Turn.now).Pairwise (· ≤ ·)) :
    Alive length c turns (Run.final (Plugin.step length c) Plugin.new turns) := by
  refine Run.invariant (Plugin.step length c) (P := fun past _ p => Alive length c past p) ?_ ?_
  · exact ⟨nofun, nofun, nofun⟩
  · intro past turn within alive
    obtain ⟨rest, rfl⟩ := within
    refine alive.step (positive turn (by simp)) fun before member => ?_
    rw [List.append_assoc, List.map_append, List.pairwise_append] at ordered
    exact ordered.2.2 _ (List.mem_map_of_mem member) _ (by simp)

/--
In every run with a positive clock that never goes back, the reports about the link alternate,
starting with the vehicle there; states are published only while it is, and at least twenty
milliseconds apart; and after every turn it is there exactly when a packet was accepted and the last
one that was is no older than the timeout.
-/
theorem link_follows_packets (length : Length) (c : Config) (turns : List Turn)
    (positive : ∀ turn ∈ turns, 0 < turn.now) (ordered : (turns.map Turn.now).Pairwise (· ≤ ·)) :
    (∀ k present, ((Plugin.log length c turns).filterMap Event.link?)[k]? = some present →
      present = decide (k % 2 = 0)) ∧
    Run.Each WhileUp (Plugin.log length c turns) ∧
    (((Plugin.log length c turns).filterMap Event.publish?).IsChain fun earlier later =>
      earlier + 20 ≤ later) ∧
    ∀ past turn, past ++ [turn] <+: turns →
      (lastLink (Plugin.log length c (past ++ [turn])) = some true ↔
        ∃ time, lastAccepted length (past ++ [turn]) = some time ∧ turn.now - time ≤ c.timeoutMs) := by
  have orderly := run_orderly length c turns
  refine ⟨orderly.alternates, orderly.shown, orderly.spaced, ?_⟩
  intro past turn within
  obtain ⟨rest, rfl⟩ := within
  rw [List.map_append, List.pairwise_append] at ordered
  have alive := run_alive length c (past ++ [turn])
    (fun turn member => positive turn (List.mem_append_left _ member)) ordered.1
  rw [(run_orderly length c (past ++ [turn])).link]
  exact alive.up turn (by simp)

/-- Packets that are refused do not keep a link up for longer than the last accepted one. -/
theorem link_follows_packets_refused :
    let length : Length := fun _ _ _ => .finite 0
    let c : Config := ⟨cpDrivetrainIce, 300, by decide⟩
    let packet : List UInt8 := List.replicate 232 0
    let turns : List Turn :=
      [⟨1000, some [1, 2, 3]⟩, ⟨1100, some packet⟩, ⟨1110, some packet⟩, ⟨1300, some [1, 2, 3]⟩]
    lastLink (Plugin.log length c (turns ++ [⟨1410, none⟩])) = some true ∧
      ¬lastLink (Plugin.log length c (turns ++ [⟨1420, none⟩])) = some true := by
  intro length c packet turns
  have follows (now : ℤ) (positive : 0 < now) (later : 1300 ≤ now) :=
    (link_follows_packets length c (turns ++ [⟨now, none⟩]) (by simp [turns, positive])
      (by simp [turns]; omega)).2.2.2 turns ⟨now, none⟩ (List.prefix_refl _)
  have last (now : ℤ) : lastAccepted length (turns ++ [⟨now, none⟩]) = some 1110 := by
    have silent : Turn.accepted length ⟨now, none⟩ = none := rfl
    rw [lastAccepted, Run.last_concat, silent, Option.none_or]
    decide +kernel
  refine ⟨(follows 1410 (by decide) (by decide)).mpr ⟨1110, last 1410, by decide⟩, fun up => ?_⟩
  obtain ⟨time, same, recent⟩ := (follows 1420 (by decide) (by decide)).mp up
  rw [last] at same
  cases same
  exact absurd recent (by decide)

end CanProxy.Forza
