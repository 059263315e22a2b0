import CanProxy.Proofs.Core.Daemon
import CanProxy.Proofs.Forza.Finite
import CanProxy.Proofs.Forza.Run

/-! From the game's packets to the gauges: what is shown was in a packet, and in one that is recent. -/

namespace CanProxy.Forza

open Numeric

/-- The state that an event publishes, and when. -/
def Event.shown? : Event → Option (VehicleState × ℤ)
  | .publish s now => some (s, now)
  | _ => none

/-- The state that was published last, and when. -/
def lastShown (log : List Event) : Option (VehicleState × ℤ) := Run.last Event.shown? log

section Turn

variable (length : Length) (c : Config) (p : Plugin)

/-- A silence publishes nothing. -/
theorem checkSilence_quiet (now : ℤ) :
    (∀ e ∈ (p.checkSilence c now).2, e.shown? = none) ∧
      (p.checkSilence c now).1.lastPublish = p.lastPublish := by
  unfold Plugin.checkSilence
  split <;> simp [Event.shown?]

/-- A packet that parses is published when that is due, as the last thing told of it. -/
theorem onFrame_shown (now : ℤ) (size : Nat) (f : Frame) :
    if now - p.lastPublish ≥ 20 then
      (∃ told, (p.onFrame c now size f).2 = told ++ [.publish (publish c.drivetrain f) now] ∧
        ∀ e ∈ told, e.shown? = none) ∧ (p.onFrame c now size f).1.lastPublish = now
    else
      (∀ e ∈ (p.onFrame c now size f).2, e.shown? = none) ∧
        (p.onFrame c now size f).1.lastPublish = p.lastPublish := by
  have quiet : ∀ e ∈ (if p.linked then [] else [Event.setLink true]) ++
      (if f.format ≠ p.lastFormat then [Event.telemetryFormat f.format size] else []),
      e.shown? = none := by
    intro e told
    rcases List.mem_append.mp told with raised | noted
    · split at raised <;> simp_all [Event.shown?]
    · split at noted <;> simp_all [Event.shown?]
  unfold Plugin.onFrame
  dsimp only
  split
  · exact ⟨⟨_, rfl, quiet⟩, rfl⟩
  · exact ⟨quiet, rfl⟩

/-- A turn that accepts no packet publishes nothing. -/
theorem receive_refused {turn : Turn} (refused : parse length turn.received = none) :
    (∀ e ∈ (p.receive length c turn).2, e.shown? = none) ∧
      (p.receive length c turn).1.lastPublish = p.lastPublish := by
  unfold Plugin.receive
  rw [refused]
  split
  · simp
  · dsimp only
    split <;> simp [Event.shown?]

/-- A turn that accepts a packet does with it what is done with a packet that parses. -/
theorem receive_accepted {turn : Turn} {f : Frame} (accepted : parse length turn.received = some f) :
    p.receive length c turn = p.onFrame c turn.now turn.received.length f := by
  have received : turn.received.length ≠ 0 := by
    intro empty
    rw [List.eq_nil_of_length_eq_zero empty] at accepted
    cases accepted
  rw [Plugin.receive, if_neg received, accepted]

/-- What a turn publishes is the state of the packet that it accepts. -/
theorem step_shown {turn : Turn} {s : VehicleState} {now : ℤ}
    (told : .publish s now ∈ (p.step length c turn).2) :
    now = turn.now ∧ ∃ f, parse length turn.received = some f ∧ s = publish c.drivetrain f := by
  have loud : ¬(Event.publish s now).shown? = none := nofun
  have told : .publish s now ∈
    (p.receive length c turn).2 ++ ((p.receive length c turn).1.checkSilence c turn.now).2 := told
  rcases List.mem_append.mp told with heard | lost
  · cases accepted : parse length turn.received with
    | none => exact absurd ((receive_refused length c p accepted).1 _ heard) loud
    | some f =>
      rw [receive_accepted length c p accepted] at heard
      have shown := onFrame_shown c p turn.now turn.received.length f
      split at shown
      · obtain ⟨⟨before, all, quiet⟩, -⟩ := shown
        rw [all] at heard
        rcases List.mem_append.mp heard with early | last
        · exact absurd (quiet _ early) loud
        · cases List.mem_singleton.mp last
          exact ⟨rfl, f, rfl, rfl⟩
      · exact absurd (shown.1 _ heard) loud
  · exact absurd ((checkSilence_quiet c _ turn.now).1 _ lost) loud

end Turn

/-- Every publish of a run is the state of a packet that one of its turns accepted. -/
theorem publish_traced (length : Length) (c : Config) (turns : List Turn) {s : VehicleState} {now : ℤ}
    (told : .publish s now ∈ Plugin.log length c turns) :
    ∃ turn ∈ turns, turn.now = now ∧ ∃ f, parse length turn.received = some f ∧
      s = publish c.drivetrain f := by
  obtain ⟨turn, member, p, emitted⟩ := Run.mem_outputs _ told
  obtain ⟨rfl, from_packet⟩ := step_shown length c p emitted
  exact ⟨turn, member, rfl, from_packet⟩

/-- The last publish is never twenty milliseconds behind the last accepted packet. -/
structure KeepsUp (length : Length) (past : List Turn) (log : List Event) (p : Plugin) : Prop where
  /-- Before the first accepted packet nothing was published. -/
  start : lastAccepted length past = none → p.lastPublish = 0
  near : ∀ time ∈ lastAccepted length past, (∃ s, lastShown log = some (s, p.lastPublish)) ∧
    p.lastPublish ≤ time ∧ time < p.lastPublish + 20

section Step

variable {length : Length} (c : Config) {past : List Turn} {log : List Event} {p : Plugin} {turn : Turn}

/-- Every turn keeps up with the packets. -/
theorem KeepsUp.step (keeps : KeepsUp length past log p) (late : 20 ≤ turn.now)
    (later : ∀ time ∈ lastAccepted length past, time ≤ turn.now) :
    KeepsUp length (past ++ [turn]) (log ++ (p.step length c turn).2) (p.step length c turn).1 := by
  obtain ⟨silent, kept⟩ := checkSilence_quiet c (p.receive length c turn).1 turn.now
  have told : lastShown (log ++ (p.step length c turn).2) = lastShown (log ++ (p.receive length c turn).2) := by
    rw [show (p.step length c turn).2 = (p.receive length c turn).2 ++
      ((p.receive length c turn).1.checkSilence c turn.now).2 from rfl, ← List.append_assoc]
    exact Run.last_append _ _ silent
  have published : (p.step length c turn).1.lastPublish = (p.receive length c turn).1.lastPublish := kept
  cases accepted : parse length turn.received with
  | none =>
    -- A turn without a packet changes neither side.
    have same : lastAccepted length (past ++ [turn]) = lastAccepted length past := by
      rw [lastAccepted, Run.last_concat, Turn.accepted, accepted]
      rfl
    obtain ⟨quiet, unchanged⟩ := receive_refused length c p accepted
    refine ⟨?_, ?_⟩ <;> rw [same, published, unchanged]
    · exact keeps.start
    · intro time last
      rw [told, lastShown, Run.last_append _ _ quiet]
      exact keeps.near time last
  | some f =>
    have latest : lastAccepted length (past ++ [turn]) = some turn.now := by
      rw [lastAccepted, Run.last_concat, Turn.accepted, accepted]
      rfl
    have shown := onFrame_shown c p turn.now turn.received.length f
    rw [← receive_accepted length c p accepted] at shown
    refine ⟨fun none => absurd (latest.symm.trans none) (Option.some_ne_none _), fun time last => ?_⟩
    obtain rfl := Option.some.inj (latest.symm.trans last)
    rw [told, published]
    split at shown
    next due =>
      obtain ⟨⟨before, all, -⟩, now⟩ := shown
      rw [now, all, ← List.append_assoc, lastShown, Run.last_concat]
      exact ⟨⟨_, rfl⟩, le_refl _, by omega⟩
    next early =>
      -- A packet that comes too early follows one that was published.
      obtain ⟨quiet, unchanged⟩ := shown
      rw [unchanged, lastShown, Run.last_append _ _ quiet]
      cases before : lastAccepted length past with
      | none =>
        have never := keeps.start before
        omega
      | some earlier =>
        obtain ⟨shown, low, -⟩ := keeps.near earlier before
        have ordered := later earlier before
        exact ⟨shown, by omega, by omega⟩

end Step

/-- In every run with a clock that never goes back, the publishes keep up with the packets. -/
theorem run_keeps_up (length : Length) (c : Config) (turns : List Turn)
    (late : ∀ turn ∈ turns, 20 ≤ turn.now) (ordered : (turns.map Turn.now).Pairwise (· ≤ ·)) :
    KeepsUp length turns (Plugin.log length c turns) (Run.final (Plugin.step length c) Plugin.new turns) := by
  refine Run.invariant (Plugin.step length c) (P := KeepsUp length) ⟨fun _ => rfl, nofun⟩ ?_
  intro past turn within keeps
  obtain ⟨rest, rfl⟩ := within
  refine keeps.step c (late turn (by simp)) fun time last => ?_
  -- The last accepted packet was in an earlier turn.
  obtain ⟨before, member, accepted⟩ := List.mem_filterMap.mp (List.mem_of_getLast? last)
  obtain ⟨f, -, rfl⟩ := Option.map_eq_some_iff.mp accepted
  rw [List.append_assoc, List.map_append, List.pairwise_append] at ordered
  exact ordered.2.2 _ (List.mem_map_of_mem member) _ (by simp)

/--
Dropping packets that come too fast never makes the gauges late.

After every turn of a run that accepts a packet, the state published last is that of a packet accepted
less than twenty milliseconds before, for any clock that does not go back. The clock has come to twenty
milliseconds at the first packet, since the limit starts as if something were published at zero.
-/
theorem telemetry_keeps_up (length : Length) (c : Config) (turns : List Turn)
    (late : ∀ turn ∈ turns, 20 ≤ turn.now) (ordered : (turns.map Turn.now).Pairwise (· ≤ ·))
    {past : List Turn} {turn : Turn} (within : past ++ [turn] <+: turns)
    (accepted : (parse length turn.received).isSome) :
    ∃ s time, lastShown (Plugin.log length c (past ++ [turn])) = some (s, time) ∧
      time ≤ turn.now ∧ turn.now < time + 20 ∧
      ∃ source ∈ past ++ [turn], source.now = time ∧ ∃ f, parse length source.received = some f ∧
        s = publish c.drivetrain f := by
  obtain ⟨rest, rfl⟩ := within
  rw [List.map_append, List.pairwise_append] at ordered
  have keeps := run_keeps_up length c (past ++ [turn])
    (fun turn member => late turn (List.mem_append_left _ member)) ordered.1
  obtain ⟨f, parsed⟩ := Option.isSome_iff_exists.mp accepted
  have latest : lastAccepted length (past ++ [turn]) = some turn.now := by
    rw [lastAccepted, Run.last_concat, Turn.accepted, parsed]
    rfl
  obtain ⟨⟨s, shown⟩, low, high⟩ := keeps.near turn.now latest
  refine ⟨s, _, shown, low, high, ?_⟩
  -- What was published last was published by one of the turns.
  obtain ⟨e, told, published⟩ := List.mem_filterMap.mp (List.mem_of_getLast? shown)
  cases e with
  | publish s' now =>
    cases published
    exact publish_traced length c _ told
  | _ => cases published

/-- Three packets within eleven milliseconds: after the third the first is shown, and is recent enough. -/
theorem telemetry_keeps_up_burst :
    let length : Length := fun _ _ _ => .finite 0
    let c : Config := ⟨cpDrivetrainIce, 300, by decide⟩
    let turns : List Turn := [1000, 1004, 1011].map fun now => ⟨now, some (List.replicate 232 0)⟩
    ∃ s time, lastShown (Plugin.log length c turns) = some (s, time) ∧ time ≤ 1011 ∧ 1011 < time + 20 := by
  intro length c turns
  obtain ⟨s, time, shown, low, high, -⟩ := @telemetry_keeps_up length c turns (by decide) (by decide)
    ([1000, 1004].map fun now => ⟨now, some (List.replicate 232 0)⟩) ⟨1011, some (List.replicate 232 0)⟩
    (List.prefix_refl _) (by decide +kernel)
  exact ⟨s, time, shown, low, high⟩

/-- The signals of a packet: four of the sled block, and three more of the dash block. -/
def provides (f : Frame) (sig : Signal) : Bool :=
  [.speed, .rpm, .gear, .powerState].contains sig ||
    f.hasDash && [.motorPower, .fuelLevel, .odometer].contains sig

/--
Whatever the proxy shows of a game, a packet said.

In any interleaving of the plugin's loop with the ticks of the proxy, a signal that a frame on the bus
shows is one that an accepted packet provides: the latest publish is the state of that packet, it is at
most the timeout old, and the link is up. A number that is published for it, computed exactly, is shown
as the nearest point of the signal's grid, and a gear or power state as it is; nothing is said of a number
that is not finite, or from 2^55 on.
-/
theorem telemetry_shown (length : Length) (c : Config) (turns : List Turn) (m : Machine)
    (publisher : Publisher) {past : List Call} {now : ℤ} {frame : Sent}
    (driven : Drives ((Plugin.log length c turns).filterMap Event.report?) past)
    (sent : frame ∈ Proxy.sentBy m publisher past now) (sig : Signal) (own : sig.frame = frame.id)
    (available : (receive fun _ => frame.data).available sig = true) :
    latestLink past = some true ∧
    ∃ turn ∈ turns, ∃ f called, parse length turn.received = some f ∧
      latestPublish past = some (publish c.drivetrain f, called) ∧ now - called ≤ publisher.timeout ∧
      provides f sig = true ∧
      ∀ q, (publish c.drivetrain f).quantity sig = .finite q → |q| < 2 ^ 55 →
        (receive fun _ => frame.data).reading sig = sig.onGrid q := by
  obtain ⟨s, called, shown, _, _, _, _, data⟩ := shown_of_available sent own available
  obtain ⟨before, e, after, -, split, reported, -⟩ := driven.published shown.published
  -- Only a publish of the plugin reports one, and it is the state of a packet.
  obtain ⟨time, rfl⟩ : ∃ time, e = .publish s time := by
    cases e with
    | publish s' time =>
      cases reported
      exact ⟨time, rfl⟩
    | _ => cases reported
  have told : .publish s time ∈ Plugin.log length c turns := by
    rw [split]
    simp
  obtain ⟨turn, member, -, f, parsed, rfl⟩ := publish_traced length c turns told
  refine ⟨shown.linked, turn, member, f, called, parsed, shown.published, shown.recent, ?_, ?_⟩
  · have valid := shown.valid
    rwa [publish_valid, mem_capableOf] at valid
  · intro q value small
    refine shown.onGrid own data ?_ value small
    -- Nothing is published about other cars or lanes.
    cases dash : f.hasDash <;> constructor <;> simp [publish, dash, VehicleState.zero]

/-- A packet with a velocity of twenty metres per second is shown as seventy-two kilometres per hour. -/
theorem telemetry_shown_speed :
    let length : Length := fun _ _ _ => .finite 0
    let packet : List UInt8 :=
      List.replicate 244 0 ++ [0x00, 0x00, 0xA0, 0x41] ++ List.replicate 63 0
    let frame : Sent := ⟨50000000, .motion, #v[0x20, 0x1C, 0x00, 0x00, 0x00, 0x02, 0x00, 0x00]⟩
    ∃ f, parse length packet = some f ∧ provides f .speed = true ∧
      (receive fun _ => frame.data).reading .speed = Signal.speed.onGrid 72 := by
  intro length packet frame
  let c : Config := ⟨cpDrivetrainIce, 300, by decide⟩
  let f := parseDash packet 232 (parseSled length packet)
  let past : List Call := [.tick 0, .setLink true 0, .publish (publish cpDrivetrainIce f) 0]
  have driven : Drives ((Plugin.log length c [⟨1000, some packet⟩]).filterMap Event.report?) past := by
    unfold Drives
    decide +kernel
  have sent : frame ∈ Proxy.sentBy Machine.indefinite (Publisher.new 1000000000 1 0) past 50000000 := by
    decide +kernel
  obtain ⟨-, turn, member, g, called, parsed, -, -, provided, shown⟩ :=
    telemetry_shown length c [⟨1000, some packet⟩] Machine.indefinite (Publisher.new 1000000000 1 0)
      driven sent .speed rfl (by decide +kernel)
  cases List.mem_singleton.mp member
  have received : Turn.received ⟨1000, some packet⟩ = packet := by decide +kernel
  have same : parse length packet = some f := by decide +kernel
  rw [received] at parsed
  obtain rfl : f = g := Option.some.inj (same.symm.trans parsed)
  exact ⟨f, parsed, provided, shown 72 (by decide +kernel) (by norm_num)⟩

end CanProxy.Forza
