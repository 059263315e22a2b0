import CanProxy.Core.History
import CanProxy.Proofs.Core.History
import CanProxy.Proofs.Core.Stats

/-! A publisher whose thread wakes up in time keeps every frame on its grid, and passes the check. -/

namespace CanProxy

open Numeric

/-- A call that is no tick more than so much later than the earliest deadline. -/
def Proxy.Woken (late : ℤ) (proxy : Proxy) (call : Call) : Prop :=
  ∀ now ∈ call.tick?, now ≤ Publisher.nextDeadline proxy.publisher.slots + late

instance (late : ℤ) (proxy : Proxy) (call : Call) : Decidable (proxy.Woken late call) :=
  inferInstanceAs (Decidable (∀ now ∈ call.tick?, _))

/-- The thread wakes up in time: no tick of a run is too late. -/
def Punctual (m : Machine) (publisher : Publisher) (late : ℤ) (calls : List Call) : Prop :=
  Run.Along (Proxy.step m) (Proxy.Woken late) (Proxy.start publisher) calls

instance (m : Machine) (publisher : Publisher) (late : ℤ) (calls : List Call) :
    Decidable (Punctual m publisher late calls) :=
  Run.Along.decidable (Proxy.step m) (Proxy.Woken late) (Proxy.start publisher) calls

/-- No deadline is before the earliest. -/
theorem Publisher.nextDeadline_le (p : Publisher) (id : FrameId) : nextDeadline p.slots ≤ p.due id := by
  obtain ⟨s, member, -, same⟩ := p.exists_slot id
  rw [← same]
  -- A deadline before the earliest would itself be the earliest.
  by_contra before
  have ahead := (lt_nextDeadline p.slots_ne_nil s.due).mp (not_le.mp before) s member
  exact absurd ahead (lt_irrefl _)

section Grid

variable (m : Machine) (publisher : Publisher) {t0 late : ℤ} {id : FrameId}

/--
The frames of one kind are on the grid that starts when the publisher is armed.

The k-th of them is at most so much late, and the deadline is that of the next one.
-/
structure OnGrid (t0 late : ℤ) (id : FrameId) (past : List Call) (log : List Firing) (proxy : Proxy) :
    Prop where
  armed : proxy.publisher.armed = true
  due : proxy.publisher.due id = t0 + (firingTimes id log).length * id.cycle
  fired : ∀ (k : Nat) time, (firingTimes id log)[k]? = some time →
    t0 + k * id.cycle ≤ time ∧ time ≤ t0 + k * id.cycle + late
  near : ∀ s, t0 ≤ s → (∀ now ∈ tickTimes past, now ≤ s) → proxy.publisher.due id ≤ s + id.cycle

variable {past : List Call} {log : List Firing} {proxy : Proxy} {now : ℤ}

/-- A tick at which the frame is not due leaves it alone. -/
theorem OnGrid.tick_early (grid : OnGrid t0 late id past log proxy) (early : now < proxy.publisher.due id) :
    let ticked := proxy.publisher.tick m proxy.store now
    OnGrid t0 late id (past ++ [.tick now]) (log ++ ticked.fired)
      { proxy with publisher := ticked.publisher } := by
  intro ticked
  have moved := proxy.publisher.tick_due m proxy.store now id
  have told := proxy.publisher.tick_firingTimes m proxy.store now id
  rw [Publisher.ready_of_armed grid.armed, Timer.step_early early] at moved told
  -- Nothing of the kind fires, so its frames and its deadline are the same.
  have same : firingTimes id (log ++ ticked.fired) = firingTimes id log := by
    rw [firingTimes_append, told, List.append_nil]
  refine ⟨Publisher.tick_armed m _ _ _, ?_, ?_, fun s after bounded => ?_⟩
  · rw [same]
    exact moved.trans grid.due
  · rw [same]
    exact grid.fired
  · refine moved.trans_le (grid.near s after fun time member => bounded time ?_)
    rw [tickTimes, List.filterMap_append]
    exact List.mem_append_left _ member

/-- A tick in time sends the frame, and its next deadline is one cycle on. -/
theorem OnGrid.tick_due (grid : OnGrid t0 late id past log proxy) (few : late ≤ id.cycle)
    (reached : proxy.publisher.due id ≤ now) (soon : now ≤ proxy.publisher.due id + late) :
    let ticked := proxy.publisher.tick m proxy.store now
    OnGrid t0 late id (past ++ [.tick now]) (log ++ ticked.fired)
      { proxy with publisher := ticked.publisher } := by
  intro ticked
  obtain ⟨armed, due, fired, -⟩ := grid
  have moved := proxy.publisher.tick_due m proxy.store now id
  have told := proxy.publisher.tick_firingTimes m proxy.store now id
  rw [Publisher.ready_of_armed armed, Timer.step_due reached] at moved told
  -- It is not so late that the deadline would be moved off the grid.
  have advanced : Timer.advance id.cycle (proxy.publisher.due id) now = proxy.publisher.due id + id.cycle :=
    if_neg (by omega)
  rw [advanced] at moved
  -- The frame that fires is the last of its kind, and is as late as the tick.
  have more : firingTimes id (log ++ ticked.fired) = firingTimes id log ++ [now] := by
    rw [firingTimes_append, told]
  refine ⟨Publisher.tick_armed m _ _ _, ?_, fun k time found => ?_, fun s after bounded => ?_⟩
  · rw [more, List.length_append, List.length_singleton]
    refine moved.trans ?_
    rw [due]
    push_cast
    ring
  · rw [more, List.getElem?_append] at found
    split at found
    · exact fired k time found
    next beyond =>
      have last : k = (firingTimes id log).length := by
        have inside := (List.getElem?_eq_some_iff.mp found).1
        rw [List.length_singleton] at inside
        omega
      subst last
      obtain rfl : now = time := by simpa using found
      omega
  · have recent := bounded now (by simp [tickTimes, Call.tick?])
    exact moved.trans_le (by omega)

/-- However long a punctual run goes on, no frame drifts off its grid. -/
theorem run_onGrid (few : late ≤ id.cycle) {calls : List Call}
    (punctual : Punctual m (publisher.arm t0) late calls) :
    OnGrid t0 late id calls (Proxy.firings m (publisher.arm t0) calls)
      (Proxy.after m (publisher.arm t0) calls) := by
  refine Run.invariant (Proxy.step m) (P := OnGrid t0 late id) ?_ ?_
  -- At first every deadline is the time at which the schedule was armed.
  · have due : (Proxy.start (publisher.arm t0)).publisher.due id = t0 := publisher.arm_due t0 id
    have positive := id.cycle_pos
    refine ⟨rfl, by simp [firingTimes, due], by simp [firingTimes], fun s after _ => ?_⟩
    omega
  · intro past call within grid
    cases call with
    | publish s now | setLink present now =>
      -- Neither touches the schedule.
      rw [Proxy.step, List.append_nil]
      refine ⟨grid.armed, grid.due, grid.fired, fun s after bounded =>
        grid.near s after fun time member => bounded time ?_⟩
      simpa [tickTimes, Call.tick?] using member
    | tick now =>
      by_cases early : now < (Proxy.after m (publisher.arm t0) past).publisher.due id
      · exact grid.tick_early m early
      · have wakes : now ≤ Publisher.nextDeadline (Proxy.after m (publisher.arm t0) past).publisher.slots +
            late := punctual.at_step within now rfl
        have least := (Proxy.after m (publisher.arm t0) past).publisher.nextDeadline_le id
        have soon : now ≤ (Proxy.after m (publisher.arm t0) past).publisher.due id + late := by omega
        exact grid.tick_due m few (not_lt.mp early) soon

/-- Two frames of one kind in a row are a cycle apart, give or take the lateness. -/
theorem OnGrid.steady (grid : OnGrid t0 late id past log proxy) :
    (firingTimes id log).IsChain fun a b => |b - a - id.cycle| ≤ late := by
  refine List.isChain_iff_getElem.mpr fun i inside => ?_
  -- Both frames are near their own points of the grid, which are a cycle apart.
  obtain ⟨low, high⟩ := grid.fired i _ (List.getElem?_eq_getElem (by omega))
  obtain ⟨low', high'⟩ := grid.fired (i + 1) _ (List.getElem?_eq_getElem inside)
  push_cast at low' high'
  rw [abs_le]
  constructor <;> linarith

end Grid

section Frames

variable (m : Machine) {id : FrameId}

/-- When the frames of a kind were sent. -/
def sentTimes (id : FrameId) (log : List Sent) : List ℤ := (log.filter (·.id = id)).map Sent.time

/-- Unless its frame is withheld, what fires is sent. -/
theorem sentTimes_firings {fired : List Firing} (sent : ∀ f ∈ fired, f.id = id → f.sent.isSome = true) :
    sentTimes id (fired.filterMap Firing.frame) = firingTimes id fired := by
  -- Both sides pick the times out of the firings, and differ in what was withheld only.
  rw [sentTimes, firingTimes, ← List.filterMap_eq_map, ← List.filterMap_eq_filter,
    List.filterMap_filterMap, List.filterMap_filterMap]
  refine List.filterMap_congr fun f member => ?_
  by_cases own : f.id = id
  · obtain ⟨data, same⟩ := Option.isSome_iff_exists.mp (sent f member own)
    simp [Firing.frame, Firing.timeOf, same, own]
  · cases same : f.sent <;> simp [Firing.frame, Firing.timeOf, same, own]

/-- A frame that is always withheld is never sent. -/
theorem sentTimes_withheld {fired : List Firing} (withheld : ∀ f ∈ fired, f.id = id → f.sent = none) :
    sentTimes id (fired.filterMap Firing.frame) = [] := by
  rw [sentTimes, List.map_eq_nil_iff, List.filter_eq_nil_iff]
  intro frame member
  -- A frame on the bus would come from a firing that was sent.
  obtain ⟨f, fires, sent⟩ := List.mem_filterMap.mp member
  obtain ⟨data, same, rfl⟩ := Option.map_eq_some_iff.mp sent
  rw [decide_eq_true_eq]
  intro own
  cases (withheld f fires own).symm.trans same

end Frames

section Window

variable (m : Machine) (publisher : Publisher) {before window : List Call}

/-- While only such states are published, the latest state offers driver assistance if the one before did. -/
theorem latestState_steady
    (steady : ∀ s now, .publish s now ∈ window → (s.AdvertisesAssist ↔ (latestState before).AdvertisesAssist)) :
    (latestState (before ++ window)).AdvertisesAssist ↔ (latestState before).AdvertisesAssist := by
  rw [latestState, latestPublish, List.filterMap_append, List.getLast?_append]
  -- Either nothing was published in the window, or the last of what was decides.
  cases newest : (window.filterMap Call.published?).getLast? with
  | none => rfl
  | some newest =>
    obtain ⟨call, member, published⟩ := List.mem_filterMap.mp (List.mem_of_getLast? newest)
    cases call with
    | publish s now =>
      cases published
      exact steady s now member
    | _ => cases published

/-- What fires while driver assistance is offered throughout, or never, is sent, or only that frame withheld. -/
theorem window_sent
    (steady : ∀ s now, .publish s now ∈ window → (s.AdvertisesAssist ↔ (latestState before).AdvertisesAssist))
    {f : Firing} (fires : f ∈ Run.outputs (Proxy.step m) (Proxy.after m publisher before) window) :
    f.sent.isSome = true ↔ (f.id = .assist → (latestState before).AdvertisesAssist) := by
  obtain ⟨earlier, later, split⟩ := List.append_of_mem fires
  -- The firing belongs to one call of the window, and that is a tick on the state published last.
  obtain ⟨past, call, rest, part, more, rfl, emitted, -⟩ := Run.outputs_split _ split
  have member : f ∈ (Proxy.step m (Proxy.after m publisher (before ++ past)) call).2 := by
    rw [Proxy.after_append, emitted]
    simp
  cases call with
  | publish | setLink => cases member
  | tick now =>
    rw [Proxy.step, Publisher.tick_fired] at member
    obtain ⟨slot, -, due⟩ := List.mem_filterMap.mp member
    unfold Slot.firing? at due
    split at due
    · cases due
    cases due
    have state : (Proxy.after m publisher (before ++ past)).store.state = latestState (before ++ past) := by
      rw [(Proxy.after_store m publisher (before ++ past)).1]
      rfl
    have unchanged : (latestState (before ++ past)).AdvertisesAssist ↔ (latestState before).AdvertisesAssist :=
      latestState_steady fun s now member => steady s now (by simp [member])
    rw [← unchanged, ← state]
    exact sendFrame_isSome m slot.id _

/-- The frames of one kind that a punctual publisher sends in a window are a cycle apart. -/
theorem window_steady {t0 late : ℤ} {id : FrameId} (few : late ≤ id.cycle)
    (punctual : Punctual m (publisher.arm t0) late (before ++ window))
    (steady : ∀ s now, .publish s now ∈ window → (s.AdvertisesAssist ↔ (latestState before).AdvertisesAssist)) :
    (sentTimes id ((Run.outputs (Proxy.step m) (Proxy.after m (publisher.arm t0) before) window).filterMap
      Firing.frame)).IsChain fun a b => |b - a - id.cycle| ≤ late := by
  by_cases offered : id = .assist → (latestState before).AdvertisesAssist
  -- Nothing of the kind is withheld, so the frames are the firings of a part of the run.
  · rw [sentTimes_firings fun f fires own => (window_sent m _ steady fires).mpr (own ▸ offered)]
    have whole := (run_onGrid m publisher few punctual).steady
    rw [Proxy.firings, Run.outputs_append, firingTimes_append] at whole
    exact whole.right_of_append
  · -- Without the capability the frame is withheld all the time.
    rw [sentTimes_withheld]
    · exact .nil
    · intro f fires own
      subst own
      exact Option.not_isSome_iff_eq_none.mp (mt (window_sent m _ steady fires).mp offered)

/-- A window in which every deadline comes has a frame of each kind that is offered. -/
theorem window_sends {t0 late s now : ℤ} {id : FrameId} (few : late ≤ id.cycle)
    (punctual : Punctual m (publisher.arm t0) late (before ++ window))
    (steady : ∀ s now, .publish s now ∈ window → (s.AdvertisesAssist ↔ (latestState before).AdvertisesAssist))
    (begun : t0 ≤ s) (past : ∀ time ∈ tickTimes before, time ≤ s) (ticked : .tick now ∈ window)
    (long : s + id.cycle ≤ now) (offered : id = .assist → (latestState before).AdvertisesAssist) :
    ∃ frame ∈ (Run.outputs (Proxy.step m) (Proxy.after m (publisher.arm t0) before) window).filterMap
      Firing.frame, frame.id = id := by
  suffices fires : ∃ f ∈ Run.outputs (Proxy.step m) (Proxy.after m (publisher.arm t0) before) window,
      f.id = id by
    obtain ⟨f, member, own⟩ := fires
    obtain ⟨data, same⟩ := Option.isSome_iff_exists.mp
      ((window_sent m _ steady member).mpr (own ▸ offered))
    exact ⟨_, List.mem_filterMap.mpr ⟨f, member, by rw [Firing.frame, same]; rfl⟩, own⟩
  -- The window is cut at the tick: what fires at it or before it is in the window.
  obtain ⟨part, rest, rfl⟩ := List.append_of_mem ticked
  have fired : Run.outputs (Proxy.step m) (Proxy.after m (publisher.arm t0) before) (part ++ .tick now :: rest) =
      Run.outputs (Proxy.step m) (Proxy.after m (publisher.arm t0) before) part ++
        ((Proxy.step m (Proxy.after m (publisher.arm t0) (before ++ part)) (.tick now)).2 ++
          Run.outputs (Proxy.step m) (Proxy.step m (Proxy.after m (publisher.arm t0) (before ++ part))
            (.tick now)).1 rest) := by
    rw [Run.outputs_append, Run.outputs_cons, Proxy.after_append]
  rw [fired]
  by_contra silent
  have grid := run_onGrid m publisher few punctual.of_append
  rw [← List.append_assoc] at punctual
  have later := run_onGrid m publisher few punctual.of_append
  -- Without a frame up to that tick, the deadline is still the one before the window.
  have quiet :
      firingTimes id (Run.outputs (Proxy.step m) (Proxy.after m (publisher.arm t0) before) part) = [] := by
    refine List.filterMap_eq_nil_iff.mpr fun f member => if_neg fun own => silent ⟨f, ?_, own⟩
    exact List.mem_append_left _ member
  have waits : (Proxy.after m (publisher.arm t0) (before ++ part)).publisher.due id ≤ now := by
    have near := grid.near s begun past
    rw [grid.due] at near
    rw [later.due, Proxy.firings, Run.outputs_append, firingTimes_append]
    rw [show Run.final (Proxy.step m) (Proxy.start (publisher.arm t0)) before =
      Proxy.after m (publisher.arm t0) before from rfl, quiet, List.append_nil]
    exact near.trans long
  have told := (Proxy.after m (publisher.arm t0) (before ++ part)).publisher.tick_firingTimes m
    (Proxy.after m (publisher.arm t0) (before ++ part)).store now id
  rw [Publisher.ready_of_armed later.armed, Timer.step_due waits] at told
  have here : now ∈ firingTimes id ((Proxy.after m (publisher.arm t0) (before ++ part)).publisher.tick m
      (Proxy.after m (publisher.arm t0) (before ++ part)).store now).fired := by
    rw [told]
    exact List.mem_singleton_self now
  obtain ⟨f, member, own⟩ := List.mem_filterMap.mp here
  refine silent ⟨f, List.mem_append_right _ (List.mem_append_left _ member), ?_⟩
  by_contra other
  cases (if_neg other).symm.trans own

end Window

section Delivered

variable {offset delay : ℤ} {frames : List Sent} {received : List Received}

/-- A frame is read some time after it was sent, by another clock. -/
structure Delivered (offset delay : ℤ) (frame : Sent) (r : Received) : Prop where
  id : r.id = frame.id.code
  data : r.data = frame.data
  early : frame.time + offset ≤ 1000 * r.t
  late : 1000 * r.t ≤ frame.time + offset + delay

theorem FrameId.code_inj {a b : FrameId} : a.code = b.code ↔ a = b := by
  -- No two kinds share an identifier.
  cases a <;> cases b <;> decide

/-- The frames of a kind are read under its identifier. -/
theorem delivered_times (delivered : List.Forall₂ (Delivered offset delay) frames received) (id : FrameId) :
    List.Forall₂ (fun sent t => sent + offset ≤ 1000 * t ∧ 1000 * t ≤ sent + offset + delay)
      (sentTimes id frames) (timesOf id.code received) := by
  -- Frame by frame; those of other kinds are left out on both sides.
  induction delivered with
  | nil => exact .nil
  | @cons frame r frames received head _ ih =>
    by_cases own : frame.id = id
    · have same : r.id = id.code := by rw [head.id, own]
      rw [sentTimes, List.filter_cons_of_pos (by simpa using own), timesOf,
        List.filter_cons_of_pos (by simpa using same)]
      exact .cons ⟨head.early, head.late⟩ ih
    · have other : r.id ≠ id.code := by
        rw [head.id]
        exact mt FrameId.code_inj.mp own
      rw [sentTimes, List.filter_cons_of_neg (by simpa using own), timesOf,
        List.filter_cons_of_neg (by simpa using other)]
      exact ih

/-- The counters are read as they were sent. -/
theorem delivered_beats (delivered : List.Forall₂ (Delivered offset delay) frames received) :
    beatsOf received = counters frames := by
  induction delivered with
  | nil => rfl
  | @cons frame r frames received head _ ih =>
    have same : r.id = FrameId.status.code ↔ frame.id = .status := by
      rw [head.id]
      exact FrameId.code_inj
    by_cases own : frame.id = .status
    · rw [beatsOf, List.filter_cons_of_pos (by simpa using same.mpr own), counters, heartbeats,
        List.filter_cons_of_pos (by simpa using own), List.map_cons, List.map_cons, head.data]
      exact congrArg _ ih
    · rw [beatsOf, List.filter_cons_of_neg (by simpa using mt same.mp own), counters, heartbeats,
        List.filter_cons_of_neg (by simpa using own)]
      exact ih

/-- Whatever is read was sent. -/
theorem delivered_sent (delivered : List.Forall₂ (Delivered offset delay) frames received) {r : Received}
    (member : r ∈ received) : ∃ frame ∈ frames, Delivered offset delay frame r := by
  obtain ⟨i, inside, rfl⟩ := List.mem_iff_getElem.mp member
  have within : i < frames.length := by rwa [delivered.length_eq]
  exact ⟨frames[i], List.getElem_mem within, delivered.get within inside⟩

/-- Whatever is sent is read. -/
theorem delivered_read (delivered : List.Forall₂ (Delivered offset delay) frames received) {frame : Sent}
    (member : frame ∈ frames) : ∃ r ∈ received, Delivered offset delay frame r := by
  obtain ⟨i, within, rfl⟩ := List.mem_iff_getElem.mp member
  have inside : i < received.length := by rwa [← delivered.length_eq]
  exact ⟨received[i], List.getElem_mem inside, delivered.get within inside⟩

/-- What holds of each two in a row holds of what they are related to. -/
theorem isChain_forall₂ {α β : Type} {R : α → α → Prop} {S : α → β → Prop} {T : β → β → Prop}
    (carry : ∀ {a a' b b'}, S a b → S a' b' → R a a' → T b b') {l : List α} {l' : List β}
    (related : List.Forall₂ S l l') (chain : l.IsChain R) : l'.IsChain T := by
  induction related with
  | nil => exact .nil
  | @cons a b l l' head tail ih =>
    obtain ⟨next, chain⟩ := List.isChain_cons.mp chain
    refine List.isChain_cons.mpr ⟨?_, ih chain⟩
    cases tail with
    | nil => exact nofun
    | cons second _ =>
      intro b' first
      cases first
      exact carry head second (next _ rfl)

/-- Frames a cycle apart are read a cycle apart, give or take the lateness and the delay as well. -/
theorem delivered_near {late : ℤ} {jitter : ℚ} (loose : ((late + delay : ℤ) : ℚ) / 1000000 ≤ jitter)
    (delivered : List.Forall₂ (Delivered offset delay) frames received) {id : FrameId}
    (steady : (sentTimes id frames).IsChain fun a b => |b - a - id.cycle| ≤ late) :
    (timesOf id.code received).IsChain (Near id.code jitter) := by
  refine isChain_forall₂ ?_ (delivered_times delivered id) steady
  intro a a' b b' first second apart
  refine le_trans ?_ loose
  -- In nanoseconds everything is an integer.
  have whole : |1000 * (b' - b) - id.cycle| ≤ late + delay := by
    rw [abs_le] at apart ⊢
    omega
  have cycle : (id.cycle : ℚ) = cycleMs id.code * 1000000 := by
    rw [FrameId.cycle]
    push_cast
    rfl
  have scaled : ((b' : ℚ) - b) / 1000 - cycleMs id.code = ((1000 * (b' - b) - id.cycle : ℤ) : ℚ) / 1000000 := by
    push_cast
    rw [cycle]
    ring
  rw [scaled, abs_div, abs_of_pos (by norm_num : (0 : ℚ) < 1000000)]
  have cast : |((1000 * (b' - b) - id.cycle : ℤ) : ℚ)| ≤ ((late + delay : ℤ) : ℚ) := by exact_mod_cast whole
  exact div_le_div_of_nonneg_right cast (by norm_num)

end Delivered

/-- No cycle is shorter than that of the motion frame, or longer than a second. -/
theorem FrameId.cycle_bounded (id : FrameId) : 50000000 ≤ id.cycle ∧ id.cycle ≤ 1000000000 := by
  cases id <;> decide

/--
A daemon whose thread wakes up in time passes the check of the tool, whatever its plugin does.

Let every tick come at most so much after the earliest deadline, no more than the shortest cycle, and
let the frames of some part of the run be read with at most some delay. Then the tool finds no jitter
beyond the two together, no skipped counter, and none of the expected frames missing once it has watched
for the longest cycle; only driver assistance must be offered throughout that part or not at all, and
is expected only in the first case.
-/
theorem check_passes (m : Machine) (publisher : Publisher) (fresh : publisher.counter = 0) {t0 late : ℤ}
    (few : late ≤ 50000000) {before window : List Call}
    (punctual : Punctual m (publisher.arm t0) late (before ++ window))
    (steady : ∀ s now, .publish s now ∈ window →
      (s.AdvertisesAssist ↔ (latestState before).AdvertisesAssist))
    {offset delay : ℤ} {received : List Received}
    (delivered : List.Forall₂ (Delivered offset delay)
      ((Run.outputs (Proxy.step m) (Proxy.after m (publisher.arm t0) before) window).filterMap Firing.frame)
      received)
    {s now : ℤ} (begun : t0 ≤ s) (past : ∀ time ∈ tickTimes before, time ≤ s) (ticked : .tick now ∈ window)
    (long : s + 1000000000 ≤ now) {c : Checks}
    (loose : ((late + delay : ℤ) : ℚ) / 1000000 ≤ c.maxJitterMs)
    (contractual : ∀ e ∈ c.expect, ∃ id : FrameId, id.code = e ∧
      (id = .assist → (latestState before).AdvertisesAssist)) :
    c.rc (watch received) = 0 := by
  have short (id : FrameId) : late ≤ id.cycle := few.trans id.cycle_bounded.1
  rw [check_exact]
  refine ⟨fun _ id => ?_, fun e member => ?_, fun _ => ?_⟩
  · by_cases own : ∃ known : FrameId, known.code = id
    · obtain ⟨known, rfl⟩ := own
      exact delivered_near loose delivered (window_steady m publisher (short known) punctual steady)
    · -- Nothing is read under an identifier that is not of the contract.
      have none : timesOf id received = [] := by
        rw [timesOf, List.map_eq_nil_iff, List.filter_eq_nil_iff]
        intro r member
        obtain ⟨frame, -, head⟩ := delivered_sent delivered member
        simpa using fun same => own ⟨frame.id, head.id.symm.trans same⟩
      rw [none]
      exact .nil
  · obtain ⟨id, rfl, offered⟩ := contractual e member
    have cycle := id.cycle_bounded.2
    obtain ⟨frame, sent, rfl⟩ := window_sends m publisher (short id) punctual steady begun past ticked
      (by omega) offered
    obtain ⟨r, read, head⟩ := delivered_read delivered sent
    exact ⟨r, read, head.id⟩
  · rw [delivered_beats delivered]
    -- The counters that were sent in that part are some of all the counters.
    obtain ⟨numbers, -⟩ := @run_counted m (publisher.arm t0) fresh (before ++ window)
    have whole : Consecutive (counters (Proxy.transmitted m (publisher.arm t0) (before ++ window))) := by
      rw [numbers]
      exact consecutive_range _
    rw [Proxy.transmitted, Proxy.firings, Run.outputs_append, List.filterMap_append, counters_append] at whole
    exact whole.right_of_append

/-- A second of a plugin that offers driver assistance, each tick a millisecond late, has all nine frames. -/
theorem check_passes_second :
    let s := { VehicleState.zero with capable := Signal.ecoScore.bit }
    let before : List Call := [.publish s 0, .setLink true 0, .tick 1000000]
    let window : List Call := (List.range 20).map fun k : Nat => .tick (50000000 * (k + 1) + 1000000)
    let frames := (Run.outputs (Proxy.step Machine.indefinite)
      (Proxy.after Machine.indefinite ((Publisher.new 1000000000 1 0).arm 0) before) window).filterMap
        Firing.frame
    Checks.rc ⟨5, kOrder.map FrameId.code, true⟩
      (watch (frames.map fun frame => ⟨frame.id.code, frame.data, frame.time / 1000⟩)) = 0 := by
  intro s before window frames
  -- Reading the clock in microseconds drops less than a microsecond.
  have delivered : List.Forall₂ (Delivered (-1000) 1000) frames
      (frames.map fun frame => ⟨frame.id.code, frame.data, frame.time / 1000⟩) := by
    rw [List.forall₂_map_right_iff, List.forall₂_same]
    intro frame _
    exact ⟨rfl, rfl, by dsimp only; omega, by dsimp only; omega⟩
  have quiet : ∀ s now, Call.publish s now ∉ window := by simp [window]
  have offered : (latestState before).AdvertisesAssist := by decide
  refine @check_passes Machine.indefinite (Publisher.new 1000000000 1 0) rfl 0 1000000 (by decide) before window
    (by decide +kernel) (fun s now member => absurd member (quiet s now)) (-1000) 1000 _ delivered 1000000
    1001000000 (by decide) (by decide) (List.mem_map.mpr ⟨19, by decide, rfl⟩) (by decide)
    ⟨5, kOrder.map FrameId.code, true⟩ (by norm_num) ?_
  intro e member
  obtain ⟨id, -, rfl⟩ := List.mem_map.mp member
  exact ⟨id, rfl, fun _ => offered⟩

end CanProxy
