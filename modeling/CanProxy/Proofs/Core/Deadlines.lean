import CanProxy.Proofs.Core.Schedule

/-! When each frame is sent over a whole run, and what a tick leaves for the next one. -/

namespace CanProxy

open Numeric

/-- The optional frame is the only one ever withheld, and only without its capability. -/
theorem sendFrame_isSome (m : Machine) (id : FrameId) (f : Frames) :
    (sendFrame m id f).isSome = true ↔
      (id = .assist → f.status.capabilities &&& Capability.assist.bit ≠ 0) := by
  -- Every packer but the driver-assist one returns its bytes unconditionally.
  cases id with
  | assist =>
    unfold sendFrame
    split <;> simp_all
  | _ => simp [sendFrame]

namespace Publisher

theorem arm_due (p : Publisher) (now : ℤ) (id : FrameId) : (p.arm now).due id = now := by
  -- Arming rewrites the deadline of every slot, the frame's own among them.
  obtain ⟨s, member, -, same⟩ := (p.arm now).exists_slot id
  obtain ⟨_, _, rfl⟩ := List.mem_map.mp member
  exact same.symm

/-- A publisher with a deadline ahead was armed before. -/
theorem ready_of_early {p : Publisher} {now : ℤ} {id : FrameId} (early : now < (p.ready now).due id) :
    p.ready now = p := by
  -- Arming puts every deadline on now, so none of them would be ahead.
  by_cases armed : p.armed = true
  · exact ready_of_armed armed now
  · have justArmed : p.ready now = p.arm now := if_neg armed
    rw [justArmed, arm_due] at early
    omega

/-- The returned deadline is ahead exactly when every slot's is. -/
theorem lt_nextDeadline {slots : List Slot} (present : slots ≠ []) (now : ℤ) :
    now < nextDeadline slots ↔ ∀ s ∈ slots, now < s.due := by
  -- The fold keeps the smaller of the deadline so far and the next slot's.
  have fold : ∀ (slots : List Slot) (next : ℤ),
      now < slots.foldl (fun next s => if s.due < next then s.due else next) next ↔
        now < next ∧ ∀ s ∈ slots, now < s.due := by
    intro slots
    induction slots with
    | nil => simp
    | cons s rest ih =>
      intro next
      rw [List.foldl_cons, ih, List.forall_mem_cons]
      split <;> constructor <;> rintro ⟨soon, others⟩
      · exact ⟨by omega, soon, others⟩
      · exact ⟨others.1, others.2⟩
      · exact ⟨soon, by omega, others⟩
      · exact ⟨soon, others.2⟩
  cases slots with
  | nil => exact absurd rfl present
  | cons first rest =>
    unfold nextDeadline
    rw [fold]
    exact ⟨And.right, fun ahead => ⟨ahead first List.mem_cons_self, ahead⟩⟩

theorem slots_ne_nil (p : Publisher) : p.slots ≠ [] := by
  -- The sending order is not empty, and the slots follow it.
  intro empty
  have := p.ordered
  rw [empty] at this
  exact absurd this (by decide)

end Publisher

namespace Proxy

theorem after_append (m : Machine) (publisher : Publisher) (first second : List Call) :
    after m publisher (first ++ second) = Run.final (step m) (after m publisher first) second :=
  Run.final_append _ _ _ _

/-- Seen at one frame, a run of an armed publisher is a run of that frame's timer over the ticks. -/
theorem run_timer (m : Machine) {publisher : Publisher} (armed : publisher.armed = true)
    (id : FrameId) (calls : List Call) :
    ((after m publisher calls).publisher.armed = true ∧
      (after m publisher calls).publisher.due id =
        Run.final (Timer.step id.cycle) (publisher.due id) (tickTimes calls)) ∧
    firingTimes id (firings m publisher calls) =
      Timer.firings id.cycle (publisher.due id) (tickTimes calls) := by
  -- A tick is one look of the timer, and the plugin's two calls are none.
  have ticks : tickTimes calls = calls.flatMap fun call => call.tick?.toList :=
    List.filterMap_eq_flatMap_toList _ _
  rw [ticks]
  let related (proxy : Proxy) (due : ℤ) : Prop :=
    proxy.publisher.armed = true ∧ proxy.publisher.due id = due
  refine Run.simulation (R := related) ?_ ⟨armed, rfl⟩ calls
  rintro proxy due call ⟨armed, rfl⟩
  -- Only a tick touches the publisher, and there the timer takes the same step.
  cases call with
  | publish s now => exact ⟨⟨armed, rfl⟩, rfl⟩
  | setLink present now => exact ⟨⟨armed, rfl⟩, rfl⟩
  | tick now =>
    have moved := proxy.publisher.tick_due m proxy.store now id
    have fired := proxy.publisher.tick_firingTimes m proxy.store now id
    rw [Publisher.ready_of_armed armed] at moved fired
    refine ⟨⟨Publisher.tick_armed m _ _ _, moved⟩, fired.trans ?_⟩
    simp [Call.tick?]

/-- In a run with ordered ticks no deadline is more than one cycle ahead of the last tick. -/
theorem due_le (m : Machine) (publisher : Publisher) (t0 : ℤ) (calls : List Call) (now : ℤ)
    (sorted : (t0 :: tickTimes (calls ++ [.tick now])).Pairwise (· ≤ ·)) (id : FrameId) :
    (after m (publisher.arm t0) calls).publisher.due id ≤ now + id.cycle := by
  have extended : tickTimes (calls ++ [.tick now]) = tickTimes calls ++ [now] := by
    simp [tickTimes, Call.tick?]
  -- The last tick is after all the others, and those are ordered among themselves.
  rw [extended, ← List.cons_append, List.pairwise_append] at sorted
  obtain ⟨sorted, -, later⟩ := sorted
  have positive := id.cycle_pos
  have bounded : Run.final (Timer.step id.cycle) t0 (tickTimes calls) ≤
      (tickTimes calls).getLast?.getD t0 + id.cycle :=
    Timer.final_le (tickTimes calls) sorted.isChain (by omega)
  rw [(run_timer m rfl id calls).1.2, Publisher.arm_due]
  -- The last tick so far is not after this one.
  have last : (tickTimes calls).getLast?.getD t0 ≤ now := by
    cases ticks : (tickTimes calls).getLast? with
    | none => exact later t0 List.mem_cons_self now List.mem_cons_self
    | some time =>
      exact later time (List.mem_cons_of_mem _ (List.mem_of_getLast? ticks)) now List.mem_cons_self
  omega

end Proxy

/--
Every frame keeps its cycle from the moment its publisher is armed.

A tick fires a slot at most once and the k-th firing never comes before k cycles have passed; looked
at often enough it comes at the first tick after that, so firings are counted by the elapsed cycles.
Only the driver assist frame is ever withheld, when the snapshot lacks its capability.
-/
theorem firings_on_schedule (m : Machine) (publisher : Publisher) (t0 : ℤ) (calls : List Call)
    (id : FrameId) (starts : (tickTimes calls).head? = some t0)
    (sorted : (tickTimes calls).Pairwise (· ≤ ·)) :
    let fired := firingTimes id (Proxy.firings m (publisher.arm t0) calls)
    (∀ past now, past ++ [.tick now] <+: calls →
      let proxy := Proxy.after m (publisher.arm t0) past
      let atTick := (Proxy.step m proxy (.tick now)).2
      (firingTimes id atTick).length ≤ 1 ∧
      ∀ f ∈ atTick, f.sent.isSome = true ↔
        (f.id = .assist → capabilitiesFrom proxy.store.state.capable &&& Capability.assist.bit ≠ 0)) ∧
    (∀ (k : Nat) time, fired[k]? = some time → t0 + k * id.cycle ≤ time) ∧
    ((tickTimes calls).IsChain (fun a b => b ≤ a + id.cycle) →
      (∀ k : Nat, fired[k]? = (tickTimes calls).find? (fun time => t0 + k * id.cycle ≤ time)) ∧
      ∀ time, (tickTimes calls).getLast? = some time →
        (fired.length : ℤ) = (time - t0) / id.cycle + 1) := by
  have positive := id.cycle_pos
  -- Seen at this frame alone, the run is a run of its timer from the arming time.
  have timed : firingTimes id (Proxy.firings m (publisher.arm t0) calls) =
      Timer.firings id.cycle t0 (tickTimes calls) := by
    rw [(Proxy.run_timer m rfl id calls).2, Publisher.arm_due]
  dsimp only
  rw [timed]
  refine ⟨fun past now _ => ⟨?_, fun f member => ?_⟩,
    fun k time found => Timer.le_firing (tickTimes calls) k found, fun gaps => ?_⟩
  · -- A timer emits at most one firing at each look.
    rw [Proxy.step, Publisher.tick_firingTimes]
    unfold Timer.step
    split <;> simp
  · rw [Proxy.step, Publisher.tick_fired] at member
    -- What fired was sent unless it is the withheld frame, whatever the publisher's own state.
    obtain ⟨s, -, fires⟩ := List.mem_filterMap.mp member
    unfold Slot.firing? at fires
    split at fires
    · cases fires
    · cases fires
      exact sendFrame_isSome m s.id _
  · -- The first tick finds the deadline reached, as a look just after an earlier one would.
    obtain ⟨rest, ticks⟩ := List.head?_eq_some_iff.mp starts
    have dense : Timer.Dense id.cycle (t0 - 1) (tickTimes calls) := by
      have ordered : (tickTimes calls).IsChain (fun a b => a ≤ b ∧ b ≤ a + id.cycle) :=
        List.isChain_iff_getElem.mpr fun i inside =>
          ⟨List.isChain_iff_getElem.mp sorted.isChain i inside,
            List.isChain_iff_getElem.mp gaps i inside⟩
      rw [ticks] at ordered ⊢
      exact List.isChain_cons_cons.mpr ⟨by omega, ordered⟩
    refine ⟨fun k => Timer.firings_dense dense (by omega) (by omega) k, fun time last => ?_⟩
    rw [Timer.length_firings_dense dense (by omega) (by omega), last, Option.getD_some]

/-- A publisher ticked a little irregularly sends the status frame on its grid. -/
theorem firings_on_schedule_status :
    let calls := [Call.tick 0, .tick 60000000, .setLink true 70000000, .tick 120000000]
    let fired := firingTimes .status
      (Proxy.firings Machine.indefinite ((Publisher.new 1000000000 1 0).arm 0) calls)
    fired[1]? = some 120000000 ∧ (fired.length : ℤ) = 2 := by
  -- The looks are at most one cycle apart, so the second firing is the first tick from 100 ms on.
  obtain ⟨-, -, dense⟩ := firings_on_schedule Machine.indefinite (Publisher.new 1000000000 1 0) 0
    [.tick 0, .tick 60000000, .setLink true 70000000, .tick 120000000] .status rfl (by decide)
  obtain ⟨times, count⟩ := dense (by decide)
  exact ⟨(times 1).trans (by decide), (count 120000000 rfl).trans (by decide)⟩

/--
After a tick every deadline is ahead by at most one cycle, the returned one is ahead, and a second tick
at the same time sends nothing, unless some deadline was exactly one cycle late.
-/
theorem deadlines_ahead_iff (m : Machine) (publisher : Publisher) (t0 : ℤ) (calls : List Call)
    (now : ℤ) (sorted : (t0 :: tickTimes (calls ++ [.tick now])).Pairwise (· ≤ ·)) :
    let before := Proxy.after m (publisher.arm t0) calls
    let ticked := before.publisher.tick m before.store now
    ((∀ s ∈ ticked.publisher.slots, now < s.due ∧ s.due ≤ now + s.cycle) ∧ now < ticked.next ∧
      Proxy.sentBy m (publisher.arm t0) (calls ++ [.tick now]) now = []) ↔
    ∀ s ∈ before.publisher.slots, s.due + s.cycle ≠ now := by
  intro before ticked
  have armed : before.publisher.armed = true := (Proxy.run_timer m rfl .status calls).1.1
  have slots : ticked.publisher.slots = before.publisher.slots.map (Slot.look now) := by
    rw [Publisher.tick_slots, Publisher.ready_of_armed armed]
  -- Being ahead is decided slot by slot, by the deadline before the tick.
  have ahead : (∀ s ∈ ticked.publisher.slots, now < s.due) ↔
      ∀ s ∈ before.publisher.slots, s.due + s.cycle ≠ now := by
    rw [slots, List.forall_mem_map]
    refine forall₂_congr fun s _ => ?_
    rw [Slot.look_due]
    exact Timer.lt_step_iff (s.contractual ▸ s.id.cycle_pos)
  -- The upper bound needs the ordered ticks: no deadline was more than one cycle ahead before.
  have near : ∀ s ∈ ticked.publisher.slots, s.due ≤ now + s.cycle := by
    rw [slots, List.forall_mem_map]
    intro s member
    have bounded := Proxy.due_le m publisher t0 calls now sorted s.id
    rw [Publisher.due_of_mem member, ← s.contractual] at bounded
    rw [Slot.look_due, Slot.look_eq]
    exact Timer.step_le bounded le_rfl
  -- The returned deadline is the smallest of those the tick left.
  have next : now < ticked.next ↔ ∀ s ∈ ticked.publisher.slots, now < s.due := by
    rw [Publisher.tick_next, Publisher.lt_nextDeadline (Publisher.slots_ne_nil _)]
  -- Deadlines that are all ahead leave a second tick at the same time nothing to fire.
  have again : (∀ s ∈ ticked.publisher.slots, now < s.due) →
      Proxy.sentBy m (publisher.arm t0) (calls ++ [.tick now]) now = [] := by
    intro early
    have stays : ticked.publisher.armed = true := Publisher.tick_armed m _ _ _
    have fired : (ticked.publisher.tick m before.store now).fired = [] := by
      rw [Publisher.tick_fired, Publisher.ready_of_armed stays, List.filterMap_eq_nil_iff]
      exact fun s member => if_pos (early s member)
    rw [Proxy.sentBy, Proxy.after_append]
    exact (congrArg (List.filterMap Firing.frame) fired).trans rfl
  rw [← ahead]
  -- Only the lower bound can fail; everything else follows from it.
  constructor
  · exact fun ⟨window, _, _⟩ s member => (window s member).1
  · exact fun early => ⟨fun s member => ⟨early s member, near s member⟩, next.mpr early, again early⟩

/-- A tick on schedule leaves no deadline behind. -/
theorem deadlines_ahead_after_start :
    let before := Proxy.after Machine.indefinite ((Publisher.new 1000000000 1 0).arm 0) [.tick 0]
    let ticked := before.publisher.tick Machine.indefinite before.store 50000000
    50000000 < ticked.next :=
  -- At 50 ms the deadlines are still those of the first tick, none of them a whole cycle late.
  ((deadlines_ahead_iff Machine.indefinite (Publisher.new 1000000000 1 0) 0 [.tick 0] 50000000
    (by decide)).mpr (by decide +kernel)).2.1

/-- The motion frame one cycle late stays due: the next deadline is now, and a second tick sends it again. -/
theorem deadline_not_ahead :
    let publisher := (Publisher.new 1000000000 1 0).arm 0
    let before := Proxy.after Machine.indefinite publisher [.tick 0]
    let ticked := before.publisher.tick Machine.indefinite before.store 100000000
    (¬ 100000000 < ticked.next) ∧
      Proxy.sentBy Machine.indefinite publisher [.tick 0, .tick 100000000] 100000000 ≠ [] := by
  decide +kernel

end CanProxy
