import CanProxy.Proofs.Core.Deadlines

/-! A thread that sleeps until the returned deadline sends what a polling loop would. -/

namespace CanProxy

open Numeric

namespace Publisher

variable (m : Machine)

/-- A publisher that is armed does nothing before its earliest deadline, whatever the store holds. -/
theorem tick_early {p : Publisher} (armed : p.armed = true) (snap : Snapshot) {t : ℤ}
    (early : t < nextDeadline p.slots) : p.tick m snap t = ⟨p, [], nextDeadline p.slots⟩ := by
  have same := ready_of_armed armed t
  have ahead := (lt_nextDeadline p.slots_ne_nil t).mp early
  have quiet : ¬(p.ready t).slots.any (fun s => s.due ≤ t) = true := by
    rw [same, List.any_eq_true]
    rintro ⟨s, member, reached⟩
    have := ahead s member
    simp only [decide_eq_true_eq] at reached
    omega
  unfold tick
  dsimp only
  rw [if_neg quiet, same]

/-- From the earliest deadline on a tick fires some slot. -/
theorem tick_late {p : Publisher} (armed : p.armed = true) (snap : Snapshot) {t : ℤ}
    (late : nextDeadline p.slots ≤ t) : (p.tick m snap t).fired ≠ [] := by
  rw [tick_fired, ready_of_armed armed]
  intro nothing
  -- Without a firing every deadline would be ahead, and so would the earliest.
  have ahead : ∀ s ∈ p.slots, t < s.due := by
    intro s member
    have silent := List.filterMap_eq_nil_iff.mp nothing s member
    unfold Slot.firing? at silent
    split at silent
    · assumption
    · cases silent
  have := (lt_nextDeadline p.slots_ne_nil t).mpr ahead
  omega

end Publisher

/-- A tick before the deadline that the last tick returned. -/
def Call.early (next : Option ℤ) : Call → Bool
  | .tick now => next.any (now < ·)
  | _ => false

/-- The deadline that the last tick returned. -/
def Proxy.returned (m : Machine) (next : Option ℤ) (proxy : Proxy) : Call → Option ℤ
  | .tick now => some (proxy.publisher.tick m proxy.store now).next
  | _ => next

/-- The calls of a run without the ticks that come before the deadline returned by the tick before. -/
def slept (m : Machine) (publisher : Publisher) (calls : List Call) : List Call :=
  Run.awake (Proxy.step m) Call.early (Proxy.returned m) (Proxy.start publisher) none calls

/-- The deadline a publisher returned last is still its earliest one. -/
def Waiting (proxy : Proxy) (next : Option ℤ) : Prop :=
  ∀ d ∈ next, proxy.publisher.armed = true ∧ Publisher.nextDeadline proxy.publisher.slots = d

/-- Leaving out the ticks that come too early changes nothing that a run sends, nor where it ends. -/
theorem slept_same (m : Machine) (publisher : Publisher) (calls : List Call) :
    Proxy.firings m publisher (slept m publisher calls) = Proxy.firings m publisher calls ∧
      Proxy.after m publisher (slept m publisher calls) = Proxy.after m publisher calls := by
  -- The store may change while the thread sleeps, which the deadlines do not depend on.
  refine Run.awake_same (R := Waiting) ?_ ?_ (fun d unknown => by cases unknown) calls
  · intro proxy next call waiting early
    cases call with
    | tick now =>
      obtain ⟨d, known, before⟩ := (Option.any_eq_true ..).mp early
      obtain ⟨armed, rfl⟩ := waiting d known
      have idle := Publisher.tick_early m armed proxy.store (of_decide_eq_true before)
      rw [Proxy.step, idle]
    | publish s now | setLink present now => cases early
  · intro proxy next call waiting _
    cases call with
    | tick now =>
      rintro d ⟨⟩
      exact ⟨Publisher.tick_armed m _ _ _, (Publisher.tick_next m _ _ _).symm⟩
    | publish s now | setLink present now => exact waiting

/--
After every tick a publisher does nothing at all before the deadline it returned, whatever the store
holds by then, and fires some slot from then on. So a run in which every tick that comes before the
deadline returned by the last tick made is left out puts the same frames on the bus at the same times.
-/
theorem sleeping_sends_the_same (m : Machine) (publisher : Publisher) :
    (∀ (past : List Call) (now : ℤ),
      let proxy := Proxy.after m publisher past
      let ticked := proxy.publisher.tick m proxy.store now
      (∀ snap t, t < ticked.next →
        ticked.publisher.tick m snap t = ⟨ticked.publisher, [], ticked.next⟩) ∧
      ∀ snap, (ticked.publisher.tick m snap (max now ticked.next)).fired ≠ []) ∧
    ∀ calls : List Call,
      Proxy.transmitted m publisher (slept m publisher calls) = Proxy.transmitted m publisher calls ∧
      Proxy.after m publisher (slept m publisher calls) = Proxy.after m publisher calls := by
  refine ⟨?_, ?_⟩
  · intro past now proxy ticked
    have armed : ticked.publisher.armed = true := Publisher.tick_armed m _ _ _
    have next : ticked.next = Publisher.nextDeadline ticked.publisher.slots :=
      Publisher.tick_next m _ _ _
    rw [next]
    refine ⟨?_, ?_⟩
    · intro snap t early
      exact Publisher.tick_early m armed snap early
    · intro snap
      exact Publisher.tick_late m armed snap (le_max_right _ _)
  · intro calls
    obtain ⟨fired, reached⟩ := slept_same m publisher calls
    exact ⟨congrArg (List.filterMap Firing.frame) fired, reached⟩

end CanProxy
