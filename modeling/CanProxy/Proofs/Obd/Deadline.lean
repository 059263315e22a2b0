import CanProxy.Proofs.Obd.Trace

/-! The deadline a scheduler gives is the first time at which it has something to ask for. -/

namespace CanProxy.Poller

/-- The step of the scan for the earliest deadline; a negative one stands for none so far. -/
def earlier (earliest : ℤ) (it : PollItem) : ℤ :=
  if earliest < 0 ∨ it.due < earliest then it.due else earliest

/-- The earliest deadline of a scheduler, negative when it has no items. -/
def earliestDue (p : Poller) : ℤ := p.items.foldl earlier (-1)

theorem nextDeadline_eq (p : Poller) (now : ℤ) :
    p.nextDeadline now =
      if p.earliestDue < 0 then now else if p.earliestDue < now then now else p.earliestDue := rfl

/-- Deadlines that do not go below zero are not mistaken for none. -/
theorem foldl_earlier {items : List PollItem} (nonneg : ∀ it ∈ items, 0 ≤ it.due)
    (some : items ≠ []) :
    (∃ it ∈ items, it.due = items.foldl earlier (-1)) ∧
      ∀ it ∈ items, items.foldl earlier (-1) ≤ it.due := by
  -- Induction from the end of the list: the last item is the earliest, or an earlier one was.
  induction items using List.reverseRecOn with
  | nil => exact absurd rfl some
  | append_singleton items last ih =>
    have before (it) (member : it ∈ items) := nonneg it (List.mem_append_left _ member)
    rw [List.foldl_append, List.foldl_cons, List.foldl_nil]
    rcases List.eq_nil_or_concat' items with rfl | ⟨_, _, nonempty⟩
    · simp [earlier]
    obtain ⟨⟨first, listed, least⟩, bound⟩ := ih before (by simp [nonempty])
    have known := before first listed
    rw [earlier]
    split
    next sooner =>
      refine ⟨⟨last, by simp, rfl⟩, ?_⟩
      intro it member
      rcases List.mem_append.mp member with old | new
      · have := bound it old
        omega
      · rw [List.mem_singleton.mp new]
    next later =>
      refine ⟨⟨first, List.mem_append_left _ listed, least⟩, ?_⟩
      intro it member
      rcases List.mem_append.mp member with old | new
      · exact bound it old
      · rw [List.mem_singleton.mp new]
        omega

/-- Deadlines never go below zero. -/
def Timely (p : Poller) : Prop := ∀ it ∈ p.items, 0 ≤ it.due ∧ 0 < it.interval

/-- Every call with a positive interval at a time that is not negative keeps the deadlines so. -/
theorem timely_apply {p : Poller} {op : Operation} (timely : p.Timely) (proper : op.Proper) :
    (p.apply op).Timely := by
  cases op with
  | clear => exact fun it member => absurd member List.not_mem_nil
  | add pid intervalMs =>
    intro it member
    have found := find_of_mem member
    rcases find_add_some found with old | ⟨-, rfl⟩
    · exact timely it (find_some old).1
    · exact ⟨le_rfl, proper⟩
  | remove pid => exact fun it member => timely it (List.mem_of_mem_eraseP member)
  | markRequested pid now =>
    intro it member
    have found := find_of_mem member
    rw [apply, find_markRequested] at found
    obtain ⟨old, before, rfl⟩ := Option.map_eq_some_iff.mp found
    have held := timely old (find_some before).1
    have time : 0 ≤ now := proper
    split
    · exact ⟨by have := held.2; simp only; omega, held.2⟩
    · exact held
  | markAnswered pid now =>
    intro it member
    have found := find_of_mem member
    rw [apply, find_markAnswered] at found
    obtain ⟨old, before, rfl⟩ := Option.map_eq_some_iff.mp found
    have held := timely old (find_some before).1
    split <;> exact held

theorem timely_after {past : List Operation} (proper : ∀ op ∈ past, op.Proper) :
    (after past).Timely := by
  induction past using List.reverseRecOn with
  | nil => exact fun it member => absurd member List.not_mem_nil
  | append_singleton past op ih =>
    rw [after_concat]
    refine timely_apply (ih fun earlier member => proper earlier ?_) (proper op (by simp))
    exact List.mem_append_left _ member

/-- There is something to ask for exactly when some deadline has come. -/
theorem nextDue_isSome_iff (p : Poller) (now : ℤ) :
    (p.nextDue now).isSome = true ↔ ∃ it ∈ p.items, it.due ≤ now := by
  constructor
  · intro chosen
    obtain ⟨pid, chosen⟩ := Option.isSome_iff_exists.mp chosen
    obtain ⟨it, found, reached⟩ := nextDue_some chosen
    exact ⟨it, (find_some found).1, reached⟩
  · rintro ⟨it, member, reached⟩
    -- The scan finds nothing only when nothing is due.
    rw [nextDue_eq_best, Option.isSome_map]
    cases best : Selection.best (fun it => ¬now < it.due) (Later now) p.items with
    | some _ => rfl
    | none => exact absurd (not_lt.mpr reached) (Selection.not_eligible_of_best_none best it member)

/-- Something is due from the earliest deadline on. -/
theorem nextDue_isSome_iff_earliestDue {p : Poller} (timely : p.Timely) (some : p.items ≠ [])
    (now : ℤ) : (p.nextDue now).isSome = true ↔ p.earliestDue ≤ now := by
  obtain ⟨⟨first, listed, least⟩, bound⟩ := foldl_earlier (fun it member => (timely it member).1) some
  rw [nextDue_isSome_iff]
  constructor
  · rintro ⟨it, member, reached⟩
    exact (bound it member).trans reached
  · intro reached
    exact ⟨first, listed, least.trans_le reached⟩

/-- The earliest deadline is never the value that stands for none. -/
theorem earliestDue_nonneg {p : Poller} (timely : p.Timely) (some : p.items ≠ []) :
    0 ≤ p.earliestDue := by
  obtain ⟨⟨first, listed, least⟩, -⟩ := foldl_earlier (fun it member => (timely it member).1) some
  exact (timely first listed).1.trans_eq least

/--
A scheduler that has parameters gives the present as its deadline exactly when it has something to
ask for. Otherwise nothing is due before the deadline it gives, and something is due then.
-/
theorem nextDeadline_agrees_with_nextDue {past : List Operation} (proper : ∀ op ∈ past, op.Proper)
    (some : (after past).items ≠ []) (now : ℤ) :
    (((after past).nextDue now).isSome = true ↔ (after past).nextDeadline now = now) ∧
    ((after past).nextDue now = none →
      now < (after past).nextDeadline now ∧
      (∀ t, now ≤ t → t < (after past).nextDeadline now → (after past).nextDue t = none) ∧
      ((after past).nextDue ((after past).nextDeadline now)).isSome = true) := by
  -- Both scans come down to the earliest deadline.
  have timely := timely_after proper
  have due := nextDue_isSome_iff_earliestDue timely some
  have nonneg := earliestDue_nonneg timely some
  have given := nextDeadline_eq (after past) now
  rw [if_neg (by omega)] at given
  refine ⟨?_, ?_⟩
  · rw [due, given]
    split <;> omega
  · intro nothing
    have later : ¬(after past).earliestDue ≤ now := by
      rw [← due, nothing]
      simp
    rw [if_neg (by omega)] at given
    rw [given]
    refine ⟨by omega, ?_, (due _).mpr le_rfl⟩
    intro t _ early
    rw [← Option.not_isSome_iff_eq_none, due]
    omega

/-- A parameter asked for at one second is next due an interval later, and not before. -/
theorem nextDeadline_agrees_with_nextDue_once :
    let past : List Operation := [.add 12 100, .markRequested 12 1000]
    (after past).nextDue 1000 = none ∧ (after past).nextDeadline 1000 = 1100 ∧
      ((after past).nextDue 1100).isSome = true := by
  intro past
  have proper : ∀ op ∈ past, op.Proper := by simp [past, Operation.Proper]
  have none : (after past).nextDue 1000 = none := by decide
  have given : (after past).nextDeadline 1000 = 1100 := by decide
  obtain ⟨-, -, due⟩ := (nextDeadline_agrees_with_nextDue proper (by decide) 1000).2 none
  exact ⟨none, given, given ▸ due⟩

end CanProxy.Poller
