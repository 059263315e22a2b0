import CanProxy.Obd.Trace
import CanProxy.Proofs.Obd.Poller

/-! Every history of calls leaves the scheduler that the calls themselves describe. -/

namespace CanProxy.Poller

section Trace

variable (pid : UInt8) (past : List Operation) (op : Operation)

theorem after_concat : after (past ++ [op]) = (after past).apply op :=
  -- The last call is made last.
  List.foldl_concat ..

/-- A parameter is there from its first add on, until it is dropped. -/
theorem addedWith_concat :
    addedWith pid (past ++ [op]) =
      if op.drops pid = true then none else (addedWith pid past).or (op.adds? pid) := by
  unfold addedWith
  rw [Run.since_concat]
  split
  · rfl
  · rw [List.findSome?_append]
    simp

/-- A history without an add has nothing that comes after one. -/
theorem dropWhile_eq_nil_iff (calls : List Operation) :
    (calls.dropWhile fun op => (op.adds? pid).isNone) = [] ↔
      calls.findSome? (Operation.adds? pid) = none := by
  -- Both say that no call adds the parameter.
  rw [List.dropWhile_eq_nil_iff, List.findSome?_eq_none_iff]
  simp

/-- An answer counts for a parameter that is there, and dropping the parameter forgets it. -/
theorem answeredLast_concat :
    answeredLast pid (past ++ [op]) =
      if op.drops pid = true then none
      else if (addedWith pid past).isSome = true then
        (op.answers? pid).or (answeredLast pid past)
      else none := by
  unfold answeredLast addedWith
  rw [Run.since_concat]
  split
  · rfl
  rw [List.dropWhile_append]
  have empty := dropWhile_eq_nil_iff pid (Run.since (Operation.drops pid) past)
  cases added : (Run.since (Operation.drops pid) past).findSome? (Operation.adds? pid) with
  | some interval =>
    -- The add is among the earlier calls, so the new one comes after it.
    rw [added] at empty
    have nonempty := mt empty.mp (by simp)
    rw [if_neg (by simpa using nonempty), Run.last_concat]
    rfl
  | none =>
    -- Without an add there is no answer, and a call that adds is none itself.
    rw [empty.mpr added, List.isEmpty_nil, if_pos rfl]
    cases op with
    | add other interval =>
      rw [List.dropWhile_cons]
      split <;> rfl
    | clear | remove other | markRequested other now | markAnswered other now => rfl

theorem witnessed_concat (before : List Operation) :
    witnessed before (past ++ [op]) = witnessed before past ++
      [(op, op.marks?.any fun pid => (addedWith pid (before ++ past)).isSome)] := by
  -- The calls already made move from the history in front to the one walked along.
  induction past generalizing before with
  | nil => simp [witnessed]
  | cons first rest ih =>
    rw [List.cons_append, witnessed, ih, witnessed, List.append_assoc]
    rfl

/-- One more call starts the count over, counts, or leaves it. -/
theorem requestedSince_concat :
    let call := (op, op.marks?.any fun pid => (addedWith pid past).isSome)
    requestedSince (past ++ [op]) =
      if restarts call = true then 0
      else if counts call = true then requestedSince past + 1 else requestedSince past := by
  intro call
  unfold requestedSince
  rw [witnessed_concat, List.nil_append, Run.since_concat]
  split
  · rfl
  · rw [List.countP_append, List.countP_singleton]
    split <;> rfl

end Trace

/-- What a scheduler keeps of a parameter that calls can observe: the interval and the last answer. -/
def observed (p : Poller) (pid : UInt8) : Option (ℤ × ℤ) :=
  (p.find pid).map fun it => (it.interval, it.lastAnswer)

section Observed

variable (p : Poller) (pid : UInt8)

theorem observed_isSome : (p.observed pid).isSome = (p.find pid).isSome := Option.isSome_map

theorem observed_add (other : UInt8) (intervalMs : ℤ) :
    (p.add other intervalMs).observed pid =
      (p.observed pid).or (if other = pid then some (intervalMs, -1) else none) := by
  unfold observed
  rw [find_add]
  cases p.find pid with
  | some it => rfl
  | none => split <;> rfl

theorem observed_remove (other : UInt8) :
    (p.remove other).observed pid = if pid = other then none else p.observed pid := by
  unfold observed
  rw [find_remove]
  split <;> rfl

/-- A request only moves the deadline, which is not observed. -/
theorem observed_markRequested (other : UInt8) (now : ℤ) :
    (p.markRequested other now).observed pid = p.observed pid := by
  unfold observed
  rw [find_markRequested, Option.map_map]
  congr 1
  funext it
  rw [Function.comp_apply]
  split <;> rfl

theorem observed_markAnswered (other : UInt8) (now : ℤ) :
    (p.markAnswered other now).observed pid =
      (p.observed pid).map fun seen => if other = pid then (seen.1, now) else seen := by
  -- The item found is listed under the parameter asked for.
  unfold observed
  rw [find_markAnswered, Option.map_map, Option.map_map]
  cases found : p.find pid with
  | none => rfl
  | some it =>
    obtain ⟨-, rfl⟩ := find_some found
    rw [Option.map_some, Option.map_some, Function.comp_apply, Function.comp_apply]
    split
    next same => rw [if_pos same.symm]
    next different => rw [if_neg fun same => different same.symm]

end Observed

/-- What is observed of a parameter is what its calls say. -/
theorem observed_after (past : List Operation) (pid : UInt8) :
    (after past).observed pid =
      (addedWith pid past).map fun interval => (interval, (answeredLast pid past).getD (-1)) := by
  -- Induction on the history from its end: the last call changes both sides alike.
  induction past using List.reverseRecOn with
  | nil => rfl
  | append_singleton past op ih =>
    rw [after_concat, addedWith_concat, answeredLast_concat]
    cases op with
    | clear => rfl
    | add other interval =>
      rw [apply, observed_add, ih]
      -- Adding a parameter that is there already leaves what is known of it.
      cases addedWith pid past with
      | some first => rfl
      | none =>
        simp only [Operation.adds?, Operation.drops]
        split <;> rfl
    | remove other =>
      rw [apply, observed_remove, ih]
      by_cases own : other = pid
      · simp [own, Operation.drops]
      · cases addedWith pid past <;> simp [own, Ne.symm own, Operation.drops, Operation.adds?,
          Operation.answers?]
    | markRequested other now =>
      rw [apply, observed_markRequested, ih]
      cases addedWith pid past <;> rfl
    | markAnswered other now =>
      rw [apply, observed_markAnswered, ih]
      cases addedWith pid past with
      | none => rfl
      | some interval =>
        simp only [Operation.drops, Operation.answers?]
        split <;> rfl

/-- A parameter is scheduled exactly when its calls leave it added. -/
theorem find_after (past : List Operation) (pid : UInt8) :
    ((after past).find pid).isSome = (addedWith pid past).isSome := by
  rw [← observed_isSome, observed_after, Option.isSome_map]

/-- The count of unanswered requests is the one the calls give. -/
theorem unanswered_after (past : List Operation) :
    (after past).unanswered = requestedSince past := by
  -- Again from the end; only calls for scheduled parameters touch the count.
  induction past using List.reverseRecOn with
  | nil => rfl
  | append_singleton past op ih =>
    rw [after_concat, requestedSince_concat]
    cases op with
    | clear => rfl
    | add other interval => exact (unanswered_add ..).trans ih
    | remove other => exact ih
    | markRequested other now =>
      have there := find_after past other
      simp only [apply, markRequested, restarts, counts, Operation.marks?, Option.any_some, ← there]
      cases (after past).find other with
      | some it => simpa using ih
      | none => simpa using ih
    | markAnswered other now =>
      have there := find_after past other
      simp only [apply, markAnswered, restarts, counts, Operation.marks?, Option.any_some, ← there]
      cases (after past).find other with
      | some it => rfl
      | none => simpa using ih

/-- An answer is told at a time that does not go below zero. -/
theorem answeredLast_nonneg {past : List Operation} (proper : ∀ op ∈ past, op.Proper) {pid : UInt8}
    {time : ℤ} (answered : answeredLast pid past = some time) : 0 ≤ time := by
  -- The time is that of some call of the history.
  obtain ⟨op, member, told⟩ := List.mem_filterMap.mp (List.mem_of_getLast? answered)
  have member := (List.dropWhile_sublist _).mem member
  have member := (Run.since_suffix _ _).mem member
  cases op with
  | markAnswered other now =>
    simp only [Operation.answers?, Option.ite_none_right_eq_some, Option.some_inj] at told
    rw [← told.2]
    exact proper _ member
  | _ => cases told

/-- A parameter is fresh when it answered since it was added, at most three intervals ago. -/
theorem fresh_after {past : List Operation} (proper : ∀ op ∈ past, op.Proper) (pid : UInt8) (now : ℤ) :
    (after past).fresh pid now = true ↔ ∃ interval time, addedWith pid past = some interval ∧
      answeredLast pid past = some time ∧ now - time ≤ 3 * interval := by
  -- The stored answer time is negative exactly while there was no answer.
  have seen := observed_after past pid
  rw [fresh_iff]
  constructor
  · rintro ⟨it, found, answered, recent⟩
    rw [observed, found, Option.map_some] at seen
    obtain ⟨interval, added, same⟩ := Option.map_eq_some_iff.mp seen.symm
    obtain ⟨rfl, latest⟩ := Prod.mk.inj same
    cases told : answeredLast pid past with
    | none =>
      rw [told, Option.getD_none] at latest
      omega
    | some time =>
      rw [told, Option.getD_some] at latest
      exact ⟨it.interval, time, added, rfl, latest ▸ recent⟩
  · rintro ⟨interval, time, added, told, recent⟩
    rw [added, told, Option.map_some, Option.getD_some] at seen
    obtain ⟨it, found, same⟩ := Option.map_eq_some_iff.mp seen
    obtain ⟨rfl, rfl⟩ := Prod.mk.inj same
    exact ⟨it, found, answeredLast_nonneg proper told, recent⟩

/-- Calls for a parameter that is not scheduled change nothing. -/
theorem absent_calls {p : Poller} {pid : UInt8} (absent : p.find pid = none) (now : ℤ) :
    p.remove pid = p ∧ p.markRequested pid now = p ∧ p.markAnswered pid now = p := by
  refine ⟨?_, ?_, ?_⟩
  · -- Nothing is erased where no item passes the test.
    have kept : p.items.eraseP (·.pid = pid) = p.items :=
      List.eraseP_of_forall_not (List.find?_eq_none.mp absent)
    unfold remove
    congr
  · unfold markRequested
    rw [absent]
  · unfold markAnswered
    rw [absent]

/-- A second add of a parameter changes nothing. -/
theorem duplicate_add {p : Poller} {pid : UInt8} (listed : (p.find pid).isSome = true)
    (intervalMs : ℤ) : p.add pid intervalMs = p := by
  unfold add
  split
  · rfl
  next absent =>
    rw [absent] at listed
    cases listed

/--
After every history of calls the scheduler shows what the calls themselves say: each parameter at
most once, and exactly those that are added; fresh is what answered recently since it was added; the
streak counts the requests since the last answer. Calls without an object change nothing.
-/
theorem after_agrees_with_calls (past : List Operation) (proper : ∀ op ∈ past, op.Proper) :
    ((after past).items.map (·.pid)).Nodup ∧
    (∀ pid, pid ∈ (after past).items.map (·.pid) ↔ (addedWith pid past).isSome = true) ∧
    (∀ pid now, (after past).fresh pid now = true ↔ ∃ interval time,
      addedWith pid past = some interval ∧ answeredLast pid past = some time ∧
        now - time ≤ 3 * interval) ∧
    (after past).unansweredStreak = requestedSince past ∧
    (∀ pid now, addedWith pid past = none →
      after (past ++ [.remove pid]) = after past ∧
      after (past ++ [.markRequested pid now]) = after past ∧
      after (past ++ [.markAnswered pid now]) = after past) ∧
    ∀ pid intervalMs, (addedWith pid past).isSome = true →
      after (past ++ [.add pid intervalMs]) = after past := by
  refine ⟨(after past).distinct, ?_, fresh_after proper, unanswered_after past, ?_, ?_⟩
  · intro pid
    rw [← find_after, find, List.find?_isSome, List.mem_map]
    simp
  · intro pid now missing
    have absent : (after past).find pid = none := by
      rw [← Option.isNone_iff_eq_none, ← Option.not_isSome, find_after, missing]
      rfl
    simp only [after_concat]
    exact absent_calls absent now
  · intro pid intervalMs there
    rw [after_concat]
    exact duplicate_add ((find_after past pid).trans there) intervalMs

/-- A parameter that is dropped and added again is as new, whatever it answered before. -/
theorem after_agrees_with_calls_again :
    let past : List Operation := [.add 12 100, .markAnswered 12 40, .remove 12, .markAnswered 12 50,
      .add 12 200, .markRequested 12 60]
    (after past).fresh 12 60 = false ∧ (after past).unansweredStreak = 1 := by
  intro past
  have proper : ∀ op ∈ past, op.Proper := by simp [past, Operation.Proper]
  obtain ⟨-, -, fresh, streak, -⟩ := after_agrees_with_calls past proper
  refine ⟨?_, streak.trans (by decide)⟩
  rw [← Bool.not_eq_true, fresh]
  have silent : answeredLast 12 past = none := by decide
  simp [silent]

end CanProxy.Poller
