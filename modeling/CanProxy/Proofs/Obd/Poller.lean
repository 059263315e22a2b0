import CanProxy.Lib.Selection
import CanProxy.Obd.Poller

/-! What each operation of the scheduler makes of the item of a parameter. -/

namespace CanProxy.Poller

/-- A found item is listed under the parameter asked for. -/
theorem find_some {p : Poller} {pid : UInt8} {it : PollItem} (found : p.find pid = some it) :
    it ∈ p.items ∧ it.pid = pid :=
  -- The search returns a listed item that passes its test.
  ⟨List.mem_of_find?_eq_some found, by simpa using List.find?_some found⟩

/-- A listed item is found. -/
theorem find_of_mem {p : Poller} {it : PollItem} (member : it ∈ p.items) : p.find it.pid = some it := by
  cases found : p.find it.pid with
  | none => exact absurd (List.mem_map_of_mem member) (not_mem_of_find_none found)
  | some other =>
    -- Two items under one parameter are the same item.
    obtain ⟨listed, named⟩ := find_some found
    rw [List.inj_on_of_nodup_map p.distinct listed member named]

/-- Adding schedules a parameter only where there was none. -/
theorem find_add (p : Poller) (pid : UInt8) (intervalMs : ℤ) (other : UInt8) :
    (p.add pid intervalMs).find other =
      (p.find other).or (if pid = other then some ⟨pid, intervalMs, 0, -1⟩ else none) := by
  -- A parameter that is scheduled already keeps its item; a new one goes to the end of the list.
  unfold add
  split
  next it found =>
    by_cases same : pid = other
    · subst same
      rw [found]
      rfl
    · rw [if_neg same, Option.or_none]
  next => simp [find, List.find?_append, List.find?_singleton]

/-- An item found after adding was there before, or is the one added. -/
theorem find_add_some {p : Poller} {pid other : UInt8} {intervalMs : ℤ} {it : PollItem}
    (found : (p.add pid intervalMs).find other = some it) :
    p.find other = some it ∨ other = pid ∧ it = ⟨pid, intervalMs, 0, -1⟩ := by
  -- Only a parameter without an item can be the one added.
  rw [find_add] at found
  cases before : p.find other with
  | some old =>
    rw [before, Option.some_or] at found
    exact .inl found
  | none =>
    rw [before, Option.none_or] at found
    split at found
    next same => exact .inr ⟨same.symm, (Option.some.inj found).symm⟩
    · cases found

theorem find_modify (p : Poller) (pid : UInt8) (change : PollItem → PollItem)
    (keeps : ∀ it, (change it).pid = it.pid) (other : UInt8) :
    (p.modify pid change keeps).find other =
      (p.find other).map fun it => if it.pid = pid then change it else it := by
  -- The change keeps the parameter, so the search meets the same items as before.
  have same (it : PollItem) : (if it.pid = pid then change it else it).pid = it.pid := by
    split
    · exact keeps it
    · rfl
  unfold find modify
  rw [List.find?_map]
  congr 2
  funext it
  simp only [Function.comp_apply, same]

/-- Changing the item of a parameter that is not scheduled changes nothing. -/
theorem find_unlisted {p : Poller} {pid : UInt8} (absent : p.find pid = none)
    (change : PollItem → PollItem) (other : UInt8) :
    p.find other = (p.find other).map fun it => if it.pid = pid then change it else it := by
  -- Every listed item is found under its own parameter, so none is under the absent one.
  cases found : p.find other with
  | none => rfl
  | some it =>
    have different : it.pid ≠ pid := by
      rintro rfl
      rw [find_of_mem (find_some found).1] at absent
      cases absent
    rw [Option.map_some, if_neg different]

/-- A request moves the deadline of its own parameter only. -/
theorem find_markRequested (p : Poller) (pid : UInt8) (now : ℤ) (other : UInt8) :
    (p.markRequested pid now).find other =
      (p.find other).map fun it => if it.pid = pid then { it with due := now + it.interval } else it := by
  -- The count of unanswered requests is no part of any item.
  unfold markRequested
  split
  · exact find_modify p pid (fun it => { it with due := now + it.interval }) (fun _ => rfl) other
  next absent => exact find_unlisted absent _ other

/-- An item found after a request was there before, but for its deadline. -/
theorem find_markRequested_some {p : Poller} {pid other : UInt8} {now : ℤ} {it : PollItem}
    (found : (p.markRequested pid now).find other = some it) :
    ∃ old, p.find other = some old ∧ it.interval = old.interval ∧ it.lastAnswer = old.lastAnswer := by
  rw [find_markRequested] at found
  obtain ⟨old, before, rfl⟩ := Option.map_eq_some_iff.mp found
  refine ⟨old, before, ?_⟩
  split <;> exact ⟨rfl, rfl⟩

/-- A request leaves the other parameters alone. -/
theorem find_markRequested_ne (p : Poller) {pid other : UInt8} (now : ℤ) (different : other ≠ pid) :
    (p.markRequested pid now).find other = p.find other := by
  -- Another parameter's item fails the test of the change.
  rw [find_markRequested]
  cases found : p.find other with
  | none => rfl
  | some it => rw [Option.map_some, if_neg ((find_some found).2.trans_ne different)]

/-- A request makes its own parameter due one interval later. -/
theorem find_markRequested_self {p : Poller} {it : PollItem} (found : p.find it.pid = some it)
    (now : ℤ) :
    (p.markRequested it.pid now).find it.pid = some { it with due := now + it.interval } := by
  rw [find_markRequested, found, Option.map_some, if_pos rfl]

/-- An answer sets the answer time of its own parameter only. -/
theorem find_markAnswered (p : Poller) (pid : UInt8) (now : ℤ) (other : UInt8) :
    (p.markAnswered pid now).find other =
      (p.find other).map fun it => if it.pid = pid then { it with lastAnswer := now } else it := by
  -- An unknown parameter has no item to change.
  unfold markAnswered
  split
  · exact find_modify p pid (fun it => { it with lastAnswer := now }) (fun _ => rfl) other
  next absent => exact find_unlisted absent _ other

/-- An answer leaves the other parameters alone. -/
theorem find_markAnswered_ne (p : Poller) {pid other : UInt8} (now : ℤ) (different : other ≠ pid) :
    (p.markAnswered pid now).find other = p.find other := by
  -- Another parameter's item fails the test of the change.
  rw [find_markAnswered]
  cases found : p.find other with
  | none => rfl
  | some it => rw [Option.map_some, if_neg ((find_some found).2.trans_ne different)]

/-- Dropping a parameter takes its item away and leaves the others alone. -/
theorem find_remove (p : Poller) (pid other : UInt8) :
    (p.remove pid).find other = if other = pid then none else p.find other := by
  -- Erasing takes the first item of the parameter, after which there is no second one.
  have distinct := p.distinct
  change (p.items.eraseP (·.pid = pid)).find? (·.pid = other) =
    if other = pid then none else p.items.find? (·.pid = other)
  generalize p.items = items at distinct ⊢
  induction items with
  | nil => simp
  | cons it rest ih =>
    obtain ⟨absent, distinct⟩ := List.nodup_cons.mp distinct
    by_cases own : it.pid = pid
    · rw [List.eraseP_cons_of_pos (by simpa using own)]
      split
      next same =>
        refine List.find?_eq_none.mpr fun again member => ?_
        have := List.mem_map_of_mem (f := (·.pid)) member
        simp only [decide_eq_true_eq]
        rintro found
        rw [found, same, ← own] at this
        exact absent this
      next different =>
        rw [List.find?_cons_of_neg]
        simpa using fun same => different (same.symm.trans own)
    · rw [List.eraseP_cons_of_neg (by simpa using own)]
      by_cases wanted : it.pid = other
      · have different : other ≠ pid := fun same => own (wanted.trans same)
        rw [if_neg different, List.find?_cons_of_pos (by simpa using wanted),
          List.find?_cons_of_pos (by simpa using wanted)]
      · rw [List.find?_cons_of_neg (by simpa using wanted), List.find?_cons_of_neg (by simpa using wanted)]
        exact ih distinct

/-- Scheduling a parameter counts no request. -/
theorem unanswered_add (p : Poller) (pid : UInt8) (intervalMs : ℤ) :
    (p.add pid intervalMs).unanswered = p.unanswered := by
  unfold add
  split <;> rfl

/-- A request for a scheduled parameter is counted. -/
theorem unanswered_markRequested {p : Poller} {pid : UInt8} {it : PollItem}
    (listed : p.find pid = some it) (now : ℤ) :
    (p.markRequested pid now).unanswered = p.unanswered + 1 := by
  unfold markRequested
  split
  · rfl
  next absent =>
    rw [listed] at absent
    cases absent

/-- An answer from a scheduled parameter starts the count over. -/
theorem unanswered_markAnswered {p : Poller} {pid : UInt8} {it : PollItem}
    (listed : p.find pid = some it) (now : ℤ) : (p.markAnswered pid now).unanswered = 0 := by
  unfold markAnswered
  split
  · rfl
  next absent =>
    rw [listed] at absent
    cases absent

/-- A parameter is fresh when its item's last answer is recent. -/
theorem fresh_iff (p : Poller) (pid : UInt8) (now : ℤ) :
    p.fresh pid now = true ↔ ∃ it, p.find pid = some it ∧ 0 ≤ it.lastAnswer ∧
      now - it.lastAnswer ≤ 3 * it.interval := by
  -- Without an item there is nothing to be fresh.
  unfold fresh
  cases p.find pid <;> simp

/-- The comparison of the search: the first item is later, in its own intervals, than the second. -/
def Later (now : ℤ) (a b : PollItem) : Prop :=
  (now - a.due) * b.interval > (now - b.due) * a.interval

instance (now : ℤ) : DecidableRel (Later now) := fun a b =>
  inferInstanceAs (Decidable ((now - a.due) * b.interval > (now - b.due) * a.interval))

/-- The search is one scan for the latest item among those that are due. -/
theorem nextDue_eq_best (p : Poller) (now : ℤ) :
    p.nextDue now = (Selection.best (fun it => ¬now < it.due) (Later now) p.items).map (·.pid) := by
  -- The code skips what is not due, where the scan keeps what is.
  have step : moreOverdue now = Selection.keep (fun it => ¬now < it.due) (Later now) := by
    funext best it
    unfold moreOverdue Selection.keep
    rw [ite_not]
    cases best <;> rfl
  rw [nextDue, step]
  rfl

/-- The parameter chosen next is scheduled, and its deadline has come. -/
theorem nextDue_some {p : Poller} {now : ℤ} {pid : UInt8} (chosen : p.nextDue now = some pid) :
    ∃ it, p.find pid = some it ∧ it.due ≤ now := by
  -- The scan only ever keeps listed items that are due.
  rw [nextDue_eq_best] at chosen
  obtain ⟨it, found, rfl⟩ := Option.map_eq_some_iff.mp chosen
  obtain ⟨member, reached⟩ := Selection.best_mem found
  exact ⟨it, find_of_mem member, not_lt.mp reached⟩

end CanProxy.Poller
