import Mathlib.Data.Int.Notation
import Mathlib.Data.List.Nodup

/-!
Poll scheduling for a request and response source.

Each parameter has an interval, the scheduler says which is due next, and a value goes stale after
three missed intervals. Times are milliseconds of the caller's clock.
-/

namespace CanProxy

/-- The schedule of one parameter; a negative answer time means that there was no answer yet. -/
structure PollItem where
  pid : UInt8
  interval : ℤ
  due : ℤ
  lastAnswer : ℤ
deriving DecidableEq

/-- The scheduled parameters, each once, and the requests made since the last answer. -/
structure Poller where
  items : List PollItem
  unanswered : Nat
  distinct : (items.map (·.pid)).Nodup

namespace Poller

/-- A scheduler without parameters. -/
def empty : Poller := ⟨[], 0, List.nodup_nil⟩

/-- Forget every parameter. -/
def clear (_p : Poller) : Poller := empty

/-- The item of a parameter. -/
def find (p : Poller) (pid : UInt8) : Option PollItem := p.items.find? (·.pid = pid)

/-- A parameter that is not found is not listed. -/
theorem not_mem_of_find_none {p : Poller} {pid : UInt8} (absent : p.find pid = none) :
    pid ∉ p.items.map (·.pid) := by
  -- The search looks at every listed item.
  intro listed
  obtain ⟨it, member, rfl⟩ := List.mem_map.mp listed
  simpa using List.find?_eq_none.mp absent it member

/-- Schedule a parameter, due at once, unless it already is scheduled. -/
def add (p : Poller) (pid : UInt8) (intervalMs : ℤ) : Poller :=
  -- A second interval for a parameter that is scheduled already is ignored.
  match found : p.find pid with
  | some _ => p
  | none =>
    -- Due since time zero, so the first look asks for it at once.
    { p with
      items := p.items ++ [⟨pid, intervalMs, 0, -1⟩]
      distinct := by
        rw [List.map_append, List.nodup_append]
        refine ⟨p.distinct, List.nodup_singleton _, ?_⟩
        rintro a listed b single rfl
        obtain rfl : a = pid := by simpa using single
        exact not_mem_of_find_none found listed }

/-- Drop a parameter. -/
def remove (p : Poller) (pid : UInt8) : Poller :=
  { p with
    items := p.items.eraseP (·.pid = pid)
    distinct := p.distinct.sublist (List.eraseP_sublist.map _) }

/-- The step of the search: most overdue relative to its own interval wins, the earlier one on a tie. -/
def moreOverdue (now : ℤ) (best : Option PollItem) (it : PollItem) : Option PollItem :=
  -- The lateness is compared in intervals, cross-multiplied so that nothing is divided.
  if now < it.due then best
  else
    match best with
    | none => some it
    | some b => if (now - it.due) * b.interval > (now - b.due) * it.interval then some it else best

/-- The parameter whose request is most overdue, if any is due. -/
def nextDue (p : Poller) (now : ℤ) : Option UInt8 :=
  (p.items.foldl (moreOverdue now) none).map (·.pid)

/-- The earliest time any parameter becomes due, now if one already is or if there is none. -/
def nextDeadline (p : Poller) (now : ℤ) : ℤ :=
  -- A negative minimum stands for none so far, so a deadline before time zero would be passed over.
  let earliest := p.items.foldl (fun earliest it =>
    if earliest < 0 ∨ it.due < earliest then it.due else earliest) (-1)
  if earliest < 0 then now else if earliest < now then now else earliest

/-- Change the item of a parameter in place. -/
def modify (p : Poller) (pid : UInt8) (change : PollItem → PollItem)
    (keeps : ∀ it, (change it).pid = it.pid) : Poller :=
  { p with
    items := p.items.map fun it => if it.pid = pid then change it else it
    distinct := by
      have same : (fun it : PollItem => (if it.pid = pid then change it else it).pid) = (·.pid) := by
        funext it
        split
        · exact keeps it
        · rfl
      rw [List.map_map, show _ ∘ _ = _ from same]
      exact p.distinct }

/-- A request went out: the parameter is due an interval later, and the request counts as unanswered. -/
def markRequested (p : Poller) (pid : UInt8) (now : ℤ) : Poller :=
  -- An unknown parameter is not counted as unanswered either.
  match p.find pid with
  | some _ =>
    { p.modify pid (fun it => { it with due := now + it.interval }) fun _ => rfl with
      unanswered := p.unanswered + 1 }
  | none => p

/-- An answer came in. -/
def markAnswered (p : Poller) (pid : UInt8) (now : ℤ) : Poller :=
  -- One answer from any parameter ends the streak of all.
  match p.find pid with
  | some _ =>
    { p.modify pid (fun it => { it with lastAnswer := now }) fun _ => rfl with unanswered := 0 }
  | none => p

/-- The last answer of a parameter is at most three intervals old. -/
def fresh (p : Poller) (pid : UInt8) (now : ℤ) : Bool :=
  -- A parameter that never answered keeps a negative time, which no age makes fresh.
  match p.find pid with
  | some it => decide (0 ≤ it.lastAnswer ∧ now - it.lastAnswer ≤ 3 * it.interval)
  | none => false

/-- A request that went out: when, and for which parameter. -/
structure Request where
  time : ℤ
  pid : UInt8
deriving DecidableEq

/-- One look at the schedule: ask for whatever is most overdue, if anything is due. -/
def serve (p : Poller) (now : ℤ) : Poller × List Request :=
  match p.nextDue now with
  | some pid => (p.markRequested pid now, [⟨now, pid⟩])
  | none => (p, [])

/-- Requests without any answer, across all parameters, since the last answer. -/
def unansweredStreak (p : Poller) : Nat := p.unanswered

end Poller

end CanProxy
