import CanProxy.Lib.Run
import CanProxy.Proofs.Obd.Poller
import Mathlib.Tactic.Linarith

/-! A parameter that waits is overtaken by a faster one at growing lateness only, and by others once. -/

namespace CanProxy.Poller

/-- Being no later carries on, as lateness in intervals is a number. -/
theorem not_later_trans {now : ℤ} {a b c : PollItem} (positive : 0 < b.interval)
    (aPositive : 0 < a.interval) (cPositive : 0 < c.interval) (first : ¬Later now a b)
    (second : ¬Later now b c) : ¬Later now a c := by
  -- Both comparisons are scaled to a common denominator, and the middle interval is cancelled.
  unfold Later at first second ⊢
  rw [gt_iff_lt, not_lt] at first second ⊢
  refine le_of_mul_le_mul_right ?_ positive
  calc (now - a.due) * c.interval * b.interval = (now - a.due) * b.interval * c.interval := by ring
    _ ≤ (now - b.due) * a.interval * c.interval := mul_le_mul_of_nonneg_right first cPositive.le
    _ = (now - b.due) * c.interval * a.interval := by ring
    _ ≤ (now - c.due) * b.interval * a.interval := mul_le_mul_of_nonneg_right second aPositive.le
    _ = (now - c.due) * a.interval * b.interval := by ring

/-- Every scheduled interval is positive. -/
def Positive (p : Poller) : Prop := ∀ it ∈ p.items, 0 < it.interval

/-- The parameter asked for is due, and no due one is later than it in its own intervals. -/
theorem nextDue_latest {p : Poller} (positive : p.Positive) {now : ℤ} {pid : UInt8}
    (chosen : p.nextDue now = some pid) :
    ∃ it, p.find pid = some it ∧ it.due ≤ now ∧
      ∀ other ∈ p.items, other.due ≤ now →
        (now - other.due) * it.interval ≤ (now - it.due) * other.interval := by
  rw [nextDue_eq_best] at chosen
  obtain ⟨it, found, rfl⟩ := Option.map_eq_some_iff.mp chosen
  obtain ⟨member, reached⟩ := Selection.best_mem found
  refine ⟨it, find_of_mem member, not_lt.mp reached, fun other listed due => ?_⟩
  -- The scan's rule asks for the three laws of the comparison, and the last one needs the intervals.
  have irreflexive (a : PollItem) : ¬Later now a a := lt_irrefl _
  have asymmetric (a b : PollItem) (later : Later now a b) : ¬Later now b a := lt_asymm later
  exact not_lt.mp (Selection.best_unbeaten irreflexive asymmetric
    (fun a ha b hb c hc => not_later_trans (positive b hb) (positive a ha) (positive c hc)) found
    other listed (not_lt.mpr due))

/-- A look at the schedule asks for nothing, or for the latest of the due parameters. -/
theorem serve_cases {p : Poller} (positive : p.Positive) (now : ℤ) :
    p.serve now = (p, []) ∨
      ∃ it, p.find it.pid = some it ∧
        (∀ other ∈ p.items, other.due ≤ now →
          (now - other.due) * it.interval ≤ (now - it.due) * other.interval) ∧
        p.serve now = (p.markRequested it.pid now, [⟨now, it.pid⟩]) := by
  unfold serve
  cases chosen : p.nextDue now with
  | none => exact .inl rfl
  | some pid =>
    obtain ⟨it, found, _, latest⟩ := nextDue_latest positive chosen
    obtain rfl := (find_some found).2
    exact .inr ⟨it, found, latest, rfl⟩

/-- A request keeps every interval positive. -/
theorem Positive.markRequested {p : Poller} (positive : p.Positive) (pid : UInt8) (now : ℤ) :
    (p.markRequested pid now).Positive := by
  -- A request moves a deadline and leaves the interval alone.
  intro it member
  have found := find_of_mem member
  rw [find_markRequested] at found
  obtain ⟨before, same, rfl⟩ := Option.map_eq_some_iff.mp found
  have kept := positive before (find_some same).1
  split <;> exact kept

/--
One overtaking costs the waiting parameter lateness.

The overtaking parameter was asked for at one lateness and then, an interval or more later, again.
-/
theorem overtake_step {late late' slow fast : ℤ} (slowPositive : 0 < slow) (fastPositive : 0 < fast)
    (nonneg : 0 ≤ late) (nonneg' : 0 ≤ late')
    (beaten : late' * fast ≤ (late' - late - fast) * slow) :
    fast < slow ∧ slow * (late + slow) ≤ (late' + slow) * (slow - fast) := by
  constructor
  · -- With the longer interval its lateness in intervals would be the smaller of the two.
    by_contra longer
    have scaled : late' * slow ≤ late' * fast :=
      mul_le_mul_of_nonneg_left (not_lt.mp longer) nonneg'
    have positive : 0 < (late + fast) * slow := mul_pos (by linarith) slowPositive
    linarith
  · linarith

/-- The requests for one parameter made while another is due. -/
def overtakes (passing waiting : PollItem) (requests : List Request) : List Request :=
  requests.filter fun r => r.pid = passing.pid ∧ waiting.due ≤ r.time

/--
The lateness at which the last of some overtakings happened, as a bound in the two intervals.

Only a faster parameter overtakes more than once, and each time the lateness has grown by a ratio.
-/
structure Overtaken (waiting passing : PollItem) (earlier : List Request) (last : Request) : Prop where
  late : waiting.due ≤ last.time
  once : waiting.interval ≤ passing.interval → earlier = []
  grown : passing.interval < waiting.interval →
    waiting.interval ^ (earlier.length + 1) ≤
      (last.time - waiting.due + waiting.interval) *
        (waiting.interval - passing.interval) ^ earlier.length

/-- A first overtaking happens at any lateness. -/
theorem Overtaken.first {waiting passing : PollItem} {request : Request}
    (late : waiting.due ≤ request.time) : Overtaken waiting passing [] request where
  late := late
  once _ := rfl
  grown _ := by
    rw [List.length_nil, pow_zero, mul_one, zero_add, pow_one]
    linarith

/-- A further overtaking, with the waiting parameter still no later in its intervals, adds to it. -/
theorem Overtaken.next {waiting passing : PollItem} {earlier : List Request}
    {last request : Request} (overtaken : Overtaken waiting passing earlier last)
    (slowPositive : 0 < waiting.interval) (fastPositive : 0 < passing.interval)
    (ordered : last.time ≤ request.time)
    (latest : (request.time - waiting.due) * passing.interval ≤
      (request.time - (last.time + passing.interval)) * waiting.interval) :
    Overtaken waiting passing (earlier ++ [last]) request := by
  have late := overtaken.late
  have beaten : (request.time - waiting.due) * passing.interval ≤
      (request.time - waiting.due - (last.time - waiting.due) - passing.interval) *
        waiting.interval := by
    have split : request.time - waiting.due - (last.time - waiting.due) - passing.interval =
        request.time - (last.time + passing.interval) := by ring
    rwa [split]
  obtain ⟨faster, cost⟩ := overtake_step slowPositive fastPositive (by linarith) (by linarith) beaten
  refine ⟨late.trans ordered, fun slower => absurd faster (not_lt.mpr slower), fun _ => ?_⟩
  rw [List.length_append, List.length_singleton]
  exact Selection.geometric_step slowPositive.le (by linarith) cost (overtaken.grown faster)

/-- What the requests made so far say about a parameter that waits and one that passes it. -/
structure Waits (waiting passing : PollItem) (times : List ℤ) (requests : List Request)
    (p : Poller) : Prop where
  positive : p.Positive
  waits : p.find waiting.pid = some waiting
  timed : ∀ r ∈ requests, r.time ∈ times
  passes : ∃ it, p.find passing.pid = some it ∧ it.interval = passing.interval ∧
    ∀ earlier last, overtakes passing waiting requests = earlier ++ [last] →
      it.due = last.time + passing.interval ∧ Overtaken waiting passing earlier last

/-- A request for another parameter, or before the waiting one was due, overtakes nothing. -/
theorem overtakes_concat_of_not {passing waiting : PollItem} {requests : List Request}
    {request : Request} (other : ¬(request.pid = passing.pid ∧ waiting.due ≤ request.time)) :
    overtakes passing waiting (requests ++ [request]) = overtakes passing waiting requests := by
  simp [overtakes, List.filter_append, other]

theorem overtakes_concat {passing waiting : PollItem} {requests : List Request} {request : Request}
    (named : request.pid = passing.pid) (late : waiting.due ≤ request.time) :
    overtakes passing waiting (requests ++ [request]) =
      overtakes passing waiting requests ++ [request] := by
  simp [overtakes, List.filter_append, named, late]

/-- One more look at the schedule, not before the earlier ones, keeps what is known. -/
theorem Waits.step {waiting passing : PollItem} {times : List ℤ} {requests : List Request}
    {p : Poller} (waits : Waits waiting passing times requests p) (now : ℤ)
    (ordered : ∀ t ∈ times, t ≤ now) (unserved : ∀ r ∈ (p.serve now).2, r.pid ≠ waiting.pid) :
    Waits waiting passing (times ++ [now]) (requests ++ (p.serve now).2) (p.serve now).1 := by
  obtain ⟨positive, stays, timed, it, found, same, known⟩ := waits
  have earlierTimed : ∀ r ∈ requests, r.time ∈ times ++ [now] := fun r member =>
    List.mem_append_left _ (timed r member)
  rcases serve_cases positive now with idle | ⟨chosen, listed, latest, served⟩
  · -- Nothing was due, so nothing changed.
    rw [idle, List.append_nil]
    exact ⟨positive, stays, earlierTimed, it, found, same, known⟩
  rw [served] at unserved ⊢
  have notWaiting : waiting.pid ≠ chosen.pid := (unserved _ (List.mem_singleton_self _)).symm
  have timedNow : ∀ r ∈ requests ++ [⟨now, chosen.pid⟩], r.time ∈ times ++ [now] := by
    intro r member
    rcases List.mem_append.mp member with earlier | new
    · exact earlierTimed r earlier
    · simp [List.mem_singleton.mp new]
  refine ⟨positive.markRequested _ _, ?_, timedNow, ?_⟩
  · rwa [find_markRequested_ne p now notWaiting]
  by_cases passes : chosen.pid = passing.pid
  · -- The passing parameter was asked for, and is due again one interval later.
    obtain rfl : chosen = it := by
      rw [passes, found] at listed
      exact (Option.some.inj listed).symm
    refine ⟨{ chosen with due := now + chosen.interval }, ?_, same, fun earlier last split => ?_⟩
    · rw [← passes]
      exact find_markRequested_self listed now
    by_cases late : waiting.due ≤ now
    · rw [overtakes_concat passes late] at split
      obtain ⟨rfl, single⟩ := List.append_inj' split rfl
      obtain rfl := List.singleton_inj.mp single
      refine ⟨by rw [same], ?_⟩
      rcases List.eq_nil_or_concat (overtakes passing waiting requests) with none | ⟨before, prior, some⟩
      · rw [none]
        exact .first late
      · -- It was asked for before, so its deadline was an interval after that.
        rw [List.concat_eq_append] at some
        obtain ⟨due, overtaken⟩ := known before prior some
        have member : prior ∈ requests := List.mem_of_mem_filter
          (some ▸ List.mem_append_right before (List.mem_singleton_self prior))
        have against := latest waiting (find_some stays).1 late
        rw [same, due] at against
        rw [some]
        exact overtaken.next (positive waiting (find_some stays).1)
          (same ▸ positive chosen (find_some found).1) (ordered _ (timed prior member)) against
    · -- The waiting parameter is not due yet, so no request so far overtook it.
      rw [overtakes_concat_of_not (by simp [late])] at split
      obtain ⟨_, overtaken⟩ := known earlier last split
      have member : last ∈ requests := List.mem_of_mem_filter
        (split ▸ List.mem_append_right earlier (List.mem_singleton_self last))
      exact absurd (overtaken.late.trans (ordered _ (timed last member))) late
  · -- Another parameter was asked for.
    refine ⟨it, ?_, same, fun earlier last split => ?_⟩
    · rwa [find_markRequested_ne p now (Ne.symm passes)]
    · rw [overtakes_concat_of_not (by simp [passes])] at split
      exact known earlier last split

/-- Looks at the schedule at non-decreasing times keep what is known, however many there are. -/
theorem Waits.run {waiting passing : PollItem} {p : Poller} {times : List ℤ} (positive : p.Positive)
    (waits : p.find waiting.pid = some waiting) (passes : p.find passing.pid = some passing)
    (ordered : times.Pairwise (· ≤ ·))
    (unserved : ∀ r ∈ Run.outputs serve p times, r.pid ≠ waiting.pid) :
    Waits waiting passing times (Run.outputs serve p times) (Run.final serve p times) := by
  -- Order and choice are assumed of the part of the run read so far, so each step can narrow them.
  refine Run.invariant serve (P := fun past requests p => past.Pairwise (· ≤ ·) →
    (∀ r ∈ requests, r.pid ≠ waiting.pid) → Waits waiting passing past requests p)
    (fun _ _ => ⟨positive, waits, by simp, passing, passes, rfl, by simp [overtakes]⟩) ?_
    ordered unserved
  intro past now _ ih ordered unserved
  rw [List.pairwise_append] at ordered
  have before := ih ordered.1 fun r member => unserved r (List.mem_append_left _ member)
  exact before.step now (fun t member => ordered.2.2 t member now (List.mem_singleton_self now))
    fun r member => unserved r (List.mem_append_right _ member)

/--
While a parameter waits, a slower or equal one is asked for at most once, and a faster one again only
at geometrically growing lateness.

The looks at the schedule happen at non-decreasing times and never choose the waiting parameter; the
requests counted are those for the passing one from the waiting one's deadline on.
-/
theorem overtaken_geometrically (p : Poller) (positive : p.Positive) (times : List ℤ)
    (ordered : times.Pairwise (· ≤ ·)) (waiting passing : PollItem) (waits : waiting ∈ p.items)
    (passes : passing ∈ p.items)
    (unserved : ∀ r ∈ Run.outputs serve p times, r.pid ≠ waiting.pid) (k : Nat)
    (earlier : List Request) (last : Request) (count : earlier.length = k)
    (overtaking : overtakes passing waiting (Run.outputs serve p times) = earlier ++ [last]) :
    (waiting.interval ≤ passing.interval → k = 0) ∧
      (passing.interval < waiting.interval →
        waiting.interval ^ (k + 1) ≤
          (last.time - waiting.due + waiting.interval) *
            (waiting.interval - passing.interval) ^ k) := by
  -- The invariant is carried from look to look, and its last field is the bound.
  have known := Waits.run positive (find_of_mem waits) (find_of_mem passes) ordered unserved
  obtain ⟨it, _, _, bound⟩ := known.passes
  obtain ⟨_, overtaken⟩ := bound earlier last overtaking
  subst count
  exact ⟨fun slower => by rw [overtaken.once slower, List.length_nil], overtaken.grown⟩

/-- Looked at three times late enough, a fast parameter passes a slow one each time, within the bound. -/
theorem overtaken_geometrically_thrice :
    Run.outputs serve ((empty.add 0x0D 100).add 0x05 1000) [100, 312, 600] =
        [⟨100, 0x0D⟩, ⟨312, 0x0D⟩] ++ [⟨600, 0x0D⟩] ∧
      (1000 : ℤ) ^ (2 + 1) ≤ (600 - 0 + 1000) * (1000 - 100) ^ 2 := by
  -- Only the run is evaluated; the bound comes from the general result.
  have served : Run.outputs serve ((empty.add 0x0D 100).add 0x05 1000) [100, 312, 600] =
      [⟨100, 0x0D⟩, ⟨312, 0x0D⟩] ++ [⟨600, 0x0D⟩] := by decide
  refine ⟨served, ?_⟩
  exact (overtaken_geometrically ((empty.add 0x0D 100).add 0x05 1000) (by unfold Positive; decide)
    [100, 312, 600] (by decide) ⟨0x05, 1000, 0, -1⟩ ⟨0x0D, 100, 0, -1⟩ (by decide) (by decide)
    (by rw [served]; decide) 2 [⟨100, 0x0D⟩, ⟨312, 0x0D⟩] ⟨600, 0x0D⟩ rfl
    (by rw [served]; decide)).2 (by decide)

end CanProxy.Poller
