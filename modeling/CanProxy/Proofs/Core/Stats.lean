import CanProxy.Core.Stats
import CanProxy.Proofs.Core.Counter
import Mathlib.Data.List.Chain

/-! The timing check of the tool is exact, and a daemon whose thread wakes up in time passes it. -/

namespace CanProxy

open Numeric

section Watch

variable {received : List Received} {f : Received} {id : UInt32}

/-- When the frames of an identifier were read. -/
def timesOf (id : UInt32) (received : List Received) : List ℤ :=
  (received.filter (·.id = id)).map Received.t

/-- The counters of the heartbeats that were read. -/
def beatsOf (received : List Received) : List UInt8 :=
  (received.filter (·.id = FrameId.status.code)).map fun f => getElem f.data 2 Place.eight2

/-- Two frames in a row are at most so many milliseconds off their cycle. -/
def Near (id : UInt32) (jitter : ℚ) (a b : ℤ) : Prop := |((b : ℚ) - a) / 1000 - cycleMs id| ≤ jitter

theorem timesOf_concat : timesOf id (received ++ [f]) =
    if f.id = id then timesOf id received ++ [f.t] else timesOf id received := by
  by_cases own : f.id = id <;> simp [timesOf, own]

theorem beatsOf_concat : beatsOf (received ++ [f]) =
    if f.id = FrameId.status.code then beatsOf received ++ [getElem f.data 2 Place.eight2]
    else beatsOf received := by
  by_cases own : f.id = FrameId.status.code <;> simp [beatsOf, own]

/-- What is measured for an identifier is what there is to measure in the times of its frames. -/
structure Stat.Measures (s : Stat) (id : UInt32) (times : List ℤ) : Prop where
  count : s.count = times.length
  last : ∀ t ∈ times.getLast?, s.last = t
  span : s.sumInterval = ((times.getLast?.getD 0 : ℚ) - times.head?.getD 0) / 1000
  nonneg : 0 ≤ s.worstDev
  worst : ∀ jitter, 0 ≤ jitter → (s.worstDev ≤ jitter ↔ times.IsChain (Near id jitter))

theorem Stat.measures_zero (id : UInt32) : Stat.zero.Measures id [] :=
  ⟨rfl, nofun, by simp [Stat.zero], le_refl _, fun _ nonneg => iff_of_true nonneg .nil⟩

/-- One more frame adds its own interval. -/
theorem Stat.Measures.see {s : Stat} {times : List ℤ} (measures : s.Measures id times) (t : ℤ) :
    (s.see id t).Measures id (times ++ [t]) := by
  obtain ⟨count, last, span, nonneg, worst⟩ := measures
  cases previous : times.getLast? with
  | none =>
    -- The first frame only starts the first interval.
    obtain rfl := List.getLast?_eq_none_iff.mp previous
    have fresh : ¬s.count > 0 := by simp [count]
    have none : s.worstDev ≤ 0 := (worst 0 le_rfl).mpr .nil
    rw [Stat.see, if_neg fresh, List.nil_append]
    refine ⟨by simp [count], by simp, by simpa using span, nonneg, fun jitter positive => ?_⟩
    exact iff_of_true (none.trans positive) (.singleton _)
  | some before =>
    have seen : s.count > 0 := by
      rw [count]
      exact List.length_pos_of_mem (List.mem_of_getLast? previous)
    have head : (times ++ [t]).head? = times.head? :=
      List.head?_append_of_ne_nil _ (List.ne_nil_of_mem (List.mem_of_getLast? previous))
    obtain rfl := last before previous
    rw [Stat.see, if_pos seen]
    refine ⟨by simp [count], by simp, ?_, ?_, fun jitter positive => ?_⟩
    · -- The intervals add up to the time from the first frame on.
      rw [List.getLast?_concat, head, span, previous]
      simp only [Option.getD_some]
      ring
    · dsimp only
      split
      · exact abs_nonneg _
      · exact nonneg
    · have near : times.IsChain (Near id jitter) ∧ Near id jitter s.last t ↔
          (times ++ [t]).IsChain (Near id jitter) := by
        rw [List.isChain_append, previous]
        simp
      rw [← near, ← worst jitter positive, Near]
      dsimp only
      split
      next more => exact ⟨fun least => ⟨more.le.trans least, least⟩, And.right⟩
      next less => exact ⟨fun most => ⟨most, (not_lt.mp less).trans most⟩, And.left⟩

/-- Consecutive numbers stay so with the next one only. -/
theorem consecutive_concat (numbers : List UInt8) (number : UInt8) :
    Consecutive (numbers ++ [number]) ↔
      Consecutive numbers ∧ ∀ before ∈ numbers.getLast?, number = before + 1 := by
  -- Only the last number has a new neighbour.
  rw [Consecutive, List.isChain_append]
  simp [Consecutive]

/-- What the tool knows of the rolling counter, and that it counts no skip in consecutive numbers only. -/
structure CounterCheck.Follows (check : CounterCheck) (numbers : List UInt8) : Prop where
  last : check.lastCounter = (numbers.getLast?.map fun number => (number.toNat : ℤ)).getD (-1)
  skips : check.counterSkips = 0 ↔ Consecutive numbers

/-- One more heartbeat is checked against the one before. -/
theorem CounterCheck.Follows.see {check : CounterCheck} {numbers : List UInt8}
    (follows : check.Follows numbers) (time : ℤ) (data : FrameData) :
    (check.see ⟨time, .status, data⟩).Follows (numbers ++ [getElem data 2 Place.eight2]) := by
  obtain ⟨last, skips⟩ := follows
  rw [CounterCheck.see, if_pos rfl]
  refine ⟨by simp, ?_⟩
  rw [consecutive_concat, ← skips]
  -- The first counter is compared with nothing.
  cases previous : numbers.getLast? with
  | none =>
    rw [previous] at last
    simp [last]
  | some before =>
    rw [previous] at last
    simp only [Option.map_some, Option.getD_some] at last
    have expected : UInt8.ofInt (check.lastCounter + 1) = before + 1 := by rw [last, ofInt_succ]
    have known : check.lastCounter ≥ 0 := by omega
    by_cases next : getElem data 2 Place.eight2 = before + 1 <;> simp [expected, known, next]

/-- After some frames, the tool has measured their times and checked their counters. -/
structure Watch.Tells (w : Watch) (received : List Received) : Prop where
  seen : ∀ id, id ∈ w.ids ↔ ∃ f ∈ received, f.id = id
  measures : ∀ id, (w.stats id).Measures id (timesOf id received)
  check : w.check.Follows (beatsOf received)

/-- One more frame is measured under its own identifier. -/
theorem Watch.Tells.see {w : Watch} (tells : w.Tells received) (f : Received) :
    (w.see f).Tells (received ++ [f]) := by
  refine ⟨fun id => ?_, fun id => ?_, ?_⟩
  · have added : id ∈ (w.see f).ids ↔ id ∈ w.ids ∨ id = f.id := by
      rw [Watch.see]
      dsimp only
      split
      next known =>
        have member : f.id ∈ w.ids := by simpa using known
        exact ⟨.inl, fun either => either.elim (fun before => before) fun same => same ▸ member⟩
      next => simp
    rw [added, tells.seen]
    simp [or_and_right, exists_or, eq_comm]
  · rw [timesOf_concat, Watch.see]
    dsimp only
    split
    next own =>
      subst own
      rw [Function.update_self]
      exact (tells.measures f.id).see f.t
    next other =>
      rw [Function.update_of_ne (Ne.symm other)]
      exact tells.measures id
  · rw [beatsOf_concat, Watch.see]
    dsimp only
    split
    · exact tells.check.see f.t f.data
    · exact tells.check

/-- The tool tells of all it has read. -/
theorem watch_tells (received : List Received) : (watch received).Tells received := by
  induction received using List.reverseRecOn with
  | nil =>
    exact ⟨fun id => by simp [watch, Watch.start], fun id => Stat.measures_zero id,
      ⟨rfl, iff_of_true rfl .nil⟩⟩
  | append_singleton received f ih =>
    rw [watch, List.foldl_concat, ← watch]
    exact ih.see f

/--
The check is exact, whatever is on the bus.

The tool exits with zero exactly when for every identifier, one that is not of the contract included,
no two frames in a row are further off its cycle than allowed, when every expected identifier was seen,
and when each heartbeat carries the number after the one before.
-/
theorem check_exact (c : Checks) (received : List Received) :
    c.rc (watch received) = 0 ↔
      (0 ≤ c.maxJitterMs → ∀ id, (timesOf id received).IsChain (Near id c.maxJitterMs)) ∧
      (∀ id ∈ c.expect, ∃ f ∈ received, f.id = id) ∧
      (c.requireCounter = true → Consecutive (beatsOf received)) := by
  obtain ⟨seen, measures, check⟩ := watch_tells received
  generalize watch received = w at *
  have jitter : (w.ids.any fun id => 0 ≤ c.maxJitterMs && c.maxJitterMs < (w.stats id).worstDev) = false ↔
      (0 ≤ c.maxJitterMs → ∀ id, (timesOf id received).IsChain (Near id c.maxJitterMs)) := by
    rw [List.any_eq_false]
    constructor
    · intro within positive id
      by_cases known : id ∈ w.ids
      · refine ((measures id).worst _ positive).mp (not_lt.mp fun more => within id known ?_)
        simp [positive, more]
      · -- An identifier that was not seen has no interval.
        have none : timesOf id received = [] := by
          rw [timesOf, List.map_eq_nil_iff, List.filter_eq_nil_iff]
          exact fun f member own => known ((seen id).mpr ⟨f, member, by simpa using own⟩)
        rw [none]
        exact .nil
    · intro chains id _ wrong
      obtain ⟨positive, more⟩ : 0 ≤ c.maxJitterMs ∧ c.maxJitterMs < (w.stats id).worstDev := by
        simpa using wrong
      exact absurd (((measures id).worst _ positive).mpr (chains positive id)) (not_le.mpr more)
  have expected : (c.expect.any fun id => !w.ids.contains id) = false ↔
      ∀ id ∈ c.expect, ∃ f ∈ received, f.id = id := by
    simp [seen]
  have counted : (c.requireCounter && w.check.counterSkips ≠ 0) = false ↔
      (c.requireCounter = true → Consecutive (beatsOf received)) := by
    rw [← check.skips]
    cases c.requireCounter <;> simp
  have passes : c.rc w = 0 ↔ ¬(w.ids.any (fun id => 0 ≤ c.maxJitterMs && c.maxJitterMs < (w.stats id).worstDev) ||
      c.expect.any (fun id => !w.ids.contains id) || c.requireCounter && w.check.counterSkips ≠ 0) = true := by
    rw [Checks.rc]
    split
    next fails => exact iff_of_false Nat.one_ne_zero (not_not.mpr fails)
    next passes => exact iff_of_true rfl passes
  rw [passes, Bool.not_eq_true, Bool.or_eq_false_iff, Bool.or_eq_false_iff, and_assoc, jitter, expected, counted]

end Watch

end CanProxy
