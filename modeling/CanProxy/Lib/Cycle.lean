import Mathlib.Algebra.BigOperators.Fin
import Mathlib.Data.Int.ModEq
import Mathlib.Algebra.Order.BigOperators.Group.Finset
import Mathlib.Order.Interval.Finset.Fin
import Mathlib.Tactic.Ring

/-! Programs that go round in stages: where a walk of short steps stands after some time. -/

namespace Cycle

variable {n : Nat}

/-- A place in a cycle: a stage, and the time spent in it. -/
@[ext] structure Place (n : Nat) where
  stage : Fin n
  into : ℤ
deriving DecidableEq

variable (dur : Fin n → ℤ)

/-- The time from the start of the cycle to the start of a stage. -/
def start (i : Fin n) : ℤ := ∑ j ∈ Finset.Iio i, dur j

/-- The time the whole cycle takes. -/
def period : ℤ := ∑ j, dur j

/-- Spend some time more, which ends the stage at most once. -/
def advance [NeZero n] (p : Place n) (dt : ℤ) : Place n :=
  let into := p.into + dt
  if into ≥ dur p.stage then ⟨p.stage + 1, into - dur p.stage⟩ else ⟨p.stage, into⟩

/-- The place is the one that a program is at after some time. -/
structure At (time : ℤ) (p : Place n) : Prop where
  begun : 0 ≤ p.into
  unfinished : p.into < dur p.stage
  since : start dur p.stage + p.into ≡ time [ZMOD period dur]

/-- The stages up to the end of one take the time up to its start and its own. -/
theorem start_add_dur (i : Fin n) : start dur i + dur i = ∑ j ∈ Finset.Iic i, dur j := by
  rw [start, ← Finset.Iio_insert, Finset.sum_insert (by simp), add_comm]

/-- The first stage starts with the cycle. -/
theorem start_zero [NeZero n] : start dur 0 = 0 := by
  have none : Finset.Iio (0 : Fin n) = ∅ := Finset.eq_empty_of_forall_notMem (by simp)
  rw [start, none, Finset.sum_empty]

/-- The next stage starts where a stage ends, on every round. -/
theorem start_next [NeZero n] (i : Fin n) : start dur (i + 1) ≡ start dur i + dur i [ZMOD period dur] := by
  obtain ⟨m, rfl⟩ := Nat.exists_eq_succ_of_ne_zero (NeZero.ne n)
  rw [start_add_dur]
  by_cases last : i = Fin.last m
  · -- After the last stage the cycle starts over, a period later.
    subst last
    have all : (Finset.Iic (Fin.last m)) = Finset.univ := Finset.Iic_top
    rw [Fin.last_add_one, all, ← period, start_zero]
    exact (Int.modEq_zero_iff_dvd.mpr dvd_rfl).symm
  · have place : (i + 1).val = i.val + 1 := Fin.val_add_one_of_lt (Fin.lt_last_iff_ne_last.mpr last)
    have same : Finset.Iio (i + 1) = Finset.Iic i := by
      ext j
      rw [Finset.mem_Iio, Finset.mem_Iic, Fin.lt_def, Fin.le_def, place]
      omega
    rw [start, same]

variable {dur}

/-- A program starts with the first stage. -/
theorem At.begin [NeZero n] (positive : 0 < dur 0) : At dur 0 ⟨0, 0⟩ :=
  ⟨le_refl 0, positive, by rw [start_zero, add_zero]⟩

/-- A step that is no longer than any stage ends within one. -/
theorem advance_within [NeZero n] {p : Place n} (begun : 0 ≤ p.into) (unfinished : p.into < dur p.stage)
    {dt : ℤ} (forward : 0 ≤ dt) (short : ∀ i, dt ≤ dur i) :
    0 ≤ (advance dur p dt).into ∧ (advance dur p dt).into < dur (advance dur p dt).stage := by
  -- Less than the step is left of it, so the next stage does not end as well.
  have next := short (p.stage + 1)
  unfold Cycle.advance
  dsimp only
  split
  next ends =>
    dsimp only
    omega
  next stays =>
    dsimp only
    omega

/-- A step that is no longer than any stage leads to the place after that time. -/
theorem At.advance [NeZero n] {time : ℤ} {p : Place n} (here : At dur time p) {dt : ℤ} (forward : 0 ≤ dt)
    (short : ∀ i, dt ≤ dur i) : At dur (time + dt) (advance dur p dt) := by
  obtain ⟨begun, unfinished⟩ := advance_within here.begun here.unfinished forward short
  have later := here.since.add_right dt
  refine ⟨begun, unfinished, Int.ModEq.trans ?_ later⟩
  unfold Cycle.advance
  dsimp only
  split
  · have moved := (start_next dur p.stage).add_right (p.into + dt - dur p.stage)
    rwa [show start dur p.stage + dur p.stage + (p.into + dt - dur p.stage) =
      start dur p.stage + p.into + dt by ring] at moved
  · rw [add_assoc]

/-- A stage has ended before any later one starts. -/
theorem start_le_of_lt (nonneg : ∀ i, 0 ≤ dur i) {i j : Fin n} (later : i < j) :
    start dur i + dur i ≤ start dur j := by
  rw [start_add_dur]
  refine Finset.sum_le_sum_of_subset_of_nonneg (fun k member => ?_) fun k _ _ => nonneg k
  exact Finset.mem_Iio.mpr ((Finset.mem_Iic.mp member).trans_lt later)

/-- A place lies within one round. -/
theorem At.within (nonneg : ∀ i, 0 ≤ dur i) {time : ℤ} {p : Place n} (here : At dur time p) :
    0 ≤ start dur p.stage + p.into ∧ start dur p.stage + p.into < period dur := by
  have begun := here.begun
  have unfinished := here.unfinished
  have low : 0 ≤ start dur p.stage := Finset.sum_nonneg fun k _ => nonneg k
  have high : start dur p.stage + dur p.stage ≤ period dur := by
    rw [start_add_dur]
    exact Finset.sum_le_sum_of_subset_of_nonneg (Finset.subset_univ _) fun k _ _ => nonneg k
  omega

/-- A program is at one place at a time. -/
theorem At.unique (nonneg : ∀ i, 0 ≤ dur i) {time : ℤ} {p q : Place n} (first : At dur time p)
    (second : At dur time q) : p = q := by
  obtain ⟨low, high⟩ := first.within nonneg
  obtain ⟨low', high'⟩ := second.within nonneg
  have same : start dur p.stage + p.into = start dur q.stage + q.into := by
    have congruent := first.since.trans second.since.symm
    rwa [Int.ModEq, Int.emod_eq_of_lt low high, Int.emod_eq_of_lt low' high'] at congruent
  have := first.begun
  have := first.unfinished
  have := second.begun
  have := second.unfinished
  -- Were the stages different, the later one would not have started yet.
  rcases lt_trichotomy p.stage q.stage with earlier | stage | later
  · have := start_le_of_lt nonneg earlier
    omega
  · refine Place.ext stage ?_
    rw [stage] at same
    omega
  · have := start_le_of_lt nonneg later
    omega

end Cycle
