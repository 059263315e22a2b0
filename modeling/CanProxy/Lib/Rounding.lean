import Mathlib.Algebra.Order.Round
import Mathlib.Data.Rat.Floor
import Mathlib.Tactic.Linarith
import Mathlib.Tactic.Ring
import Mathlib.Tactic.FieldSimp
import Mathlib.Tactic.NormNum

/-! Rounding to the nearest integer with ties away from zero, truncation, and saturation. -/

namespace Numeric

section Rounding

variable {α : Type*} [Field α] [LinearOrder α] [IsStrictOrderedRing α] [FloorRing α]

/-- Round to the nearest integer, sending ties away from zero. -/
def roundHalfAway (x : α) : ℤ :=
  -- The library rounds ties upwards, which is away from zero on the nonnegative side only.
  if 0 ≤ x then round x else -round (-x)

/-- Drop the fractional part, moving towards zero. -/
def truncate (x : α) : ℤ := if 0 ≤ x then ⌊x⌋ else ⌈x⌉

/-- An integer no other integer beats in distance, and the larger in magnitude where two are level. -/
structure NearestAway (x : α) (n : ℤ) : Prop where
  /-- No integer lies nearer. -/
  nearest : ∀ k : ℤ, |x - n| ≤ |x - k|
  /-- An integer just as near is no larger in magnitude. -/
  away : ∀ k : ℤ, |x - k| = |x - n| → |k| ≤ |n|

/-- Rounding commutes with changing the sign. -/
theorem roundHalfAway_neg (x : α) : roundHalfAway (-x) = -roundHalfAway x := by
  -- Only zero lies on both sides of the test, and zero rounds to itself.
  rcases lt_trichotomy x 0 with negative | rfl | positive
  · simp [roundHalfAway, negative.le, not_le.mpr negative]
  · simp [roundHalfAway]
  · simp [roundHalfAway, positive.le, not_le.mpr positive]

/-- On the nonnegative side, adding one half and taking the floor rounds. -/
theorem roundHalfAway_of_nonneg {x : α} (nonneg : 0 ≤ x) :
    roundHalfAway x = ⌊x + 1 / 2⌋ := by
  -- There the library's rounding is the one taken, and it is this floor.
  rw [roundHalfAway, if_pos nonneg, round_eq]

/-- An integer is already rounded. -/
@[simp] theorem roundHalfAway_intCast (n : ℤ) : roundHalfAway (n : α) = n := by
  -- An integer is its own nearest integer, and so is its negation.
  unfold roundHalfAway
  split
  · exact round_intCast n
  · rw [← Int.cast_neg, round_intCast, neg_neg]

/-- A nonnegative number never rounds below zero. -/
theorem roundHalfAway_nonneg {x : α} (nonneg : 0 ≤ x) : 0 ≤ roundHalfAway x := by
  -- A number at least zero stays so after one half is added, and so does its floor.
  rw [roundHalfAway_of_nonneg nonneg]
  exact Int.floor_nonneg.mpr (by linarith)

/-- A larger number never rounds to a smaller integer. -/
theorem roundHalfAway_mono {x y : α} (le : x ≤ y) : roundHalfAway x ≤ roundHalfAway y := by
  -- Both sides of zero are monotone on their own, and zero separates them.
  rcases le_total 0 x with xNonneg | xNonpos
  · rw [roundHalfAway_of_nonneg xNonneg, roundHalfAway_of_nonneg (xNonneg.trans le)]
    exact Int.floor_mono (by linarith)
  · have xRound : roundHalfAway x = -roundHalfAway (-x) := by rw [roundHalfAway_neg, neg_neg]
    have xSign := roundHalfAway_nonneg (neg_nonneg.mpr xNonpos)
    rcases le_total 0 y with yNonneg | yNonpos
    · have ySign := roundHalfAway_nonneg yNonneg
      omega
    · have yRound : roundHalfAway y = -roundHalfAway (-y) := by rw [roundHalfAway_neg, neg_neg]
      rw [xRound, yRound, roundHalfAway_of_nonneg (neg_nonneg.mpr xNonpos),
        roundHalfAway_of_nonneg (neg_nonneg.mpr yNonpos)]
      exact neg_le_neg (Int.floor_mono (by linarith))

/-- Rounding moves a number by at most one half. -/
theorem abs_sub_roundHalfAway (x : α) : |x - roundHalfAway x| ≤ 1 / 2 := by
  unfold roundHalfAway
  split
  · exact abs_sub_round x
  · -- Reflecting the number reflects its distance to the rounded value.
    have reflected := abs_sub_round (-x)
    rw [show -x - (round (-x) : α) = -(x - ((-round (-x) : ℤ) : α)) by push_cast; ring,
      abs_neg] at reflected
    exact reflected

/-- On the nonnegative side, rounding picks the nearest integer and the larger of two that tie. -/
private theorem nearestAway_of_nonneg {x : α} (nonneg : 0 ≤ x) :
    NearestAway x (roundHalfAway x) := by
  have rounded : roundHalfAway x = round x := if_pos nonneg
  -- The library already knows that nothing lies nearer; only the tie is left to settle.
  refine ⟨fun k => ?_, fun k level => ?_⟩
  · rw [rounded]
    exact round_le x k
  · -- The floor of the shifted number brackets it, so a rival lies at most at the floor.
    have sign := roundHalfAway_nonneg nonneg
    have near := abs_sub_roundHalfAway x
    rw [roundHalfAway_of_nonneg nonneg] at level sign near ⊢
    have below := Int.floor_le (x + 1 / 2)
    have above := Int.lt_floor_add_one (x + 1 / 2)
    rw [← level] at near
    obtain ⟨low, high⟩ := abs_le.mp near
    have rival : (k : α) < (⌊x + 1 / 2⌋ : α) + 1 := by linarith
    have rival : k < ⌊x + 1 / 2⌋ + 1 := by exact_mod_cast rival
    have floor : (-1 : α) < k := by linarith
    have floor : (-1 : ℤ) < k := by exact_mod_cast floor
    rw [abs_of_nonneg (by omega : 0 ≤ k), abs_of_nonneg sign]
    omega

omit [IsStrictOrderedRing α] [FloorRing α] in
/-- Reflecting a number reflects the integer it rounds to. -/
theorem NearestAway.neg {x : α} {n : ℤ} (near : NearestAway x n) : NearestAway (-x) (-n) := by
  -- Every rival of the reflected number is the reflection of a rival of the number itself.
  have reflect (k : ℤ) : |-x - ((-k : ℤ) : α)| = |x - k| := by
    rw [show -x - ((-k : ℤ) : α) = -(x - k) by push_cast; ring, abs_neg]
  refine ⟨fun k => ?_, fun k level => ?_⟩
  · have bound := near.nearest (-k)
    rwa [reflect n, ← neg_neg k, reflect (-k)]
  · rw [← neg_neg k, reflect, reflect] at level
    simpa using near.away (-k) level

/-- Rounding picks the nearest integer, and the one farther from zero of two that tie. -/
theorem nearestAway_roundHalfAway (x : α) : NearestAway x (roundHalfAway x) := by
  -- The nonnegative side was settled above, and the other side is its reflection.
  rcases le_total 0 x with nonneg | nonpos
  · exact nearestAway_of_nonneg nonneg
  · have reflected := (nearestAway_of_nonneg (neg_nonneg.mpr nonpos)).neg
    rwa [roundHalfAway_neg, neg_neg, neg_neg] at reflected

/-- Scaling a rounded quotient back lands within half a unit of the original. -/
theorem abs_roundHalfAway_mul_sub {unit : α} (positive : 0 < unit) (x : α) :
    |(roundHalfAway (x / unit) : α) * unit - x| ≤ unit / 2 := by
  -- The quotient's rounding error is at most one half, and scaling multiplies it by the unit.
  have error := abs_sub_roundHalfAway (x / unit)
  have scaled : (roundHalfAway (x / unit) : α) * unit - x =
      -((x / unit - roundHalfAway (x / unit)) * unit) := by
    field_simp
    ring
  rw [scaled, abs_neg, abs_mul, abs_of_pos positive]
  calc |x / unit - roundHalfAway (x / unit)| * unit
      ≤ 1 / 2 * unit := mul_le_mul_of_nonneg_right error positive.le
    _ = unit / 2 := by ring

omit [IsStrictOrderedRing α] in
/-- Truncating a nonnegative number takes its floor. -/
theorem truncate_of_nonneg {x : α} (nonneg : 0 ≤ x) : truncate x = ⌊x⌋ := if_pos nonneg

end Rounding

/-- The nearest integer inside a closed range. -/
def saturate (lo hi n : ℤ) : ℤ := max lo (min hi n)

/-- Saturation lands inside a nonempty range. -/
theorem saturate_mem {lo hi : ℤ} (ordered : lo ≤ hi) (n : ℤ) :
    lo ≤ saturate lo hi n ∧ saturate lo hi n ≤ hi := by
  unfold saturate
  omega

/-- Saturation leaves an integer of the range alone. -/
theorem saturate_eq {lo hi n : ℤ} (low : lo ≤ n) (high : n ≤ hi) : saturate lo hi n = n := by
  unfold saturate
  omega

/-- Saturation preserves order. -/
theorem saturate_mono (lo hi : ℤ) {n k : ℤ} (le : n ≤ k) :
    saturate lo hi n ≤ saturate lo hi k := by
  unfold saturate
  omega

/-- Clamping from below and then from above is saturation. -/
theorem saturate_eq_ite {lo hi : ℤ} (ordered : lo ≤ hi) (n : ℤ) :
    saturate lo hi n = if hi < (if n < lo then lo else n) then hi else if n < lo then lo else n := by
  -- The range is nonempty, so lifting to its bottom never passes its top.
  unfold saturate
  split <;> split <;> omega

end Numeric
