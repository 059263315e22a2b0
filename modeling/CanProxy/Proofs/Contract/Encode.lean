import CanProxy.Contract.Encode
import CanProxy.Lib.Bits

/-! The scaled encoders round, saturate one short of the not-available pattern, and never reach it. -/

namespace CanProxy

open Numeric

variable (m : Machine)

/-- The two clamping statements saturate. -/
theorem clampLong_eq_saturate {lo hi : ℤ} (ordered : lo ≤ hi) (r : ℤ) :
    clampLong r lo hi = saturate lo hi r := by
  -- The statements are the two tests that saturation reads as, in the same order.
  rw [saturate_eq_ite ordered]
  rfl

/-- For a finite value, the double handed to the integer conversion is its magnitude plus one half. -/
theorem roundOperand_finite (x : ℚ) : roundOperand (.finite x) = .finite (|x| + 1 / 2) := by
  -- The code negates a negative value before it adds the half, which leaves the magnitude.
  unfold roundOperand
  rcases le_or_gt 0 x with nonneg | negative
  · simp [nonneg, abs_of_nonneg nonneg]
  · simp [not_le.mpr negative, abs_of_neg negative]

/-- The conversion inside the rounding is defined exactly while the shifted magnitude stays in range. -/
theorem roundOperand_fitsLong (x : ℚ) :
    (roundOperand (.finite x)).FitsLong ↔ |x| + 1 / 2 < 2 ^ 63 := by
  -- The shifted magnitude is positive, so its truncation is its floor.
  have nonneg : 0 ≤ |x| + 1 / 2 := by positivity
  have floor : 0 ≤ ⌊|x| + 1 / 2⌋ := Int.floor_nonneg.mpr nonneg
  have bound : ⌊|x| + 1 / 2⌋ < 2 ^ 63 ↔ |x| + 1 / 2 < 2 ^ 63 := by
    rw [Int.floor_lt]
    norm_num
  rw [roundOperand_finite, ← bound]
  constructor
  -- A truncation in range is the floor itself, and only the upper bound can fail.
  · rintro ⟨n, truncated, _, high⟩
    rw [Double.truncate?_finite, truncate_of_nonneg nonneg, Option.some.injEq] at truncated
    omega
  · intro high
    refine ⟨_, rfl, ?_, ?_⟩ <;> rw [truncate_of_nonneg nonneg] <;> omega

/-- While the conversion is defined, the code rounds to nearest with ties away from zero. -/
theorem canproxyRound_toInt {x : ℚ} (small : |x| + 1 / 2 < 2 ^ 63) :
    (canproxyRound m (.finite x)).toInt = roundHalfAway x := by
  -- The converted magnitude is a floor between zero and the largest 64-bit integer.
  have nonneg : 0 ≤ |x| + 1 / 2 := by positivity
  have low : 0 ≤ ⌊|x| + 1 / 2⌋ := Int.floor_nonneg.mpr nonneg
  have high : ⌊|x| + 1 / 2⌋ < 2 ^ 63 := by
    rw [Int.floor_lt]
    exact_mod_cast small
  have converted : (m.toLong (roundOperand (.finite x))).toInt = ⌊|x| + 1 / 2⌋ := by
    rw [roundOperand_finite, m.toLong_toInt, truncate_of_nonneg nonneg] <;>
      rw [truncate_of_nonneg nonneg] <;> omega
  have magnitude := roundHalfAway_of_nonneg (abs_nonneg x)
  unfold canproxyRound
  rcases le_or_gt 0 x with positive | negative
  · simp only [Double.finite_le, positive, decide_true, if_true, converted]
    rw [← magnitude, abs_of_nonneg positive]
  · -- Negating a value in range cannot reach the most negative integer, so nothing wraps.
    simp only [Double.finite_le, not_le.mpr negative, decide_false, Bool.false_eq_true, if_false,
      Int64.toInt_neg, converted]
    rw [Int.bmod_eq_of_le (by omega) (by omega), ← magnitude, abs_of_neg negative,
      roundHalfAway_neg, neg_neg]

/-- Whatever the conversion returned, clamping lands in the encodable range. -/
theorem scaled_mem {lo hi : ℤ} (ordered : lo ≤ hi) (v lsb : Double) :
    lo ≤ scaled m v lsb lo hi ∧ scaled m v lsb lo hi ≤ hi := by
  -- Nothing is assumed about the rounded integer, which may come from an undefined conversion.
  rw [scaled, clampLong_eq_saturate ordered]
  exact saturate_mem ordered _

/-- While the conversion is defined, the encoded number is the saturated rounding of the quotient. -/
theorem scaled_finite {lo hi : ℤ} (ordered : lo ≤ hi) {v lsb : ℚ} (positive : 0 < lsb)
    (small : |v / lsb| + 1 / 2 < 2 ^ 63) :
    scaled m (.finite v) (.finite lsb) lo hi = saturate lo hi (roundHalfAway (v / lsb)) := by
  -- A positive divisor makes the quotient finite, and a small quotient makes its rounding exact.
  rw [scaled, clampLong_eq_saturate ordered, Double.finite_div v positive.ne',
    canproxyRound_toInt m small]

/-- A valid unsigned byte reads as the number encoded. -/
theorem encU8_toNat (v lsb : Double) (max : UInt8) :
    ((encU8 m v lsb true max).toNat : ℤ) = scaled m v lsb 0 max.toNat := by
  -- The clamped integer fits the byte, so storing it drops nothing.
  have bound := max.toNat_lt
  have range := scaled_mem m (Int.natCast_nonneg max.toNat) v lsb
  exact Bits.toNat_ofInt8 range.1 (by omega)

/-- A valid signed byte reads as the number encoded. -/
theorem encI8_toInt (v lsb : Double) :
    (encI8 m v lsb true).toInt = scaled m v lsb (-127) 127 := by
  -- The clamped integer fits the signed byte.
  have range := scaled_mem m (by decide : (-127 : ℤ) ≤ 127) v lsb
  exact Int8.toInt_ofInt_of_le (by omega) (by omega)

/-- A valid 16-bit value reads as the number encoded. -/
theorem encU16_toNat (v lsb : Double) :
    ((encU16 m v lsb true).toNat : ℤ) = scaled m v lsb 0 0xFFFE := by
  -- The clamped integer fits the word.
  have range := scaled_mem m (by decide : (0 : ℤ) ≤ 0xFFFE) v lsb
  exact Bits.toNat_ofInt16 range.1 (by omega)

/-- A valid signed 16-bit value reads as the number encoded. -/
theorem encI16_toInt (v lsb : Double) :
    (encI16 m v lsb true).toInt = scaled m v lsb (-32767) 32767 := by
  -- The clamped integer fits the signed word.
  have range := scaled_mem m (by decide : (-32767 : ℤ) ≤ 32767) v lsb
  exact Int16.toInt_ofInt_of_le (by omega) (by omega)

/-- Clamping an integer held in a double agrees with clamping the integer. -/
private theorem clampDouble (r : ℤ) :
    (let r := Double.ofInt r
     let r := if r.lt (.finite 0) then .finite 0 else r
     if (Double.finite 4294967294).lt r then .finite 4294967294 else r) =
      Double.finite ((clampLong r 0 0xFFFFFFFE : ℤ) : ℚ) := by
  -- The comparisons agree because integers compare as the rationals they are.
  have negative : ((r : ℚ) < 0) ↔ r < 0 := by norm_num
  have large : (4294967294 < (r : ℚ)) ↔ 4294967294 < r := by norm_cast
  by_cases below : r < 0
  · simp [clampLong, Double.ofInt, negative, below]
  · by_cases above : 4294967294 < r
    · simp [clampLong, Double.ofInt, negative, below, large, above]
    · simp [clampLong, Double.ofInt, negative, below, large, above]

/-- A valid 32-bit value reads as the number encoded, although the clamp happens on doubles. -/
theorem encU32_toNat (v lsb : Double) :
    ((encU32 m v lsb true).toNat : ℤ) = scaled m v lsb 0 0xFFFFFFFE := by
  -- The clamped double is a nonnegative integer, so the final conversion is exact.
  have range := scaled_mem m (by decide : (0 : ℤ) ≤ 0xFFFFFFFE) v lsb
  have exactly : encU32 m v lsb true =
      m.toUInt32 (.finite ((scaled m v lsb 0 0xFFFFFFFE : ℤ) : ℚ)) := by
    rw [scaled, ← clampDouble]
    rfl
  generalize scaled m v lsb 0 0xFFFFFFFE = r at range exactly ⊢
  have truncated : truncate (r : ℚ) = r := by
    rw [truncate_of_nonneg (by exact_mod_cast range.1), Int.floor_intCast]
  rw [exactly, m.toUInt32_finite (by omega) (by omega), truncated]
  exact Bits.toNat_ofInt32 range.1 (by omega)

/-- A pattern outside the range an encoder clamps to is sent for unavailable signals only. -/
private theorem eq_sna_iff {α : Type*} {k : Bool → α} (sna : α) (read : α → ℤ) {lo hi : ℤ}
    (ordered : lo ≤ hi) {v lsb : Double} (unavailable : k false = sna)
    (available : read (k true) = scaled m v lsb lo hi)
    (outside : read sna < lo ∨ hi < read sna) (valid : Bool) :
    k valid = sna ↔ valid = false := by
  cases valid with
  | false => exact iff_of_true unavailable rfl
  | true =>
    -- An available signal reads as a number of the range, and the pattern does not.
    refine iff_of_false (fun reached => ?_) (by decide)
    have range := scaled_mem m ordered v lsb
    rw [← available, reached] at range
    omega

/-- A signal marked not available encodes as the not-available byte, and only then. -/
theorem encU8_eq_sna {max : UInt8} (spares : max.toNat ≤ 254) (v lsb : Double) (valid : Bool) :
    encU8 m v lsb valid max = snaU8 ↔ valid = false := by
  -- Only a maximum short of the pattern leaves it outside the range.
  have outside : ((max.toNat : ℕ) : ℤ) < (snaU8.toNat : ℤ) := by
    rw [show snaU8.toNat = 255 from rfl]
    omega
  exact eq_sna_iff m (k := fun valid => encU8 m v lsb valid max) snaU8 (fun code => code.toNat)
    (Int.natCast_nonneg max.toNat) rfl (encU8_toNat m v lsb max) (.inr outside) valid

/-- A signal marked not available encodes as the signed not-available byte, and only then. -/
theorem encI8_eq_sna (v lsb : Double) (valid : Bool) :
    encI8 m v lsb valid = snaI8 ↔ valid = false :=
  -- The pattern is the one negative byte without a positive counterpart.
  eq_sna_iff m (k := fun valid => encI8 m v lsb valid) snaI8 Int8.toInt (by decide) rfl
    (encI8_toInt m v lsb) (.inl (by decide)) valid

/-- A signal marked not available encodes as the 16-bit pattern, and only then. -/
theorem encU16_eq_sna (v lsb : Double) (valid : Bool) :
    encU16 m v lsb valid = snaU16 ↔ valid = false :=
  eq_sna_iff m (k := fun valid => encU16 m v lsb valid) snaU16 (fun code => code.toNat) (by decide) rfl
    (encU16_toNat m v lsb) (.inr (by decide)) valid

/-- A signal marked not available encodes as the signed 16-bit pattern, and only then. -/
theorem encI16_eq_sna (v lsb : Double) (valid : Bool) :
    encI16 m v lsb valid = snaI16 ↔ valid = false :=
  eq_sna_iff m (k := fun valid => encI16 m v lsb valid) snaI16 Int16.toInt (by decide) rfl
    (encI16_toInt m v lsb) (.inl (by decide)) valid

/-- A signal marked not available encodes as the 32-bit pattern, and only then. -/
theorem encU32_eq_sna (v lsb : Double) (valid : Bool) :
    encU32 m v lsb valid = snaU32 ↔ valid = false :=
  eq_sna_iff m (k := fun valid => encU32 m v lsb valid) snaU32 (fun code => code.toNat) (by decide) rfl
    (encU32_toNat m v lsb) (.inr (by decide)) valid

/-- The five scaled encoders, the byte encoder with its own maximum. -/
inductive Encoder where
  | u8 (max : UInt8)
  | i8
  | u16
  | i16
  | u32

namespace Encoder

/-- The number a valid value is encoded as. -/
def encode (v lsb : Double) : Encoder → ℤ
  | u8 max => (encU8 m v lsb true max).toNat
  | i8 => (encI8 m v lsb true).toInt
  | u16 => (encU16 m v lsb true).toNat
  | i16 => (encI16 m v lsb true).toInt
  | u32 => (encU32 m v lsb true).toNat

/-- The smallest number encoded. -/
def lo : Encoder → ℤ
  | i8 => -127
  | i16 => -32767
  | _ => 0

/-- The largest number encoded. -/
def hi : Encoder → ℤ
  | u8 max => max.toNat
  | i8 => 127
  | u16 => 0xFFFE
  | i16 => 32767
  | u32 => 0xFFFFFFFE

/-- The range of every encoder is nonempty. -/
theorem lo_le_hi (e : Encoder) : e.lo ≤ e.hi := by
  cases e <;> simp [lo, hi]

/-- Every encoder clamps the same rounding, each to its own range. -/
theorem encode_eq_scaled (v lsb : Double) (e : Encoder) :
    e.encode m v lsb = scaled m v lsb e.lo e.hi := by
  -- Each encoder stores the clamped integer in a type wide enough for its range.
  cases e with
  | u8 max => exact encU8_toNat m v lsb max
  | i8 => exact encI8_toInt m v lsb
  | u16 => exact encU16_toNat m v lsb
  | i16 => exact encI16_toInt m v lsb
  | u32 => exact encU32_toNat m v lsb

/--
Rounding inside an encoder is defined and saturates exactly while the quotient keeps half a unit
from the end of the 64-bit range.

Between two such values the encoding preserves order, since rounding and saturation both do.
-/
theorem saturates_iff (e : Encoder) (v lsb : ℚ) (positive : 0 < lsb) :
    (((roundOperand (.finite v / .finite lsb)).FitsLong ∧
      e.encode m (.finite v) (.finite lsb) = saturate e.lo e.hi (roundHalfAway (v / lsb))) ↔
        |v / lsb| + 1 / 2 < 2 ^ 63) ∧
    ∀ w, v ≤ w → |v / lsb| + 1 / 2 < 2 ^ 63 → |w / lsb| + 1 / 2 < 2 ^ 63 →
      e.encode m (.finite v) (.finite lsb) ≤ e.encode m (.finite w) (.finite lsb) := by
  rw [Double.finite_div v positive.ne', roundOperand_fitsLong]
  -- The conversion's range decides both halves; order is kept by rounding and by saturation.
  refine ⟨⟨fun holds => holds.1, fun small => ⟨small, ?_⟩⟩, fun w le vSmall wSmall => ?_⟩
  · rw [encode_eq_scaled, scaled_finite m e.lo_le_hi positive small]
  · rw [encode_eq_scaled, encode_eq_scaled, scaled_finite m e.lo_le_hi positive vSmall,
      scaled_finite m e.lo_le_hi positive wSmall]
    exact saturate_mono _ _ (roundHalfAway_mono (div_le_div_of_nonneg_right le positive.le))

/-- A speed well inside the range is rounded to its hundredth. -/
theorem saturates_iff_speed :
    u16.encode Machine.indefinite (.finite (2469 / 20)) (.finite (1 / 100)) = 12345 := by
  -- The general result names the saturated rounding, and only that number is evaluated.
  have rounded := ((saturates_iff Machine.indefinite .u16 (2469 / 20) (1 / 100)
    (by norm_num)).1.mpr (by norm_num [abs_of_nonneg])).2
  exact rounded.trans (by decide +kernel)

/-- A huge speed leaves the 64-bit range, and where that wraps to the minimum it encodes as standing still. -/
theorem wraps_when_huge :
    ¬(roundOperand (.finite (10 ^ 17) / .finite (1 / 100))).FitsLong ∧
      u16.encode Machine.indefinite (.finite (10 ^ 17)) (.finite (1 / 100)) = 0 ∧
      saturate u16.lo u16.hi (roundHalfAway ((10 ^ 17 : ℚ) / (1 / 100))) = 0xFFFE := by
  -- The scaled magnitude is 10^19, above the largest 64-bit integer.
  refine ⟨?_, by decide +kernel, by decide +kernel⟩
  rw [Double.finite_div _ (by norm_num), roundOperand_fitsLong]
  norm_num [abs_of_nonneg]

end Encoder

end CanProxy
