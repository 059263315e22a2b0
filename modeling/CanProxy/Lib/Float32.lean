import CanProxy.Lib.Double

/-! Single-precision bit patterns, read as the doubles of the same value. -/

namespace Numeric

namespace Float32

/-- The exponent field of a bit pattern. -/
def exponent (w : UInt32) : Nat := ((w >>> 23) &&& 0xFF).toNat

/-- The fraction field of a bit pattern. -/
def fraction (w : UInt32) : Nat := (w &&& 0x7FFFFF).toNat

/-- The sign bit of a bit pattern. -/
def negative (w : UInt32) : Bool := w >>> 31 != 0

/-- The magnitude of a finite bit pattern. -/
def magnitude (w : UInt32) : ℚ :=
  -- The smallest exponent has no leading one and shares its scale with the next.
  if exponent w = 0 then fraction w / 2 ^ 149
  else (2 ^ 23 + fraction w) * 2 ^ exponent w / 2 ^ 150

/-- The value of a bit pattern, exact since every single-precision value is also a double. -/
def toDouble (w : UInt32) : Double :=
  -- The largest exponent is kept for the infinities and for what is not a number.
  if exponent w = 255 then if fraction w = 0 then .infinite (negative w) else .nan
  else .finite (if negative w then -magnitude w else magnitude w)

/-- A bit pattern is a finite number unless its exponent field is all ones. -/
theorem isFinite_toDouble (w : UInt32) : (toDouble w).isFinite = decide (exponent w ≠ 255) := by
  unfold toDouble
  by_cases special : exponent w = 255
  · by_cases zero : fraction w = 0 <;> simp [special, zero, Double.isFinite]
  · simp [special]

end Float32

end Numeric
