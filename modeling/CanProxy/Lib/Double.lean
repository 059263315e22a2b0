import CanProxy.Lib.Rounding

/-! Doubles with finite values read as exact rationals, and their conversions to machine integers. -/

namespace Numeric

/-- A double: a finite value read exactly, or one of the values that are not numbers. -/
inductive Double where
  /-- A finite value. -/
  | finite (value : ℚ)
  /-- An infinity, by sign. -/
  | infinite (negative : Bool)
  /-- Not a number. -/
  | nan
deriving DecidableEq

namespace Double

/-- Addition, exact on finite values. -/
def add : Double → Double → Double
  | finite x, finite y => finite (x + y)
  -- Opposite infinities have no sum.
  | infinite s, infinite t => if s = t then infinite s else nan
  | infinite s, finite _ => infinite s
  | finite _, infinite t => infinite t
  | nan, _ => nan
  | _, nan => nan

/-- Sign change. -/
def neg : Double → Double
  | finite x => finite (-x)
  | infinite s => infinite !s
  | nan => nan

/-- Division, exact on finite values with a nonzero divisor. -/
def div : Double → Double → Double
  | finite x, finite y =>
    -- Dividing by zero leaves the sign of the dividend, or no number at all.
    if y = 0 then if x = 0 then nan else infinite (decide (x < 0)) else finite (x / y)
  | finite _, infinite _ => finite 0
  | infinite s, finite y => infinite (xor s (decide (y < 0)))
  | infinite _, infinite _ => nan
  | nan, _ => nan
  | _, nan => nan

/-- Multiplication, exact on finite values. -/
def mul : Double → Double → Double
  | finite x, finite y => finite (x * y)
  -- An infinity keeps its magnitude and takes both signs, but has no product with zero.
  | infinite s, finite y => if y = 0 then nan else infinite (xor s (decide (y < 0)))
  | finite x, infinite t => if x = 0 then nan else infinite (xor (decide (x < 0)) t)
  | infinite s, infinite t => infinite (xor s t)
  | nan, _ => nan
  | _, nan => nan

/-- The value is a number: neither an infinity nor the value that is none. -/
def isFinite : Double → Bool
  | finite _ => true
  | _ => false

/-- Strictly less; every comparison with a value that is not a number is false. -/
def lt : Double → Double → Bool
  | finite x, finite y => decide (x < y)
  -- Only the negative infinity lies below a finite value.
  | infinite true, finite _ => true
  | infinite s, infinite t => s && !t
  | finite _, infinite t => !t
  | _, _ => false

/-- Less or equal; every comparison with a value that is not a number is false. -/
def le : Double → Double → Bool
  | finite x, finite y => decide (x ≤ y)
  | infinite s, infinite t => s || !t
  | infinite s, finite _ => s
  | finite _, infinite t => !t
  | _, _ => false

instance : Add Double := ⟨add⟩
instance : Neg Double := ⟨neg⟩
instance : Div Double := ⟨div⟩
instance : Mul Double := ⟨mul⟩

/-- An integer is an exact double. -/
def ofInt (n : ℤ) : Double := finite n

/-- The integer left after dropping the fraction, for finite values only. -/
def truncate? : Double → Option ℤ
  | finite x => some (truncate x)
  | _ => none

/-- Converting the value to a signed 64-bit integer is defined: its truncation is in range. -/
def FitsLong (d : Double) : Prop :=
  ∃ n, d.truncate? = some n ∧ -2 ^ 63 ≤ n ∧ n < 2 ^ 63

@[simp] theorem finite_add (x y : ℚ) : finite x + finite y = finite (x + y) := rfl

@[simp] theorem neg_finite (x : ℚ) : -finite x = finite (-x) := rfl

theorem finite_div (x : ℚ) {y : ℚ} (nonzero : y ≠ 0) : finite x / finite y = finite (x / y) :=
  if_neg nonzero

@[simp] theorem finite_lt (x y : ℚ) : lt (finite x) (finite y) = decide (x < y) := rfl

@[simp] theorem finite_le (x y : ℚ) : le (finite x) (finite y) = decide (x ≤ y) := rfl

@[simp] theorem isFinite_finite (x : ℚ) : (finite x).isFinite = true := rfl

@[simp] theorem isFinite_ofInt (n : ℤ) : (ofInt n).isFinite = true := rfl

/-- A product with a finite factor is finite exactly when the other factor is. -/
@[simp] theorem isFinite_mul_finite (d : Double) (y : ℚ) : (d * finite y).isFinite = d.isFinite := by
  -- An infinity times zero is no number, and times anything else an infinity.
  cases d with
  | finite x => rfl
  | infinite s =>
    change isFinite (if y = 0 then nan else infinite (xor s (decide (y < 0)))) = false
    split <;> rfl
  | nan => rfl

/-- A quotient by a nonzero finite divisor is finite exactly when the dividend is. -/
theorem isFinite_div_finite (d : Double) {y : ℚ} (nonzero : y ≠ 0) :
    (d / finite y).isFinite = d.isFinite := by
  cases d with
  | finite x => rw [finite_div x nonzero, isFinite_finite, isFinite_finite]
  | infinite s => rfl
  | nan => rfl

@[simp] theorem truncate?_finite (x : ℚ) : (finite x).truncate? = some (Numeric.truncate x) := rfl

end Double

/--
What a target's conversion instructions leave for a double the destination type cannot represent.

The language leaves such a conversion undefined, so nothing is assumed about these values.
-/
structure Machine where
  /-- The signed 64-bit result. -/
  long : Double → Int64
  /-- The unsigned 16-bit result. -/
  uint16 : Double → UInt16
  /-- The unsigned 32-bit result. -/
  uint32 : Double → UInt32

namespace Machine

/-- Conversions that leave the integer-indefinite pattern, the top bit alone, in a wide register. -/
def indefinite : Machine where
  long _ := Int64.minValue
  uint16 _ := 0
  uint32 _ := 0

variable (m : Machine)

/-- Conversion to a signed 64-bit integer. -/
def toLong (d : Double) : Int64 :=
  match d.truncate? with
  -- In range the fraction is dropped; out of range the target's own result is taken.
  | some n => if -2 ^ 63 ≤ n ∧ n < 2 ^ 63 then Int64.ofInt n else m.long d
  | none => m.long d

/-- Conversion to an unsigned 16-bit integer. -/
def toUInt16 (d : Double) : UInt16 :=
  match d.truncate? with
  | some n => if 0 ≤ n ∧ n < 2 ^ 16 then UInt16.ofInt n else m.uint16 d
  | none => m.uint16 d

/-- Conversion to an unsigned 32-bit integer. -/
def toUInt32 (d : Double) : UInt32 :=
  match d.truncate? with
  | some n => if 0 ≤ n ∧ n < 2 ^ 32 then UInt32.ofInt n else m.uint32 d
  | none => m.uint32 d

/-- A conversion in range yields the truncated value on every machine. -/
theorem toLong_toInt {x : ℚ} (low : -2 ^ 63 ≤ truncate x) (high : truncate x < 2 ^ 63) :
    (m.toLong (.finite x)).toInt = truncate x := by
  -- The target's own result is only consulted outside the range.
  simp only [toLong, Double.truncate?_finite, if_pos (And.intro low high)]
  exact Int64.toInt_ofInt_of_le low high

/-- A conversion to sixteen bits in range yields the truncated value on every machine. -/
theorem toUInt16_finite {x : ℚ} (low : 0 ≤ truncate x) (high : truncate x < 2 ^ 16) :
    m.toUInt16 (.finite x) = UInt16.ofInt (truncate x) := by
  simp only [toUInt16, Double.truncate?_finite, if_pos (And.intro low high)]

/-- A conversion to thirty-two bits in range yields the truncated value on every machine. -/
theorem toUInt32_finite {x : ℚ} (low : 0 ≤ truncate x) (high : truncate x < 2 ^ 32) :
    m.toUInt32 (.finite x) = UInt32.ofInt (truncate x) := by
  simp only [toUInt32, Double.truncate?_finite, if_pos (And.intro low high)]

end Machine

end Numeric
