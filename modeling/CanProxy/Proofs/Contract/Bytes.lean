import CanProxy.Contract.Encode
import CanProxy.Lib.Bits

/-! Multi-byte fields read back as written, and leave every other byte alone. -/

namespace CanProxy

/-- Reading a 16-bit field adds its high byte at scale 256. -/
theorem getU16le_toNat (d : FrameData) (i : Nat) (fits : i + 1 < 8) :
    (getU16le d i fits).toNat =
      (getElem d i (Nat.lt_of_succ_lt fits)).toNat + d[i + 1].toNat * 256 :=
  Bits.toNat_join16 _ _

/-- Reading a 32-bit field adds its four bytes at increasing scales. -/
theorem getU32le_toNat (d : FrameData) (i : Nat) (fits : i + 3 < 8) :
    (getU32le d i fits).toNat = (getElem d i (Nat.lt_of_add_right_lt fits)).toNat +
      (getElem d (i + 1) (Nat.lt_of_succ_lt (Nat.lt_of_succ_lt fits))).toNat * 2 ^ 8 +
      (getElem d (i + 2) (Nat.lt_of_succ_lt fits)).toNat * 2 ^ 16 + d[i + 3].toNat * 2 ^ 24 :=
  Bits.toNat_join32 _ _ _ _

/-- A 16-bit field reads back as the value written. -/
@[simp] theorem getU16le_putU16le (d : FrameData) (i : Nat) (v : UInt16) (fits : i + 1 < 8) :
    getU16le (putU16le d i v fits) i fits = v := by
  -- Both bytes come from the write, and together they hold the whole value.
  apply UInt16.toNat_inj.mp
  rw [getU16le_toNat]
  simp only [putU16le, Vector.getElem_set, Nat.succ_ne_self, if_true, if_false,
    Bits.toNat_lowByte16, Bits.toNat_highByte16]
  omega

/-- A 32-bit field reads back as the value written. -/
@[simp] theorem getU32le_putU32le (d : FrameData) (i : Nat) (v : UInt32) (fits : i + 3 < 8) :
    getU32le (putU32le d i v fits) i fits = v := by
  -- All four bytes come from the write, and together they hold the whole value.
  have bound := v.toNat_lt
  apply UInt32.toNat_inj.mp
  rw [getU32le_toNat]
  have byte0 : (v &&& 0xFF).toUInt8.toNat = v.toNat % 256 := by
    simpa using Bits.toNat_byte32 v 0 (by decide)
  have byte1 := Bits.toNat_byte32 v 8 (by decide)
  have byte2 := Bits.toNat_byte32 v 16 (by decide)
  have byte3 : (v >>> 24).toUInt8.toNat = v.toNat / 2 ^ 24 % 256 := by
    simp [UInt32.toNat_shiftRight, Nat.shiftRight_eq_div_pow]
  simp only [UInt32.reduceToNat] at byte1 byte2
  simp only [putU32le, Vector.getElem_set, Nat.add_left_cancel_iff, Nat.add_eq_left,
    Nat.reduceEqDiff, if_true, if_false, byte0, byte1, byte2, byte3,
    OfNat.ofNat_ne_zero, OfNat.ofNat_ne_one, Nat.succ_ne_self]
  omega

/-- Writing a 16-bit field leaves every byte outside it alone. -/
@[simp] theorem getElem_putU16le_ne (d : FrameData) (i j : Nat) (v : UInt16) (fits : i + 1 < 8)
    (within : j < 8) (notLow : i ≠ j) (notHigh : i + 1 ≠ j) : (putU16le d i v fits)[j] = d[j] := by
  -- The write sets two positions, and the byte read is neither of them.
  simp [putU16le, notLow, notHigh]

/-- Writing a 32-bit field leaves every byte outside it alone. -/
@[simp] theorem getElem_putU32le_ne (d : FrameData) (i j : Nat) (v : UInt32) (fits : i + 3 < 8)
    (within : j < 8) (outside : j < i ∨ i + 3 < j) : (putU32le d i v fits)[j] = d[j] := by
  -- The write sets four positions in a row, and the byte read is before or after all of them.
  simp [putU32le, show i ≠ j by omega, show i + 1 ≠ j by omega, show i + 2 ≠ j by omega,
    show i + 3 ≠ j by omega]

/-- A byte written outside a 16-bit field does not change it. -/
@[simp] theorem getU16le_set_ne (d : FrameData) (i j : Nat) (v : UInt8) (fits : i + 1 < 8)
    (within : j < 8) (notLow : j ≠ i) (notHigh : j ≠ i + 1) :
    getU16le (d.set j v) i fits = getU16le d i fits := by
  -- The field reads two positions, and the byte written is neither of them.
  simp [getU16le, notLow, notHigh]

/-- A 16-bit field written elsewhere does not change another one. -/
@[simp] theorem getU16le_putU16le_ne (d : FrameData) (i j : Nat) (v : UInt16) (fits : i + 1 < 8)
    (fitsToo : j + 1 < 8) (apart : i + 1 < j ∨ j + 1 < i) :
    getU16le (putU16le d j v fitsToo) i fits = getU16le d i fits := by
  -- The other field is two byte writes, each outside this one.
  simp only [putU16le]
  rw [getU16le_set_ne _ _ _ _ _ _ (by omega) (by omega),
    getU16le_set_ne _ _ _ _ _ _ (by omega) (by omega)]

/-- A byte written outside a 32-bit field does not change it. -/
@[simp] theorem getU32le_set_ne (d : FrameData) (i j : Nat) (v : UInt8) (fits : i + 3 < 8)
    (within : j < 8) (outside : j < i ∨ i + 3 < j) :
    getU32le (d.set j v) i fits = getU32le d i fits := by
  -- The field reads four positions in a row, and the byte written is outside all of them.
  simp [getU32le, show j ≠ i by omega, show j ≠ i + 1 by omega, show j ≠ i + 2 by omega,
    show j ≠ i + 3 by omega]

end CanProxy
