import CanProxy.Contract.Types

/-! Byte helpers and the scaled encoders that stop one short of the not-available pattern. -/

namespace CanProxy

open Numeric

/-- The eight data bytes of a contract frame. -/
abbrev FrameData := Vector UInt8 8

/-- A frame with every byte zero. -/
def clear : FrameData := Vector.replicate 8 0

/-- Write a 16-bit value at an offset, low byte first. -/
def putU16le (d : FrameData) (i : Nat) (v : UInt16) (fits : i + 1 < 8 := by decide) : FrameData :=
  (d.set i (v &&& 0xFF).toUInt8).set (i + 1) (v >>> 8).toUInt8

/-- Read a 16-bit value at an offset, low byte first. -/
def getU16le (d : FrameData) (i : Nat) (fits : i + 1 < 8 := by decide) : UInt16 :=
  d[i].toUInt16 ||| (d[i + 1].toUInt16 <<< 8)

/-- Write a 32-bit value at an offset, low byte first. -/
def putU32le (d : FrameData) (i : Nat) (v : UInt32) (fits : i + 3 < 8 := by decide) : FrameData :=
  (((d.set i (v &&& 0xFF).toUInt8).set (i + 1) ((v >>> 8) &&& 0xFF).toUInt8).set
    (i + 2) ((v >>> 16) &&& 0xFF).toUInt8).set (i + 3) (v >>> 24).toUInt8

/-- Read a 32-bit value at an offset, low byte first. -/
def getU32le (d : FrameData) (i : Nat) (fits : i + 3 < 8 := by decide) : UInt32 :=
  d[i].toUInt32 ||| (d[i + 1].toUInt32 <<< 8) ||| (d[i + 2].toUInt32 <<< 16) |||
    (d[i + 3].toUInt32 <<< 24)

section Encoders

variable (m : Machine)

/-- The double handed to the integer conversion: the magnitude shifted up by one half. -/
def roundOperand (v : Double) : Double :=
  -- Not a number fails the comparison, so it takes the negative branch.
  if (Double.finite 0).le v then v + .finite (1 / 2) else -v + .finite (1 / 2)

/-- Round to the nearest 64-bit integer, half away from zero. -/
def canproxyRound (v : Double) : Int64 :=
  -- The conversion comes before any clamp, so it sees quotients of every magnitude.
  if (Double.finite 0).le v then m.toLong (roundOperand v) else -m.toLong (roundOperand v)

/-- The two clamping statements of an integer encoder, in the order the source makes them. -/
def clampLong (r lo hi : ℤ) : ℤ :=
  let r := if r < lo then lo else r
  if hi < r then hi else r

/-- The rounded quotient clamped to a range, which every integer encoder computes. -/
def scaled (v lsb : Double) (lo hi : ℤ) : ℤ :=
  clampLong (canproxyRound m (v / lsb)).toInt lo hi

/-- Encode an unsigned byte. -/
def encU8 (v lsb : Double) (valid : Bool) (max : UInt8) : UInt8 :=
  -- Callers pass the largest code of their signal, 200 or 100, both short of the reserved pattern.
  if valid then UInt8.ofInt (scaled m v lsb 0 max.toNat) else snaU8

/-- Encode a signed byte. -/
def encI8 (v lsb : Double) (valid : Bool) : Int8 :=
  -- The most negative byte is reserved, so the range is symmetric.
  if valid then Int8.ofInt (scaled m v lsb (-127) 127) else snaI8

/-- Encode an unsigned 16-bit value. -/
def encU16 (v lsb : Double) (valid : Bool) : UInt16 :=
  -- The all-ones word is reserved, so the range ends one below it.
  if valid then UInt16.ofInt (scaled m v lsb 0 0xFFFE) else snaU16

/-- Encode a signed 16-bit value. -/
def encI16 (v lsb : Double) (valid : Bool) : Int16 :=
  -- The most negative word is reserved, as for the signed byte.
  if valid then Int16.ofInt (scaled m v lsb (-32767) 32767) else snaI16

/-- Encode an unsigned 32-bit value, clamping after the rounded integer became a double again. -/
def encU32 (v lsb : Double) (valid : Bool) : UInt32 :=
  if valid then
    -- Unlike its siblings this encoder clamps a double, and only then converts it once more.
    let r := Double.ofInt (canproxyRound m (v / lsb)).toInt
    let r := if r.lt (.finite 0) then .finite 0 else r
    let r := if (Double.finite 4294967294).lt r then .finite 4294967294 else r
    m.toUInt32 r
  else snaU32

end Encoders

end CanProxy
