import CanProxy.Lib.Float32
import Mathlib.Data.List.Basic

/-!
The game's telemetry packets: a sled block that every title sends, and a dash block after it in three
of the four known sizes. All fields are little-endian.
-/

namespace CanProxy.Forza

open Numeric

/-- What a packet says. -/
structure Frame where
  raceOn : Bool
  timestampMs : UInt32
  engineMaxRpm : Double
  engineIdleRpm : Double
  engineRpm : Double
  speedMps : Double
  hasDash : Bool
  powerW : Double
  torqueNm : Double
  boost : Double
  fuel : Double
  distanceM : Double
  accel : UInt8
  brake : UInt8
  clutch : UInt8
  handbrake : UInt8
  gear : UInt8
  steer : Int8
  format : String
deriving DecidableEq

/-- The byte at an offset; every offset read lies inside the accepted size. -/
def byteAt (d : List UInt8) (i : Nat) : UInt8 := d.getD i 0

def u32 (d : List UInt8) (i : Nat) : UInt32 :=
  (byteAt d i).toUInt32 ||| ((byteAt d (i + 1)).toUInt32 <<< 8) |||
    ((byteAt d (i + 2)).toUInt32 <<< 16) ||| ((byteAt d (i + 3)).toUInt32 <<< 24)

def s32 (d : List UInt8) (i : Nat) : Int32 := (u32 d i).toInt32

def f32 (d : List UInt8) (i : Nat) : Double := Float32.toDouble (u32 d i)

/-- The offset of the dash block for a packet size, none when the size has no dash block. -/
def dashOffset (len : Nat) : Option Nat :=
  if len = 311 then some 232
  -- One title puts twelve more bytes between the blocks.
  else if len = 324 then some 244
  else if len = 331 then some 232
  else none

/--
The length of a velocity, computed in single precision.

How often its sums and products are rounded is up to the target, so no law is asked of it.
-/
abbrev Length := Double → Double → Double → Double

/-- The frame of a sled block on its own, with every dash field at its default. -/
def parseSled (length : Length) (d : List UInt8) : Frame where
  raceOn := s32 d 0 != 0
  timestampMs := u32 d 4
  engineMaxRpm := f32 d 8
  engineIdleRpm := f32 d 12
  engineRpm := f32 d 16
  speedMps := length (f32 d 32) (f32 d 36) (f32 d 40)
  hasDash := false
  powerW := .finite 0
  torqueNm := .finite 0
  boost := .finite 0
  fuel := .finite 0
  distanceM := .finite 0
  accel := 0
  brake := 0
  clutch := 0
  handbrake := 0
  gear := 0
  steer := 0
  format := "sled"

/-- The frame with the fields of the dash block at an offset, which also has the better speed. -/
def parseDash (d : List UInt8) (base : Nat) (f : Frame) : Frame :=
  { f with
    hasDash := true
    speedMps := f32 d (base + 12)
    powerW := f32 d (base + 16)
    torqueNm := f32 d (base + 20)
    boost := f32 d (base + 40)
    fuel := f32 d (base + 44)
    distanceM := f32 d (base + 48)
    accel := byteAt d (base + 71)
    brake := byteAt d (base + 72)
    clutch := byteAt d (base + 73)
    handbrake := byteAt d (base + 74)
    gear := byteAt d (base + 75)
    steer := (byteAt d (base + 76)).toInt8
    format :=
      if d.length = 311 then "fm7-dash" else if d.length = 324 then "fh4/fh5" else "fm2023" }

/-- The checks on a frame without a dash block. -/
def Frame.sledValid (f : Frame) : Bool := f.engineRpm.isFinite && f.speedMps.isFinite

/-- The checks on a frame with one, which also bound the fuel level. -/
def Frame.dashValid (f : Frame) : Bool :=
  -- The distance is not among the fields that are checked.
  f.engineRpm.isFinite && f.speedMps.isFinite && f.powerW.isFinite && f.fuel.isFinite &&
    (Double.finite 0).le f.fuel && f.fuel.le (.finite 1)

/-- Parse a packet; none when its size is unknown or a checked field is no number. -/
def parse (length : Length) (d : List UInt8) : Option Frame :=
  if d.length ≠ 232 ∧ dashOffset d.length = none then none
  else
    let f := parseSled length d
    match dashOffset d.length with
    | none => if f.sledValid then some f else none
    | some base =>
      let f := parseDash d base f
      if f.dashValid then some f else none

end CanProxy.Forza
