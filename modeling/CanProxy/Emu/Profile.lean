import CanProxy.Lib.Double
import CanProxy.Obd.Uds

/-!
Decoders for the emulator's reference vehicle.

A decoder gets the record a plugin last wrote and returns it as it leaves it, with its verdict on the
bytes it was given.
-/

namespace CanProxy.Emu

open Numeric

/-- The four records a battery controller is asked for. -/
inductive Did where
  | pack | range | drive | assist
deriving DecidableEq

/-- The identifier a record is requested by. -/
def Did.code : Did → UInt16
  | .pack => 0x0101
  | .range => 0x0102
  | .drive => 0x0103
  | .assist => 0x0104

/-- The traction battery. -/
structure Pack where
  voltageV : Double
  currentA : Double
  socPct : Double
  sohPct : Double
  charging : ℤ
deriving DecidableEq

/-- The distance left and the consumption behind it. -/
structure Range where
  rangeKm : ℤ
  consumptionWhKm : ℤ
  odometerKm : Double
deriving DecidableEq

/-- The drivetrain. -/
structure Drive where
  gear : ℤ
  powerState : ℤ
  motorRpm : ℤ
  motorPowerKw : Double
deriving DecidableEq

/-- The driver assist systems. -/
structure Assist where
  ecoScore : ℤ
  speedLimitKmh : ℤ
  collisionRisk : ℤ
  laneState : UInt32
  leadGapM : Double
deriving DecidableEq

/-- A field scaled down by a power of ten or two. -/
def scaledDown (n d : ℤ) : Double := .ofInt n / .ofInt d

/-! The fields of each record, by their offsets. -/

def Pack.read (d : List UInt8) : Pack where
  voltageV := scaledDown (be16 d 0).toNat 10
  currentA := scaledDown (be16s d 2).toInt 10
  socPct := scaledDown (d.getD 4 0).toNat 2
  sohPct := scaledDown (d.getD 5 0).toNat 2
  charging := (d.getD 6 0).toNat

def Range.read (d : List UInt8) : Range where
  rangeKm := (be16 d 0).toNat
  consumptionWhKm := (be16s d 2).toInt
  odometerKm := scaledDown (be32 d 4).toNat 10

def Drive.read (d : List UInt8) : Drive where
  gear := (d.getD 0 0).toNat
  powerState := (d.getD 1 0).toNat
  motorRpm := (be16 d 2).toNat
  motorPowerKw := scaledDown (be16s d 4).toInt 10

def Assist.read (d : List UInt8) : Assist where
  ecoScore := (d.getD 0 0).toNat
  speedLimitKmh := (d.getD 1 0).toNat
  collisionRisk := (d.getD 2 0).toNat
  laneState := (d.getD 3 0 &&& 0x0F).toUInt32
  leadGapM := scaledDown (be16 d 4).toNat 10

/-- Write the pack record, and accept it unless the charging state is out of range. -/
def decodePack (d : List UInt8) (out : Pack) : Bool × Pack :=
  if d.length < 7 then (false, out)
  else
    -- The fields are written first, and only then is one of them checked.
    let out := Pack.read d
    (decide (out.charging ≤ 3), out)

/-- Write the range record; every long enough one is accepted. -/
def decodeRange (d : List UInt8) (out : Range) : Bool × Range :=
  -- No field of this record has a value that would be out of range.
  if d.length < 8 then (false, out) else (true, Range.read d)

/-- Write the drive record, and accept it unless the gear or the power state is out of range. -/
def decodeDrive (d : List UInt8) (out : Drive) : Bool × Drive :=
  if d.length < 6 then (false, out)
  else
    -- As for the battery, a record that is rejected has been written all the same.
    let out := Drive.read d
    (decide (out.gear ≤ 4) && decide (out.powerState ≤ 3), out)

/-- Write the assist record, and accept it unless the eco score or the collision risk is out of range. -/
def decodeAssist (d : List UInt8) (out : Assist) : Bool × Assist :=
  if d.length < 6 then (false, out)
  else
    -- The posted limit, the lanes and the gap are taken as they come.
    let out := Assist.read d
    (decide (out.ecoScore ≤ 100) && decide (out.collisionRisk ≤ 3), out)

/-- The last written record of each kind. -/
structure Records where
  pack : Pack
  range : Range
  drive : Drive
  assist : Assist
deriving DecidableEq

/-- The records before any was written. -/
def Records.zero : Records where
  pack := ⟨.finite 0, .finite 0, .finite 0, .finite 0, 0⟩
  range := ⟨0, 0, .finite 0⟩
  drive := ⟨0, 0, 0, .finite 0⟩
  assist := ⟨0, 0, 0, 0, .finite 0⟩

/-- Decode a record of one kind into its place. -/
def Records.decode (r : Records) (did : Did) (d : List UInt8) : Bool × Records :=
  -- Each kind has a place of its own, and a record touches no other.
  match did with
  | .pack => let (ok, pack) := decodePack d r.pack; (ok, { r with pack := pack })
  | .range => let (ok, range) := decodeRange d r.range; (ok, { r with range := range })
  | .drive => let (ok, drive) := decodeDrive d r.drive; (ok, { r with drive := drive })
  | .assist => let (ok, assist) := decodeAssist d r.assist; (ok, { r with assist := assist })

end CanProxy.Emu
