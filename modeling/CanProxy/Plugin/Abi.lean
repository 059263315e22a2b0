import CanProxy.Lib.Bits
import CanProxy.Lib.Double

/-! The plugin interface: signals, lamps, enumerated values, and the vehicle state a plugin publishes. -/

namespace CanProxy

open Numeric

/-- The signals a plugin can advertise, in the order their bits are numbered. -/
inductive Signal where
  | speed | rpm | gear | powerState | motorPower | packVoltage | packCurrent | soc | soh | range
  | consumption | chargingState | odometer | ambientTemp | cabinTemp | coolantTemp | fuelLevel
  | auxBattery | ecoScore | speedLimit | collisionRisk | laneState | leadGap
deriving DecidableEq

namespace Signal

/-- Every signal, in bit order. -/
def all : List Signal :=
  [speed, rpm, gear, powerState, motorPower, packVoltage, packCurrent, soc, soh, range, consumption,
    chargingState, odometer, ambientTemp, cabinTemp, coolantTemp, fuelLevel, auxBattery, ecoScore,
    speedLimit, collisionRisk, laneState, leadGap]

/-- The bit position of a signal in the capable and valid masks. -/
def index (sig : Signal) : Nat := sig.ctorIdx

/-- The signal's bit as a mask. -/
def bit (sig : Signal) : UInt32 := Bits.single sig.index

theorem mem_all (sig : Signal) : sig ∈ all := by
  -- The list names every constructor.
  cases sig <;> decide

theorem index_lt (sig : Signal) : sig.index < 23 := by
  -- There are twenty-three constructors, numbered from zero.
  cases sig <;> decide

theorem index_inj {a b : Signal} : a.index = b.index ↔ a = b := by
  refine ⟨fun same => ?_, congrArg index⟩
  -- The list of all signals is in bit order, so a position names one signal.
  have place (sig : Signal) : all[sig.index]? = some sig := by cases sig <;> rfl
  have named := place a
  rw [same, place b] at named
  exact (Option.some.inj named).symm

end Signal

/-- The warning lamps a plugin can light, in the order their bits are numbered. -/
inductive Lamp where
  | engine | oil | battery | brake | turnLeft | turnRight | highBeam | door | seatbelt | abs | traction
  | tpms | evReady | charging | limitedPower | lowTractionBattery | parkBrake | lowFuel | fog
  | hvSystemFault
deriving DecidableEq

namespace Lamp

/-- Every lamp, in bit order. -/
def all : List Lamp :=
  [engine, oil, battery, brake, turnLeft, turnRight, highBeam, door, seatbelt, abs, traction, tpms,
    evReady, charging, limitedPower, lowTractionBattery, parkBrake, lowFuel, fog, hvSystemFault]

/-- The bit position of a lamp in the lamp mask. -/
def index (lamp : Lamp) : Nat := lamp.ctorIdx

/-- The lamp's bit as a mask. -/
def bit (lamp : Lamp) : UInt32 := Bits.single lamp.index

end Lamp

/-! The enumerated values a plugin writes into the integer fields of its state. -/

@[match_pattern] abbrev cpGearP : ℤ := 0
@[match_pattern] abbrev cpGearR : ℤ := 1
@[match_pattern] abbrev cpGearN : ℤ := 2
@[match_pattern] abbrev cpGearD : ℤ := 3
@[match_pattern] abbrev cpGearL : ℤ := 4

@[match_pattern] abbrev cpPowerOff : ℤ := 0
@[match_pattern] abbrev cpPowerAcc : ℤ := 1
@[match_pattern] abbrev cpPowerOn : ℤ := 2
@[match_pattern] abbrev cpPowerReady : ℤ := 3

@[match_pattern] abbrev cpChargingNone : ℤ := 0
@[match_pattern] abbrev cpChargingAc : ℤ := 1
@[match_pattern] abbrev cpChargingDc : ℤ := 2
@[match_pattern] abbrev cpChargingComplete : ℤ := 3

@[match_pattern] abbrev cpDrivetrainIce : ℤ := 1
@[match_pattern] abbrev cpDrivetrainBev : ℤ := 2
@[match_pattern] abbrev cpDrivetrainHev : ℤ := 3
@[match_pattern] abbrev cpDrivetrainPhev : ℤ := 4
@[match_pattern] abbrev cpDrivetrainFcev : ℤ := 5

@[match_pattern] abbrev cpSourceSimulated : ℤ := 0
@[match_pattern] abbrev cpSourceEmulator : ℤ := 1
@[match_pattern] abbrev cpSourceLive : ℤ := 2
@[match_pattern] abbrev cpSourceReplay : ℤ := 3

@[match_pattern] abbrev cpRiskNone : ℤ := 0
@[match_pattern] abbrev cpRiskLow : ℤ := 1
@[match_pattern] abbrev cpRiskMedium : ℤ := 2
@[match_pattern] abbrev cpRiskHigh : ℤ := 3

abbrev cpLaneLeftSeen : UInt32 := 1
abbrev cpLaneRightSeen : UInt32 := 2

/-- What a plugin publishes: masks, identity, and physical values; a value without its bits is ignored. -/
structure VehicleState where
  capable : UInt32
  valid : UInt32
  drivetrain : ℤ
  source : ℤ
  vehicleId : UInt32
  speedKmh : Double
  rpm : Double
  gear : ℤ
  powerState : ℤ
  motorPowerKw : Double
  packVoltageV : Double
  packCurrentA : Double
  socPct : Double
  sohPct : Double
  rangeKm : Double
  consumptionWhKm : Double
  chargingState : ℤ
  odometerKm : Double
  ambientC : Double
  cabinC : Double
  coolantC : Double
  fuelPct : Double
  auxBatteryV : Double
  lamps : UInt32
  ecoScore : ℤ
  speedLimitKmh : ℤ
  collisionRisk : ℤ
  laneState : UInt32
  leadGapM : Double
deriving DecidableEq

/-- The state with every field zero. -/
def VehicleState.zero : VehicleState where
  capable := 0
  valid := 0
  drivetrain := 0
  source := 0
  vehicleId := 0
  speedKmh := .finite 0
  rpm := .finite 0
  gear := 0
  powerState := 0
  motorPowerKw := .finite 0
  packVoltageV := .finite 0
  packCurrentA := .finite 0
  socPct := .finite 0
  sohPct := .finite 0
  rangeKm := .finite 0
  consumptionWhKm := .finite 0
  chargingState := 0
  odometerKm := .finite 0
  ambientC := .finite 0
  cabinC := .finite 0
  coolantC := .finite 0
  fuelPct := .finite 0
  auxBatteryV := .finite 0
  lamps := 0
  ecoScore := 0
  speedLimitKmh := 0
  collisionRisk := 0
  laneState := 0
  leadGapM := .finite 0

/-- One byte of the FNV-1a hash. -/
def hashByte (h : UInt32) (b : UInt8) : UInt32 := (h ^^^ b.toUInt32) * 0x01000193

/-- A stable identifier from a plugin's name and a vehicle's number, the name alone without a number. -/
def vehicleId (pluginName : List UInt8) (vin : Option (List UInt8)) : UInt32 :=
  let h := pluginName.foldl hashByte 0x811C9DC5
  -- A missing number and an empty one leave the name's hash alone, without the separating slash.
  match vin with
  | some (first :: rest) => (first :: rest).foldl hashByte (hashByte h 0x2F)
  | _ => h

end CanProxy
