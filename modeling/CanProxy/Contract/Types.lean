import CanProxy.Lib.Bits
import CanProxy.Lib.Double

/-! The wire contract's identifiers, cycle times, enumerations, and decoded frame structures. -/

namespace CanProxy

open Numeric

/-- The contract version written into every status frame. -/
def contractMajor : UInt8 := 1

/-- The additive revision written into every status frame. -/
def contractMinor : UInt8 := 1

/-- The nine frames of the contract. -/
inductive FrameId where
  | status | identity | motion | edrive | telltales | energy | trip | thermal | assist
deriving DecidableEq

/-- The 11-bit CAN identifier a frame is sent under. -/
def FrameId.code : FrameId → UInt32
  | .status => 0x400
  | .identity => 0x401
  | .motion => 0x410
  | .edrive => 0x411
  | .telltales => 0x420
  | .energy => 0x430
  | .trip => 0x431
  | .thermal => 0x440
  | .assist => 0x450

/-- Cycle time in milliseconds for an identifier, zero outside the contract. -/
def cycleMs (id : UInt32) : Nat :=
  if id = FrameId.status.code then 100
  else if id = FrameId.identity.code then 1000
  else if id = FrameId.motion.code then 50
  else if id = FrameId.edrive.code then 50
  else if id = FrameId.telltales.code then 100
  else if id = FrameId.energy.code then 500
  else if id = FrameId.trip.code then 1000
  else if id = FrameId.thermal.code then 500
  else if id = FrameId.assist.code then 200
  else 0

/-- Every frame of the contract has a cycle. -/
theorem cycleMs_pos (id : FrameId) : 0 < cycleMs id.code := by
  -- The final branch is for foreign identifiers, which none of the nine is.
  cases id <;> decide

/-- The 8-bit pattern for a signal that is not available. -/
def snaU8 : UInt8 := 0xFF

/-- The signed 8-bit pattern for a signal that is not available. -/
def snaI8 : Int8 := -128

/-- The 16-bit pattern for a signal that is not available. -/
def snaU16 : UInt16 := 0xFFFF

/-- The signed 16-bit pattern for a signal that is not available. -/
def snaI16 : Int16 := -32768

/-- The 32-bit pattern for a signal that is not available. -/
def snaU32 : UInt32 := 0xFFFFFFFF

/-- The proxy's own state, as the status frame carries it. -/
inductive ProxyState where
  /-- Daemon up, plugin not yet reporting. -/
  | starting
  /-- Bus silent, or no ECU answering. -/
  | noVehicle
  /-- Vehicle present, some signals stale. -/
  | degraded
  /-- Vehicle present, all signals fresh. -/
  | ok
deriving DecidableEq

/-- The wire value of a proxy state. -/
def ProxyState.code : ProxyState → UInt8
  | .starting => 0
  | .noVehicle => 1
  | .degraded => 2
  | .ok => 3

/-- Different proxy states have different wire values. -/
theorem ProxyState.code_inj {a b : ProxyState} : a.code = b.code ↔ a = b := by
  -- The four wire values are pairwise different.
  cases a <;> cases b <;> decide

/-- Gear positions on the wire. -/
inductive Gear where
  | p | r | n | d | l
deriving DecidableEq

def Gear.code : Gear → UInt8
  | .p => 0
  | .r => 1
  | .n => 2
  | .d => 3
  | .l => 4

/-- Power states on the wire. -/
inductive PowerState where
  | off | acc | on | ready
deriving DecidableEq

def PowerState.code : PowerState → UInt8
  | .off => 0
  | .acc => 1
  | .on => 2
  | .ready => 3

/-- Charging states on the wire. -/
inductive ChargingState where
  | none | ac | dc | complete
deriving DecidableEq

def ChargingState.code : ChargingState → UInt8
  | .none => 0
  | .ac => 1
  | .dc => 2
  | .complete => 3

/-- Drivetrain kinds on the wire. -/
inductive Drivetrain where
  | unknown | ice | bev | hev | phev | fcev
deriving DecidableEq

def Drivetrain.code : Drivetrain → UInt8
  | .unknown => 0
  | .ice => 1
  | .bev => 2
  | .hev => 3
  | .phev => 4
  | .fcev => 5

/-- Where the vehicle data comes from. -/
inductive SourceKind where
  | simulated | emulator | live | replay
deriving DecidableEq

def SourceKind.code : SourceKind → UInt8
  | .simulated => 0
  | .emulator => 1
  | .live => 2
  | .replay => 3

/-- Forward collision risk levels on the wire. -/
inductive CollisionRisk where
  | none | low | medium | high
deriving DecidableEq

def CollisionRisk.code : CollisionRisk → UInt8
  | .none => 0
  | .low => 1
  | .medium => 2
  | .high => 3

/-- Capability bits, by position in the status frame's bitmap. -/
inductive Capability where
  | speed | rpm | gear | motorPower | packVi | soc | range | consumption | odometer | ambientTemp
  | coolantTemp | fuelLevel | auxBattery | soh | charging | cabinTemp | powerState | assist
deriving DecidableEq

/-- The position of a capability bit. -/
def Capability.index : Capability → Nat
  | .speed => 0
  | .rpm => 1
  | .gear => 2
  | .motorPower => 3
  | .packVi => 4
  | .soc => 5
  | .range => 6
  | .consumption => 7
  | .odometer => 8
  | .ambientTemp => 9
  | .coolantTemp => 10
  | .fuelLevel => 11
  | .auxBattery => 12
  | .soh => 13
  | .charging => 14
  | .cabinTemp => 15
  | .powerState => 16
  | .assist => 17

/-- The capability bit as a mask. -/
def Capability.bit (c : Capability) : UInt32 := Bits.single c.index

/-- Warning-lamp bits, by position in the telltale bitmap. -/
inductive Telltale where
  | engine | oil | battery | brake | left | right | highbeam | door | seatbelt | abs | traction | tpms
  | evReady | charging | limitedPower | lowTractionBattery | parkBrake | lowFuel | fog
  | hvSystemFault
deriving DecidableEq

/-- The position of a warning-lamp bit. -/
def Telltale.index : Telltale → Nat
  | .engine => 0
  | .oil => 1
  | .battery => 2
  | .brake => 3
  | .left => 4
  | .right => 5
  | .highbeam => 6
  | .door => 7
  | .seatbelt => 8
  | .abs => 9
  | .traction => 10
  | .tpms => 11
  | .evReady => 12
  | .charging => 13
  | .limitedPower => 14
  | .lowTractionBattery => 15
  | .parkBrake => 16
  | .lowFuel => 17
  | .fog => 18
  | .hvSystemFault => 19

/-- The warning-lamp bit as a mask. -/
def Telltale.bit (t : Telltale) : UInt32 := Bits.single t.index

/-- Bits 18 to 31 of the capability bitmap must be zero. -/
def capReservedMask : UInt32 := 0xFFFC0000

/-- Bits 20 to 31 of the telltale bitmap must be zero. -/
def ttReservedMask : UInt32 := 0xFFF00000

/-- The four lane bits that carry meaning. -/
def laneValidMask : UInt8 := 0x0F

/-- Heartbeat: version, rolling counter, proxy state, and capability bitmap. -/
structure Status where
  contractMajor : UInt8
  contractMinor : UInt8
  counter : UInt8
  proxyState : UInt8
  capabilities : UInt32

/-- What kind of vehicle this is and which plugin speaks for it. -/
structure Identity where
  drivetrain : UInt8
  sourceKind : UInt8
  pluginMajor : UInt8
  pluginMinor : UInt8
  vehicleId : UInt32

/-- Speed in 0.01 km/h, engine or motor speed, gear, and power state. -/
structure Motion where
  speedKmh : Double
  speedValid : Bool
  rpm : UInt16
  rpmValid : Bool
  gear : UInt8
  gearValid : Bool
  powerState : UInt8
  powerStateValid : Bool

/-- Motor power in 0.1 kW, pack voltage in 0.1 V, and pack current in 0.1 A. -/
structure Edrive where
  motorPowerKw : Double
  motorPowerValid : Bool
  packVoltageV : Double
  packVoltageValid : Bool
  packCurrentA : Double
  packCurrentValid : Bool

/-- The warning-lamp bitmap. -/
structure Telltales where
  bits : UInt32

/-- Charge and health in 0.5 %, range in km, consumption in Wh/km, and charging state. -/
structure Energy where
  socPct : Double
  socValid : Bool
  sohPct : Double
  sohValid : Bool
  rangeKm : UInt16
  rangeValid : Bool
  consumptionWhKm : Int16
  consumptionValid : Bool
  chargingState : UInt8
  chargingStateValid : Bool

/-- Odometer in 0.1 km, and ambient and cabin temperature in whole degrees. -/
structure Trip where
  odometerKm : Double
  odometerValid : Bool
  ambientC : Int8
  ambientValid : Bool
  cabinC : Int8
  cabinValid : Bool

/-- Coolant temperature in whole degrees, fuel in 0.5 %, and auxiliary battery in 0.01 V. -/
structure Thermal where
  coolantC : Int8
  coolantValid : Bool
  fuelPct : Double
  fuelValid : Bool
  auxBatteryV : Double
  auxBatteryValid : Bool

/-- Eco score, posted limit, collision risk, lane bits, and lead gap in 0.1 m. -/
structure Assist where
  ecoScore : UInt8
  ecoScoreValid : Bool
  speedLimitKmh : UInt8
  speedLimitValid : Bool
  collisionRisk : UInt8
  collisionRiskValid : Bool
  laneState : UInt8
  laneStateValid : Bool
  leadGapM : Double
  leadGapValid : Bool

end CanProxy
