import CanProxy.Contract.Pack
import CanProxy.Plugin.Abi

/-! The only place where the plugin interface meets the wire contract. -/

namespace CanProxy

open Numeric

/-- The capability a signal is advertised under; some signals share one. -/
def capabilityFor : Signal → Capability
  -- Pack voltage and current share a bit, and so do the five driver-assist signals.
  | .speed => .speed
  | .rpm => .rpm
  | .gear => .gear
  | .powerState => .powerState
  | .motorPower => .motorPower
  | .packVoltage => .packVi
  | .packCurrent => .packVi
  | .soc => .soc
  | .soh => .soh
  | .range => .range
  | .consumption => .consumption
  | .chargingState => .charging
  | .odometer => .odometer
  | .ambientTemp => .ambientTemp
  | .cabinTemp => .cabinTemp
  | .coolantTemp => .coolantTemp
  | .fuelLevel => .fuelLevel
  | .auxBattery => .auxBattery
  | .ecoScore => .assist
  | .speedLimit => .assist
  | .collisionRisk => .assist
  | .laneState => .assist
  | .leadGap => .assist

/-- The contract capability bit of a signal. -/
def capabilityBitFor (sig : Signal) : UInt32 := (capabilityFor sig).bit

/-- The capability bitmap of a capable mask. -/
def capabilitiesFrom (capableMask : UInt32) : UInt32 :=
  -- Bits of the mask beyond the last signal belong to none and are never asked for.
  Signal.all.foldl (fun caps sig =>
    if capableMask &&& sig.bit != 0 then caps ||| capabilityBitFor sig else caps) 0

/-- The warning lamp on the wire for each lamp of the plugin interface. -/
def telltaleFor : Lamp → Telltale
  | .engine => .engine
  | .oil => .oil
  | .battery => .battery
  | .brake => .brake
  | .turnLeft => .left
  | .turnRight => .right
  | .highBeam => .highbeam
  | .door => .door
  | .seatbelt => .seatbelt
  | .abs => .abs
  | .traction => .traction
  | .tpms => .tpms
  | .evReady => .evReady
  | .charging => .charging
  | .limitedPower => .limitedPower
  | .lowTractionBattery => .lowTractionBattery
  | .parkBrake => .parkBrake
  | .lowFuel => .lowFuel
  | .fog => .fog
  | .hvSystemFault => .hvSystemFault

/-- The contract telltale bit of a lamp. -/
def telltaleBitFor (lamp : Lamp) : UInt32 := (telltaleFor lamp).bit

/-- The telltale bitmap of a lamp mask. -/
def telltalesFrom (lampsMask : UInt32) : UInt32 :=
  Lamp.all.foldl (fun bits lamp =>
    if lampsMask &&& lamp.bit != 0 then bits ||| telltaleBitFor lamp else bits) 0

/-- Gear on the wire, not available for a number that names no gear. -/
def gearFrom : ℤ → UInt8
  -- A number outside the enumeration becomes the reserved pattern rather than a guess.
  | cpGearP => Gear.p.code
  | cpGearR => Gear.r.code
  | cpGearN => Gear.n.code
  | cpGearD => Gear.d.code
  | cpGearL => Gear.l.code
  | _ => snaU8

/-- Power state on the wire, not available for a number that names no state. -/
def powerStateFrom : ℤ → UInt8
  | cpPowerOff => PowerState.off.code
  | cpPowerAcc => PowerState.acc.code
  | cpPowerOn => PowerState.on.code
  | cpPowerReady => PowerState.ready.code
  | _ => snaU8

/-- Charging state on the wire, not available for a number that names no state. -/
def chargingStateFrom : ℤ → UInt8
  | cpChargingNone => ChargingState.none.code
  | cpChargingAc => ChargingState.ac.code
  | cpChargingDc => ChargingState.dc.code
  | cpChargingComplete => ChargingState.complete.code
  | _ => snaU8

/-- Drivetrain on the wire, unknown by default. -/
def drivetrainFrom : ℤ → UInt8
  -- Identity fields have no reserved pattern, so an unknown number falls back to a defined one.
  | cpDrivetrainIce => Drivetrain.ice.code
  | cpDrivetrainBev => Drivetrain.bev.code
  | cpDrivetrainHev => Drivetrain.hev.code
  | cpDrivetrainPhev => Drivetrain.phev.code
  | cpDrivetrainFcev => Drivetrain.fcev.code
  | _ => Drivetrain.unknown.code

/-- Source kind on the wire, simulated by default. -/
def sourceKindFrom : ℤ → UInt8
  | cpSourceEmulator => SourceKind.emulator.code
  | cpSourceLive => SourceKind.live.code
  | cpSourceReplay => SourceKind.replay.code
  | _ => SourceKind.simulated.code

/-- Collision risk on the wire, none by default. -/
def collisionRiskFrom : ℤ → UInt8
  -- Unlike gear and the two states, an unknown risk is sent as no risk and stays available.
  | cpRiskLow => CollisionRisk.low.code
  | cpRiskMedium => CollisionRisk.medium.code
  | cpRiskHigh => CollisionRisk.high.code
  | _ => CollisionRisk.none.code

/-- The nine decoded frames. -/
structure Frames where
  status : Status
  identity : Identity
  motion : Motion
  edrive : Edrive
  telltales : Telltales
  energy : Energy
  trip : Trip
  thermal : Thermal
  assist : Assist

/-- A signal is sent when the plugin is live, advertises it, and calls its value current. -/
def has (s : VehicleState) (live : Bool) (sig : Signal) : Bool :=
  live && s.valid &&& sig.bit != 0 && s.capable &&& sig.bit != 0

/-- An integer cut to a byte range. -/
def clampByte (v hi : ℤ) : UInt8 := UInt8.ofInt (if v < 0 then 0 else if hi < v then hi else v)

section FramesFrom

variable (m : Machine)

/-- A nonnegative quantity rounded to sixteen bits, stopping at 65534. -/
def wholeU16 (v : Double) : UInt16 :=
  -- Clamping precedes the conversion here, so the conversion is always in range for a number.
  if v.lt (.finite 0) then 0
  else if (Double.finite 65534).lt v then 65534
  else m.toUInt16 (v + .finite (1 / 2))

/-- A signed quantity clamped as a double and then rounded to sixteen bits. -/
def wholeI16 (v : Double) : Int16 :=
  -- The bounds are those of the encoding without its reserved pattern.
  let c := v
  let c := if (Double.finite 32767).lt c then .finite 32767 else c
  let c := if c.lt (.finite (-32767)) then .finite (-32767) else c
  (canproxyRound m c).toInt16

/-- A temperature pre-rounded to whole degrees. -/
def wholeDegrees (v : Double) : Int8 := encI8 m v (.finite 1) true

/-- Fill the contract frames from a vehicle state; with `live` false every signal is not available. -/
def framesFrom (s : VehicleState) (live : Bool) (proxyState counter pluginMajor pluginMinor : UInt8) :
    Frames where
  status :=
    { contractMajor := contractMajor
      contractMinor := contractMinor
      counter := counter
      proxyState := proxyState
      -- Capabilities do not depend on the link: they say what the vehicle could report.
      capabilities := capabilitiesFrom s.capable }
  identity :=
    { drivetrain := drivetrainFrom s.drivetrain
      sourceKind := sourceKindFrom s.source
      pluginMajor := pluginMajor
      pluginMinor := pluginMinor
      vehicleId := s.vehicleId }
  motion :=
    { speedValid := has s live .speed
      speedKmh := s.speedKmh
      rpmValid := has s live .rpm
      rpm := wholeU16 m s.rpm
      -- The three enumerations are gated a second time, on the value being a defined one.
      gearValid := has s live .gear && gearFrom s.gear != snaU8
      gear := gearFrom s.gear
      powerStateValid := has s live .powerState && powerStateFrom s.powerState != snaU8
      powerState := powerStateFrom s.powerState }
  edrive :=
    { motorPowerValid := has s live .motorPower
      motorPowerKw := s.motorPowerKw
      packVoltageValid := has s live .packVoltage
      packVoltageV := s.packVoltageV
      packCurrentValid := has s live .packCurrent
      packCurrentA := s.packCurrentA }
  -- Lamps have no validity bits, so a vehicle that is not live shows none.
  telltales := { bits := if live then telltalesFrom s.lamps else 0 }
  energy :=
    { socValid := has s live .soc
      socPct := s.socPct
      sohValid := has s live .soh
      sohPct := s.sohPct
      rangeValid := has s live .range
      rangeKm := wholeU16 m s.rangeKm
      consumptionValid := has s live .consumption
      consumptionWhKm := wholeI16 m s.consumptionWhKm
      chargingStateValid := has s live .chargingState && chargingStateFrom s.chargingState != snaU8
      chargingState := chargingStateFrom s.chargingState }
  trip :=
    { odometerValid := has s live .odometer
      odometerKm := s.odometerKm
      ambientValid := has s live .ambientTemp
      ambientC := wholeDegrees m s.ambientC
      cabinValid := has s live .cabinTemp
      cabinC := wholeDegrees m s.cabinC }
  thermal :=
    { coolantValid := has s live .coolantTemp
      coolantC := wholeDegrees m s.coolantC
      fuelValid := has s live .fuelLevel
      fuelPct := s.fuelPct
      auxBatteryValid := has s live .auxBattery
      auxBatteryV := s.auxBatteryV }
  assist :=
    { ecoScoreValid := has s live .ecoScore
      ecoScore := clampByte s.ecoScore 100
      speedLimitValid := has s live .speedLimit
      speedLimitKmh := clampByte s.speedLimitKmh 254
      -- The risk is not gated on its value: its mapping has a default instead.
      collisionRiskValid := has s live .collisionRisk
      collisionRisk := collisionRiskFrom s.collisionRisk
      laneStateValid := has s live .laneState
      laneState := (s.laneState &&& laneValidMask.toUInt32).toUInt8
      leadGapValid := has s live .leadGap
      leadGapM := s.leadGapM }

end FramesFrom

end CanProxy
