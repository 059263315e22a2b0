import CanProxy.Contract.Encode

/-! Packing each decoded frame into its eight bytes, and unpacking it again. -/

namespace CanProxy

open Numeric

/-- The heartbeat, with reserved capability bits stripped. -/
def packStatus (s : Status) : FrameData :=
  -- The capability word is masked on the way out, so reserved bits are always sent as zero.
  let d := clear
  let d := d.set 0 s.contractMajor
  let d := d.set 1 s.contractMinor
  let d := d.set 2 s.counter
  let d := d.set 3 s.proxyState
  putU32le d 4 (s.capabilities &&& ~~~capReservedMask)

def unpackStatus (d : FrameData) : Status where
  contractMajor := d[0]
  contractMinor := d[1]
  counter := d[2]
  proxyState := d[3]
  capabilities := getU32le d 4

/-- The vehicle's identity. -/
def packIdentity (s : Identity) : FrameData :=
  let d := clear
  let d := d.set 0 s.drivetrain
  let d := d.set 1 s.sourceKind
  let d := d.set 2 s.pluginMajor
  let d := d.set 3 s.pluginMinor
  putU32le d 4 s.vehicleId

def unpackIdentity (d : FrameData) : Identity where
  drivetrain := d[0]
  sourceKind := d[1]
  pluginMajor := d[2]
  pluginMinor := d[3]
  vehicleId := getU32le d 4

section Pack

variable (m : Machine)

/-- Motion; gear and power state go out as they are. -/
def packMotion (s : Motion) : FrameData :=
  -- The engine speed steps back from the reserved pattern; gear and power state do not.
  let d := clear
  let d := putU16le d 0 (encU16 m s.speedKmh (.finite (1 / 100)) s.speedValid)
  let d := putU16le d 2 (if s.rpmValid then if s.rpm = 0xFFFF then 0xFFFE else s.rpm else snaU16)
  let d := d.set 4 (if s.gearValid then s.gear else snaU8)
  d.set 5 (if s.powerStateValid then s.powerState else snaU8)

/-- Electric drive; power and current are signed. -/
def packEdrive (s : Edrive) : FrameData :=
  -- The signed codes travel as the unsigned words with the same bits.
  let d := clear
  let d := putU16le d 0 (encI16 m s.motorPowerKw (.finite (1 / 10)) s.motorPowerValid).toUInt16
  let d := putU16le d 2 (encU16 m s.packVoltageV (.finite (1 / 10)) s.packVoltageValid)
  putU16le d 4 (encI16 m s.packCurrentA (.finite (1 / 10)) s.packCurrentValid).toUInt16

/-- Warning lamps, with reserved bits stripped. -/
def packTelltales (s : Telltales) : FrameData :=
  putU32le clear 0 (s.bits &&& ~~~ttReservedMask)

/-- Energy; the charging state goes out as it is. -/
def packEnergy (s : Energy) : FrameData :=
  -- Range and consumption step back from their reserved patterns; the charging state does not.
  let d := clear
  let d := d.set 0 (encU8 m s.socPct (.finite (1 / 2)) s.socValid 200)
  let d := d.set 1 (encU8 m s.sohPct (.finite (1 / 2)) s.sohValid 200)
  let d := putU16le d 2
    (if s.rangeValid then if s.rangeKm = 0xFFFF then 0xFFFE else s.rangeKm else snaU16)
  let d := putU16le d 4
    (if s.consumptionValid then
      if s.consumptionWhKm = snaI16 then -32767 else s.consumptionWhKm
    else snaI16).toUInt16
  d.set 6 (if s.chargingStateValid then s.chargingState else snaU8)

/-- Trip and environment; whole degrees pass through the signed byte encoder. -/
def packTrip (s : Trip) : FrameData :=
  -- Temperatures are already whole degrees, and the encoder rounds them a second time.
  let d := clear
  let d := putU32le d 0 (encU32 m s.odometerKm (.finite (1 / 10)) s.odometerValid)
  let d := d.set 4 (encI8 m (.ofInt s.ambientC.toInt) (.finite 1) s.ambientValid).toUInt8
  d.set 5 (encI8 m (.ofInt s.cabinC.toInt) (.finite 1) s.cabinValid).toUInt8

/-- Thermal and auxiliary signals. -/
def packThermal (s : Thermal) : FrameData :=
  let d := clear
  let d := d.set 0 (encI8 m (.ofInt s.coolantC.toInt) (.finite 1) s.coolantValid).toUInt8
  let d := d.set 1 (encU8 m s.fuelPct (.finite (1 / 2)) s.fuelValid 200)
  putU16le d 2 (encU16 m s.auxBatteryV (.finite (1 / 100)) s.auxBatteryValid)

/-- Driver assist; the lane byte is masked and the collision risk goes out as it is. -/
def packAssist (s : Assist) : FrameData :=
  -- The lane mask keeps the byte clear of the reserved pattern; nothing does for the collision risk.
  let d := clear
  let d := d.set 0 (encU8 m (.ofInt s.ecoScore.toNat) (.finite 1) s.ecoScoreValid 100)
  let d := d.set 1
    (if s.speedLimitValid then if s.speedLimitKmh = snaU8 then 0xFE else s.speedLimitKmh else snaU8)
  let d := d.set 2 (if s.collisionRiskValid then s.collisionRisk else snaU8)
  let d := d.set 3 (if s.laneStateValid then s.laneState &&& laneValidMask else snaU8)
  putU16le d 4 (encU16 m s.leadGapM (.finite (1 / 10)) s.leadGapValid)

end Pack

/-- A raw count of least significant bits as a physical value, zero when not available. -/
def scaledValue (valid : Bool) (raw : ℤ) (lsb : ℚ) : Double :=
  if valid then .finite (raw * lsb) else .finite 0

def unpackMotion (d : FrameData) : Motion :=
  -- A signal that is not available reads as zero with its flag cleared.
  let speed := getU16le d 0
  let rpm := getU16le d 2
  { speedValid := speed != snaU16
    speedKmh := scaledValue (speed != snaU16) speed.toNat (1 / 100)
    rpmValid := rpm != snaU16
    rpm := if rpm != snaU16 then rpm else 0
    gearValid := d[4] != snaU8
    gear := if d[4] != snaU8 then d[4] else 0
    powerStateValid := d[5] != snaU8
    powerState := if d[5] != snaU8 then d[5] else 0 }

def unpackEdrive (d : FrameData) : Edrive :=
  let power := (getU16le d 0).toInt16
  let voltage := getU16le d 2
  let current := (getU16le d 4).toInt16
  { motorPowerValid := power != snaI16
    motorPowerKw := scaledValue (power != snaI16) power.toInt (1 / 10)
    packVoltageValid := voltage != snaU16
    packVoltageV := scaledValue (voltage != snaU16) voltage.toNat (1 / 10)
    packCurrentValid := current != snaI16
    packCurrentA := scaledValue (current != snaI16) current.toInt (1 / 10) }

def unpackTelltales (d : FrameData) : Telltales where
  bits := getU32le d 0

def unpackEnergy (d : FrameData) : Energy :=
  let range := getU16le d 2
  let consumption := (getU16le d 4).toInt16
  { socValid := d[0] != snaU8
    socPct := scaledValue (d[0] != snaU8) d[0].toNat (1 / 2)
    sohValid := d[1] != snaU8
    sohPct := scaledValue (d[1] != snaU8) d[1].toNat (1 / 2)
    rangeValid := range != snaU16
    rangeKm := if range != snaU16 then range else 0
    consumptionValid := consumption != snaI16
    consumptionWhKm := if consumption != snaI16 then consumption else 0
    chargingStateValid := d[6] != snaU8
    chargingState := if d[6] != snaU8 then d[6] else 0 }

def unpackTrip (d : FrameData) : Trip :=
  -- Temperature bytes are read as signed before they are compared with the reserved pattern.
  let odometer := getU32le d 0
  { odometerValid := odometer != snaU32
    odometerKm := scaledValue (odometer != snaU32) odometer.toNat (1 / 10)
    ambientValid := d[4].toInt8 != snaI8
    ambientC := if d[4].toInt8 != snaI8 then d[4].toInt8 else 0
    cabinValid := d[5].toInt8 != snaI8
    cabinC := if d[5].toInt8 != snaI8 then d[5].toInt8 else 0 }

def unpackThermal (d : FrameData) : Thermal :=
  let battery := getU16le d 2
  { coolantValid := d[0].toInt8 != snaI8
    coolantC := if d[0].toInt8 != snaI8 then d[0].toInt8 else 0
    fuelValid := d[1] != snaU8
    fuelPct := scaledValue (d[1] != snaU8) d[1].toNat (1 / 2)
    auxBatteryValid := battery != snaU16
    auxBatteryV := scaledValue (battery != snaU16) battery.toNat (1 / 100) }

def unpackAssist (d : FrameData) : Assist :=
  let gap := getU16le d 4
  { ecoScoreValid := d[0] != snaU8
    ecoScore := if d[0] != snaU8 then d[0] else 0
    speedLimitValid := d[1] != snaU8
    speedLimitKmh := if d[1] != snaU8 then d[1] else 0
    collisionRiskValid := d[2] != snaU8
    collisionRisk := if d[2] != snaU8 then d[2] else 0
    laneStateValid := d[3] != snaU8
    laneState := if d[3] != snaU8 then d[3] else 0
    leadGapValid := gap != snaU16
    leadGapM := scaledValue (gap != snaU16) gap.toNat (1 / 10) }

/-- The bits of each frame that the contract keeps for later, which transmit as zero. -/
def reserved : FrameId → FrameData
  -- The two bitmaps name their reserved bits; the lane byte means only its low four.
  | .status => putU32le clear 4 capReservedMask
  | .identity => clear
  | .motion | .edrive | .trip => (clear.set 6 0xFF).set 7 0xFF
  | .telltales => putU32le (putU32le clear 4 0xFFFFFFFF) 0 ttReservedMask
  | .energy => clear.set 7 0xFF
  | .thermal => putU32le clear 4 0xFFFFFFFF
  | .assist => ((clear.set 3 (~~~laneValidMask)).set 6 0xFF).set 7 0xFF

end CanProxy
