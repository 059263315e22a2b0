import CanProxy.Core.Mapping

/-! The consumer's side of the wire: nine frames received, and what each says about every signal. -/

namespace CanProxy

open Numeric

/-- The frame that carries a signal. -/
def Signal.frame : Signal → FrameId
  | .speed | .rpm | .gear | .powerState => .motion
  | .motorPower | .packVoltage | .packCurrent => .edrive
  | .soc | .soh | .range | .consumption | .chargingState => .energy
  | .odometer | .ambientTemp | .cabinTemp => .trip
  | .coolantTemp | .fuelLevel | .auxBattery => .thermal
  | .ecoScore | .speedLimit | .collisionRisk | .laneState | .leadGap => .assist

/-- The bytes of each frame. -/
def Frames.wire (m : Machine) (f : Frames) : FrameId → FrameData
  -- Every frame has its own packer, and the three without scaled values need no conversions.
  | .status => packStatus f.status
  | .identity => packIdentity f.identity
  | .motion => packMotion m f.motion
  | .edrive => packEdrive m f.edrive
  | .telltales => packTelltales f.telltales
  | .energy => packEnergy m f.energy
  | .trip => packTrip m f.trip
  | .thermal => packThermal m f.thermal
  | .assist => packAssist m f.assist

/-- Unpack all nine frames. -/
def receive (bytes : FrameId → FrameData) : Frames where
  status := unpackStatus (bytes .status)
  identity := unpackIdentity (bytes .identity)
  motion := unpackMotion (bytes .motion)
  edrive := unpackEdrive (bytes .edrive)
  telltales := unpackTelltales (bytes .telltales)
  energy := unpackEnergy (bytes .energy)
  trip := unpackTrip (bytes .trip)
  thermal := unpackThermal (bytes .thermal)
  assist := unpackAssist (bytes .assist)

/-- The validity flag of a signal. -/
def Frames.available (f : Frames) : Signal → Bool
  | .speed => f.motion.speedValid
  | .rpm => f.motion.rpmValid
  | .gear => f.motion.gearValid
  | .powerState => f.motion.powerStateValid
  | .motorPower => f.edrive.motorPowerValid
  | .packVoltage => f.edrive.packVoltageValid
  | .packCurrent => f.edrive.packCurrentValid
  | .soc => f.energy.socValid
  | .soh => f.energy.sohValid
  | .range => f.energy.rangeValid
  | .consumption => f.energy.consumptionValid
  | .chargingState => f.energy.chargingStateValid
  | .odometer => f.trip.odometerValid
  | .ambientTemp => f.trip.ambientValid
  | .cabinTemp => f.trip.cabinValid
  | .coolantTemp => f.thermal.coolantValid
  | .fuelLevel => f.thermal.fuelValid
  | .auxBattery => f.thermal.auxBatteryValid
  | .ecoScore => f.assist.ecoScoreValid
  | .speedLimit => f.assist.speedLimitValid
  | .collisionRisk => f.assist.collisionRiskValid
  | .laneState => f.assist.laneStateValid
  | .leadGap => f.assist.leadGapValid

/-- The physical value of a signal in the decoded frames. -/
def Frames.reading (f : Frames) : Signal → Double
  -- Signals sent as whole numbers are read as the doubles of those numbers.
  | .speed => f.motion.speedKmh
  | .rpm => .ofInt f.motion.rpm.toNat
  | .gear => .ofInt f.motion.gear.toNat
  | .powerState => .ofInt f.motion.powerState.toNat
  | .motorPower => f.edrive.motorPowerKw
  | .packVoltage => f.edrive.packVoltageV
  | .packCurrent => f.edrive.packCurrentA
  | .soc => f.energy.socPct
  | .soh => f.energy.sohPct
  | .range => .ofInt f.energy.rangeKm.toNat
  | .consumption => .ofInt f.energy.consumptionWhKm.toInt
  | .chargingState => .ofInt f.energy.chargingState.toNat
  | .odometer => f.trip.odometerKm
  | .ambientTemp => .ofInt f.trip.ambientC.toInt
  | .cabinTemp => .ofInt f.trip.cabinC.toInt
  | .coolantTemp => .ofInt f.thermal.coolantC.toInt
  | .fuelLevel => f.thermal.fuelPct
  | .auxBattery => f.thermal.auxBatteryV
  | .ecoScore => .ofInt f.assist.ecoScore.toNat
  | .speedLimit => .ofInt f.assist.speedLimitKmh.toNat
  | .collisionRisk => .ofInt f.assist.collisionRisk.toNat
  | .laneState => .ofInt f.assist.laneState.toNat
  | .leadGap => f.assist.leadGapM

/-- The raw number that the bytes of the frames carry for a signal. -/
def rawCount (bytes : FrameId → FrameData) : Signal → ℤ
  -- Whole frames are little-endian; the signed fields are read as the words with the same bits.
  | .speed => (getU16le (bytes .motion) 0 Place.eight1).toNat
  | .rpm => (getU16le (bytes .motion) 2 Place.eight3).toNat
  | .gear => (getElem (bytes .motion) 4 Place.eight4).toNat
  | .powerState => (getElem (bytes .motion) 5 Place.eight5).toNat
  | .motorPower => (getU16le (bytes .edrive) 0 Place.eight1).toInt16.toInt
  | .packVoltage => (getU16le (bytes .edrive) 2 Place.eight3).toNat
  | .packCurrent => (getU16le (bytes .edrive) 4 Place.eight5).toInt16.toInt
  | .soc => (getElem (bytes .energy) 0 Place.eight0).toNat
  | .soh => (getElem (bytes .energy) 1 Place.eight1).toNat
  | .range => (getU16le (bytes .energy) 2 Place.eight3).toNat
  | .consumption => (getU16le (bytes .energy) 4 Place.eight5).toInt16.toInt
  | .chargingState => (getElem (bytes .energy) 6 Place.eight6).toNat
  | .odometer => (getU32le (bytes .trip) 0 Place.eight3).toNat
  | .ambientTemp => (getElem (bytes .trip) 4 Place.eight4).toInt8.toInt
  | .cabinTemp => (getElem (bytes .trip) 5 Place.eight5).toInt8.toInt
  | .coolantTemp => (getElem (bytes .thermal) 0 Place.eight0).toInt8.toInt
  | .fuelLevel => (getElem (bytes .thermal) 1 Place.eight1).toNat
  | .auxBattery => (getU16le (bytes .thermal) 2 Place.eight3).toNat
  | .ecoScore => (getElem (bytes .assist) 0 Place.eight0).toNat
  | .speedLimit => (getElem (bytes .assist) 1 Place.eight1).toNat
  | .collisionRisk => (getElem (bytes .assist) 2 Place.eight2).toNat
  | .laneState => (getElem (bytes .assist) 3 Place.eight3).toNat
  | .leadGap => (getU16le (bytes .assist) 4 Place.eight5).toNat

/-- The byte a packer passes through unchecked, for the four signals it does so. -/
def Frames.passedByte (f : Frames) : Signal → Option UInt8
  -- The scaled fields are clamped and the others substituted or masked, so none of those is listed.
  | .gear => some f.motion.gear
  | .powerState => some f.motion.powerState
  | .chargingState => some f.energy.chargingState
  | .collisionRisk => some f.assist.collisionRisk
  | _ => none

/-- The value a plugin published for a signal. -/
def VehicleState.quantity (s : VehicleState) : Signal → Double
  | .speed => s.speedKmh
  | .rpm => s.rpm
  | .gear => .ofInt s.gear
  | .powerState => .ofInt s.powerState
  | .motorPower => s.motorPowerKw
  | .packVoltage => s.packVoltageV
  | .packCurrent => s.packCurrentA
  | .soc => s.socPct
  | .soh => s.sohPct
  | .range => s.rangeKm
  | .consumption => s.consumptionWhKm
  | .chargingState => .ofInt s.chargingState
  | .odometer => s.odometerKm
  | .ambientTemp => s.ambientC
  | .cabinTemp => s.cabinC
  | .coolantTemp => s.coolantC
  | .fuelLevel => s.fuelPct
  | .auxBattery => s.auxBatteryV
  | .ecoScore => .ofInt s.ecoScore
  | .speedLimit => .ofInt s.speedLimitKmh
  | .collisionRisk => .ofInt s.collisionRisk
  | .laneState => .ofInt s.laneState.toNat
  | .leadGap => s.leadGapM

/-- Gear, power state, and charging state hold one of the defined enumerators. -/
def VehicleState.enumerated (s : VehicleState) : Signal → Bool
  -- Only these three mappings have a not-available case; every other signal is unconstrained.
  | .gear => [cpGearP, cpGearR, cpGearN, cpGearD, cpGearL].contains s.gear
  | .powerState => [cpPowerOff, cpPowerAcc, cpPowerOn, cpPowerReady].contains s.powerState
  | .chargingState =>
    [cpChargingNone, cpChargingAc, cpChargingDc, cpChargingComplete].contains s.chargingState
  | _ => true

/-- The grid a numeric signal is sent on: its least significant bit and the range of counts. -/
structure Scale where
  lsb : ℚ
  lo : ℤ
  hi : ℤ
  positive : 0 < lsb
  ordered : lo ≤ hi

/-- The grid of every numeric signal of the contract; enumerations and lane bits have none. -/
def Signal.scale? : Signal → Option Scale
  -- Every range stops one count short of the reserved pattern of its encoding, or earlier.
  | .speed | .auxBattery => some ⟨1 / 100, 0, 0xFFFE, by norm_num, by norm_num⟩
  | .rpm | .range => some ⟨1, 0, 0xFFFE, by norm_num, by norm_num⟩
  | .packVoltage | .leadGap => some ⟨1 / 10, 0, 0xFFFE, by norm_num, by norm_num⟩
  | .motorPower | .packCurrent => some ⟨1 / 10, -32767, 32767, by norm_num, by norm_num⟩
  | .consumption => some ⟨1, -32767, 32767, by norm_num, by norm_num⟩
  | .soc | .soh | .fuelLevel => some ⟨1 / 2, 0, 200, by norm_num, by norm_num⟩
  | .odometer => some ⟨1 / 10, 0, 0xFFFFFFFE, by norm_num, by norm_num⟩
  | .ambientTemp | .cabinTemp | .coolantTemp => some ⟨1, -127, 127, by norm_num, by norm_num⟩
  | .ecoScore => some ⟨1, 0, 100, by norm_num, by norm_num⟩
  | .speedLimit => some ⟨1, 0, 254, by norm_num, by norm_num⟩
  | .gear | .powerState | .chargingState | .collisionRisk | .laneState => none

end CanProxy
