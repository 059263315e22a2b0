import CanProxy.Contract.Pack
import CanProxy.Proofs.Contract.Bytes
import CanProxy.Proofs.Contract.Encode

/-! What a consumer reads back from each packed frame. -/

namespace CanProxy

open Numeric

section Fields

/-- A value sent under a flag is read as it was sent, if at all. -/
private theorem guarded {α : Type*} (valid : Bool) (code sna zero : α) :
    (if valid then if valid then code else sna else zero) = if valid then code else zero := by
  -- The two tests of the flag agree, so the reserved pattern is never read as a value.
  cases valid <;> rfl

/-- A value sent under a flag is read as it was sent, if the consumer takes it as available. -/
private theorem guarded_and {α : Type*} (valid taken : Bool) (code sna zero : α) :
    (if valid && taken then if valid then code else sna else zero) =
      if valid && taken then code else zero := by
  -- The consumer's own test only narrows the flag.
  cases valid <;> rfl

variable {α : Type*} [DecidableEq α] (sna : α)

/-- A value that passes through unchanged reads as available unless it is the reserved pattern. -/
private theorem passed_available (valid : Bool) (code : α) :
    ((if valid then code else sna) != sna) = (valid && code != sna) := by
  -- A cleared flag sends the reserved pattern itself.
  cases valid <;> simp

/-- Replacing the reserved pattern by its neighbour keeps availability equal to the flag. -/
private theorem substituted_available {near : α} (apart : near ≠ sna) (valid : Bool) (value : α) :
    ((if valid then if value = sna then near else value else sna) != sna) = valid := by
  -- The substituted value differs from the pattern, and so does any other value.
  rw [passed_available]
  by_cases same : value = sna <;> simp [same, apart]

end Fields

/-- Four bits never spell the reserved byte, so the lane flag survives on its own. -/
private theorem lane_available (lanes : UInt8) : (lanes &&& laneValidMask != snaU8) = true := by
  have small : (lanes &&& laneValidMask).toNat ≤ 15 := by
    rw [UInt8.toNat_and]
    exact Nat.and_le_right
  rw [bne_iff_ne]
  intro reserved
  rw [reserved] at small
  exact absurd small (by decide)

/-- A status frame returns every field, with the reserved capability bits cleared. -/
theorem unpackStatus_packStatus (s : Status) :
    unpackStatus (packStatus s) = { s with capabilities := s.capabilities &&& ~~~capReservedMask } := by
  -- The four single bytes lie below the word, so the fields do not overlap.
  simp [unpackStatus, packStatus]

/-- An identity frame returns every field. -/
theorem unpackIdentity_packIdentity (s : Identity) : unpackIdentity (packIdentity s) = s := by
  -- The layout is that of the status frame, with nothing masked.
  simp [unpackIdentity, packIdentity]

/-- A telltale frame returns the bitmap with its reserved bits cleared. -/
theorem unpackTelltales_packTelltales (s : Telltales) :
    unpackTelltales (packTelltales s) = ⟨s.bits &&& ~~~ttReservedMask⟩ := by
  simp [unpackTelltales, packTelltales]

section Frames

variable (m : Machine)

/-- When only unavailable signals are sent as the pattern, comparing with it recovers the flag. -/
private theorem bne_sna {α : Type*} [DecidableEq α] {code sna : α} {valid : Bool}
    (only : code = sna ↔ valid = false) : (code != sna) = valid := by
  -- Comparing for difference negates the equality that the hypothesis decides.
  cases valid with
  | false => simpa using only.mpr rfl
  | true => simpa using only

/-- The flag an encoder's output carries is the flag it was given. -/
@[simp] theorem encU8_bne_sna {max : UInt8} (spares : max.toNat ≤ 254) (v lsb : Double)
    (valid : Bool) : (encU8 m v lsb valid max != snaU8) = valid :=
  bne_sna (encU8_eq_sna m spares v lsb valid)

@[simp] theorem encI8_bne_sna (v lsb : Double) (valid : Bool) :
    (encI8 m v lsb valid != snaI8) = valid := bne_sna (encI8_eq_sna m v lsb valid)

@[simp] theorem encU16_bne_sna (v lsb : Double) (valid : Bool) :
    (encU16 m v lsb valid != snaU16) = valid := bne_sna (encU16_eq_sna m v lsb valid)

@[simp] theorem encI16_bne_sna (v lsb : Double) (valid : Bool) :
    (encI16 m v lsb valid != snaI16) = valid := bne_sna (encI16_eq_sna m v lsb valid)

@[simp] theorem encU32_bne_sna (v lsb : Double) (valid : Bool) :
    (encU32 m v lsb valid != snaU32) = valid := bne_sna (encU32_eq_sna m v lsb valid)

/-- What a consumer reads from a motion frame. -/
theorem unpackMotion_packMotion (s : Motion) :
    unpackMotion (packMotion m s) =
      { speedValid := s.speedValid
        speedKmh := scaledValue s.speedValid
          (encU16 m s.speedKmh (.finite (1 / 100)) s.speedValid).toNat (1 / 100)
        rpmValid := s.rpmValid
        rpm := if s.rpmValid then if s.rpm = 0xFFFF then 0xFFFE else s.rpm else 0
        gearValid := s.gearValid && s.gear != snaU8
        gear := if s.gearValid && s.gear != snaU8 then s.gear else 0
        powerStateValid := s.powerStateValid && s.powerState != snaU8
        powerState := if s.powerStateValid && s.powerState != snaU8 then s.powerState else 0 } := by
  -- The scaled speed and the substituted engine speed keep their flags; the two raw bytes may not.
  have sna : (0xFFFF : UInt16) = snaU16 := rfl
  have rpm := substituted_available snaU16 (by decide : (0xFFFE : UInt16) ≠ snaU16) s.rpmValid s.rpm
  simp [unpackMotion, packMotion, sna, rpm, passed_available, guarded, guarded_and, -bne_iff_ne,
    -Bool.and_eq_true]

/-- What a consumer reads from an electric-drive frame. -/
theorem unpackEdrive_packEdrive (s : Edrive) :
    unpackEdrive (packEdrive m s) =
      { motorPowerValid := s.motorPowerValid
        motorPowerKw := scaledValue s.motorPowerValid
          (encI16 m s.motorPowerKw (.finite (1 / 10)) s.motorPowerValid).toInt (1 / 10)
        packVoltageValid := s.packVoltageValid
        packVoltageV := scaledValue s.packVoltageValid
          (encU16 m s.packVoltageV (.finite (1 / 10)) s.packVoltageValid).toNat (1 / 10)
        packCurrentValid := s.packCurrentValid
        packCurrentA := scaledValue s.packCurrentValid
          (encI16 m s.packCurrentA (.finite (1 / 10)) s.packCurrentValid).toInt (1 / 10) } := by
  -- All three signals are scaled, so every flag comes back as it was sent.
  simp [unpackEdrive, packEdrive]

/-- What a consumer reads from an energy frame. -/
theorem unpackEnergy_packEnergy (s : Energy) :
    unpackEnergy (packEnergy m s) =
      { socValid := s.socValid
        socPct := scaledValue s.socValid
          (encU8 m s.socPct (.finite (1 / 2)) s.socValid 200).toNat (1 / 2)
        sohValid := s.sohValid
        sohPct := scaledValue s.sohValid
          (encU8 m s.sohPct (.finite (1 / 2)) s.sohValid 200).toNat (1 / 2)
        rangeValid := s.rangeValid
        rangeKm := if s.rangeValid then if s.rangeKm = 0xFFFF then 0xFFFE else s.rangeKm else 0
        consumptionValid := s.consumptionValid
        consumptionWhKm :=
          if s.consumptionValid then
            if s.consumptionWhKm = snaI16 then -32767 else s.consumptionWhKm
          else 0
        chargingStateValid := s.chargingStateValid && s.chargingState != snaU8
        chargingState :=
          if s.chargingStateValid && s.chargingState != snaU8 then s.chargingState else 0 } := by
  -- Range and consumption are substituted, each away from its own pattern.
  have sna : (0xFFFF : UInt16) = snaU16 := rfl
  have range := substituted_available snaU16 (by decide : (0xFFFE : UInt16) ≠ snaU16)
    s.rangeValid s.rangeKm
  have consumption := substituted_available snaI16 (by decide : (-32767 : Int16) ≠ snaI16)
    s.consumptionValid s.consumptionWhKm
  simp [unpackEnergy, packEnergy, sna, range, consumption, passed_available, guarded, guarded_and,
    -bne_iff_ne, -Bool.and_eq_true]

/-- What a consumer reads from a trip frame. -/
theorem unpackTrip_packTrip (s : Trip) :
    unpackTrip (packTrip m s) =
      { odometerValid := s.odometerValid
        odometerKm := scaledValue s.odometerValid
          (encU32 m s.odometerKm (.finite (1 / 10)) s.odometerValid).toNat (1 / 10)
        ambientValid := s.ambientValid
        ambientC :=
          if s.ambientValid then encI8 m (.ofInt s.ambientC.toInt) (.finite 1) s.ambientValid else 0
        cabinValid := s.cabinValid
        cabinC :=
          if s.cabinValid then encI8 m (.ofInt s.cabinC.toInt) (.finite 1) s.cabinValid else 0 } := by
  -- The temperature bytes go through an unsigned byte and come back signed.
  simp [unpackTrip, packTrip, -bne_iff_ne]

/-- What a consumer reads from a thermal frame. -/
theorem unpackThermal_packThermal (s : Thermal) :
    unpackThermal (packThermal m s) =
      { coolantValid := s.coolantValid
        coolantC :=
          if s.coolantValid then encI8 m (.ofInt s.coolantC.toInt) (.finite 1) s.coolantValid else 0
        fuelValid := s.fuelValid
        fuelPct := scaledValue s.fuelValid
          (encU8 m s.fuelPct (.finite (1 / 2)) s.fuelValid 200).toNat (1 / 2)
        auxBatteryValid := s.auxBatteryValid
        auxBatteryV := scaledValue s.auxBatteryValid
          (encU16 m s.auxBatteryV (.finite (1 / 100)) s.auxBatteryValid).toNat (1 / 100) } := by
  -- Every signal is scaled, one of them through a signed byte.
  simp [unpackThermal, packThermal, -bne_iff_ne]

/-- What a consumer reads from a driver-assist frame. -/
theorem unpackAssist_packAssist (s : Assist) :
    unpackAssist (packAssist m s) =
      { ecoScoreValid := s.ecoScoreValid
        ecoScore :=
          if s.ecoScoreValid then
            encU8 m (.ofInt s.ecoScore.toNat) (.finite 1) s.ecoScoreValid 100
          else 0
        speedLimitValid := s.speedLimitValid
        speedLimitKmh :=
          if s.speedLimitValid then if s.speedLimitKmh = snaU8 then 0xFE else s.speedLimitKmh else 0
        collisionRiskValid := s.collisionRiskValid && s.collisionRisk != snaU8
        collisionRisk :=
          if s.collisionRiskValid && s.collisionRisk != snaU8 then s.collisionRisk else 0
        laneStateValid := s.laneStateValid
        laneState := if s.laneStateValid then s.laneState &&& laneValidMask else 0
        leadGapValid := s.leadGapValid
        leadGapM := scaledValue s.leadGapValid
          (encU16 m s.leadGapM (.finite (1 / 10)) s.leadGapValid).toNat (1 / 10) } := by
  -- The posted limit is substituted and the lane byte masked; only the collision risk is raw.
  have limit := substituted_available snaU8 (by decide : (0xFE : UInt8) ≠ snaU8)
    s.speedLimitValid s.speedLimitKmh
  simp [unpackAssist, packAssist, limit, lane_available, passed_available, guarded, guarded_and, -bne_iff_ne,
    -Bool.and_eq_true]

end Frames

end CanProxy
