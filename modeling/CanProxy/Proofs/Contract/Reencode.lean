import CanProxy.Core.Consumer
import CanProxy.Proofs.Contract.Pack
import Mathlib.Tactic.IntervalCases

/-! Every frame the proxy can emit survives a decode and re-encode byte for byte. -/

namespace CanProxy

open Numeric

variable (m : Machine)

section Counts

/-- A whole count of the least significant bit is encoded as that count. -/
theorem scaled_count {lo hi n : ℤ} {lsb : ℚ} (positive : 0 < lsb) (low : lo ≤ n) (high : n ≤ hi)
    (narrow : -2 ^ 32 ≤ lo ∧ hi ≤ 2 ^ 32) :
    scaled m (.finite (n * lsb)) (.finite lsb) lo hi = n := by
  -- The exact quotient is the count again, far inside the range of the conversion.
  have quotient : (n : ℚ) * lsb / lsb = n := mul_div_cancel_right₀ _ positive.ne'
  have low' : (-2 ^ 32 : ℚ) ≤ n := by exact_mod_cast narrow.1.trans low
  have high' : (n : ℚ) ≤ 2 ^ 32 := by exact_mod_cast high.trans narrow.2
  have bounded : |(n : ℚ)| ≤ 2 ^ 32 := abs_le.mpr ⟨low', high'⟩
  rw [scaled_finite m (low.trans high) positive (by rw [quotient]; linarith), quotient,
    roundHalfAway_intCast, saturate_eq low high]

/-- What an encoder made of a value is what it makes of the value that was decoded from it. -/
private theorem encode_again {α : Type*} {k : Double → α} (read : α → ℤ)
    (faithful : ∀ a b, read a = read b → a = b) {lo hi : ℤ} {lsb : ℚ} (positive : 0 < lsb)
    (ordered : lo ≤ hi) (narrow : -2 ^ 32 ≤ lo ∧ hi ≤ 2 ^ 32)
    (available : ∀ v, read (k v) = scaled m v (.finite lsb) lo hi) (v : Double) :
    k (.finite (read (k v) * lsb)) = k v := by
  -- The first encoding is a count of the range, and such a count is encoded as itself.
  have range := scaled_mem m ordered v (.finite lsb)
  rw [← available] at range
  apply faithful
  rw [available]
  exact scaled_count m positive range.1 range.2 narrow

variable {lsb : ℚ}

@[simp] theorem encU8_again (positive : 0 < lsb) (v : Double) (valid : Bool) (max : UInt8) :
    encU8 m (scaledValue valid (encU8 m v (.finite lsb) valid max).toNat lsb) (.finite lsb) valid max =
      encU8 m v (.finite lsb) valid max := by
  cases valid with
  | false => simp [encU8]
  | true =>
    have narrow : (-2 ^ 32 : ℤ) ≤ 0 ∧ (max.toNat : ℤ) ≤ 2 ^ 32 := by
      have bound := max.toNat_lt
      omega
    simpa [scaledValue] using encode_again m (fun code : UInt8 => (code.toNat : ℤ))
      (fun a b same => UInt8.toNat_inj.mp (by simpa using same)) positive
      (Int.natCast_nonneg max.toNat) narrow (fun v => encU8_toNat m v _ max) v

@[simp] theorem encU16_again (positive : 0 < lsb) (v : Double) (valid : Bool) :
    encU16 m (scaledValue valid (encU16 m v (.finite lsb) valid).toNat lsb) (.finite lsb) valid =
      encU16 m v (.finite lsb) valid := by
  cases valid with
  | false => simp [encU16]
  | true =>
    simpa [scaledValue] using encode_again m (fun code : UInt16 => (code.toNat : ℤ))
      (fun a b same => UInt16.toNat_inj.mp (by simpa using same)) positive (by norm_num)
      (by norm_num) (fun v => encU16_toNat m v _) v

@[simp] theorem encI16_again (positive : 0 < lsb) (v : Double) (valid : Bool) :
    encI16 m (scaledValue valid (encI16 m v (.finite lsb) valid).toInt lsb) (.finite lsb) valid =
      encI16 m v (.finite lsb) valid := by
  cases valid with
  | false => simp [encI16]
  | true =>
    simpa [scaledValue] using encode_again m Int16.toInt (fun a b => Int16.toInt_inj.mp) positive
      (by norm_num) (by norm_num) (fun v => encI16_toInt m v _) v

@[simp] theorem encU32_again (positive : 0 < lsb) (v : Double) (valid : Bool) :
    encU32 m (scaledValue valid (encU32 m v (.finite lsb) valid).toNat lsb) (.finite lsb) valid =
      encU32 m v (.finite lsb) valid := by
  cases valid with
  | false => simp [encU32]
  | true =>
    simpa [scaledValue] using encode_again m (fun code : UInt32 => (code.toNat : ℤ))
      (fun a b same => UInt32.toNat_inj.mp (by simpa using same)) positive (by norm_num)
      (by norm_num) (fun v => encU32_toNat m v _) v

/-- Whole degrees are decoded as an integer rather than as a scaled value. -/
@[simp] theorem encI8_again (v : Double) (valid : Bool) :
    encI8 m (.ofInt (if valid then encI8 m v (.finite 1) valid else 0).toInt) (.finite 1) valid =
      encI8 m v (.finite 1) valid := by
  cases valid with
  | false => simp [encI8]
  | true =>
    simpa [Double.ofInt] using encode_again m Int8.toInt (fun a b => Int8.toInt_inj.mp) one_pos
      (by norm_num) (by norm_num) (fun v => encI8_toInt m v _) v

/-- The eco score is decoded as an integer as well. -/
@[simp] theorem encU8_whole_again (v : Double) (valid : Bool) (max : UInt8) :
    encU8 m (.ofInt (if valid then encU8 m v (.finite 1) valid max else 0).toNat) (.finite 1) valid max =
      encU8 m v (.finite 1) valid max := by
  have again := encU8_again m one_pos v valid max
  cases valid with
  | false => simp [encU8]
  | true => simpa [Double.ofInt, scaledValue] using again

end Counts

section Passed

variable {α : Type*} [DecidableEq α] (sna zero : α)

/-- A byte passed through is sent again as it was, the reserved pattern included. -/
private theorem passed_again (valid : Bool) (code : α) :
    (if valid && code != sna then if valid && code != sna then code else zero else sna) =
      if valid then code else sna := by
  -- A code that is the pattern reads as unavailable, and is sent as the pattern again.
  cases valid with
  | false => rfl
  | true => by_cases reserved : code = sna <;> simp [reserved]

/-- A value that already stepped back from its reserved pattern does not step again. -/
private theorem substituted_again {near : α} (apart : near ≠ sna) (valid : Bool) (value : α) :
    (if valid then
      if (if valid then if value = sna then near else value else zero) = sna then near
      else if valid then if value = sna then near else value else zero
    else sna) = if valid then if value = sna then near else value else sna := by
  cases valid with
  | false => rfl
  | true => by_cases reserved : value = sna <;> simp [reserved, apart]

/-- Masking the lane byte a second time changes nothing. -/
private theorem masked_again (valid : Bool) (lanes : UInt8) :
    (if valid then (if valid then lanes &&& laneValidMask else 0) &&& laneValidMask else snaU8) =
      if valid then lanes &&& laneValidMask else snaU8 := by
  cases valid with
  | false => rfl
  | true => simp [UInt8.and_assoc]

end Passed

section Frames

/-- Packing what a consumer unpacked from a status frame gives the frame back. -/
private theorem packStatus_again (s : Status) :
    packStatus (unpackStatus (packStatus s)) = packStatus s := by
  -- The reserved capability bits were stripped already.
  rw [unpackStatus_packStatus]
  simp [packStatus, UInt32.and_assoc]

private theorem packTelltales_again (s : Telltales) :
    packTelltales (unpackTelltales (packTelltales s)) = packTelltales s := by
  rw [unpackTelltales_packTelltales]
  simp [packTelltales, UInt32.and_assoc]

private theorem packMotion_again (s : Motion) :
    packMotion m (unpackMotion (packMotion m s)) = packMotion m s := by
  -- The engine speed stepped back once, and gear and power state go through as bytes.
  have rpm := substituted_again snaU16 0 (by decide : (0xFFFE : UInt16) ≠ snaU16) s.rpmValid s.rpm
  have gear := passed_again snaU8 0 s.gearValid s.gear
  have power := passed_again snaU8 0 s.powerStateValid s.powerState
  rw [unpackMotion_packMotion]
  simp only [packMotion, show (0xFFFF : UInt16) = snaU16 from rfl, rpm, gear, power,
    encU16_again m (by norm_num : (0 : ℚ) < 1 / 100)]

private theorem packEdrive_again (s : Edrive) :
    packEdrive m (unpackEdrive (packEdrive m s)) = packEdrive m s := by
  have tenth : (0 : ℚ) < 1 / 10 := by norm_num
  rw [unpackEdrive_packEdrive]
  simp only [packEdrive, encU16_again m tenth, encI16_again m tenth]

private theorem packEnergy_again (s : Energy) :
    packEnergy m (unpackEnergy (packEnergy m s)) = packEnergy m s := by
  -- Range and consumption stepped back once, and the charging state goes through as a byte.
  have range := substituted_again snaU16 0 (by decide : (0xFFFE : UInt16) ≠ snaU16)
    s.rangeValid s.rangeKm
  have consumption := substituted_again snaI16 0 (by decide : (-32767 : Int16) ≠ snaI16)
    s.consumptionValid s.consumptionWhKm
  have charging := passed_again snaU8 0 s.chargingStateValid s.chargingState
  rw [unpackEnergy_packEnergy]
  simp only [packEnergy, show (0xFFFF : UInt16) = snaU16 from rfl, range, consumption, charging,
    encU8_again m (by norm_num : (0 : ℚ) < 1 / 2)]

private theorem packTrip_again (s : Trip) :
    packTrip m (unpackTrip (packTrip m s)) = packTrip m s := by
  rw [unpackTrip_packTrip]
  simp only [packTrip, encI8_again, encU32_again m (by norm_num : (0 : ℚ) < 1 / 10)]

private theorem packThermal_again (s : Thermal) :
    packThermal m (unpackThermal (packThermal m s)) = packThermal m s := by
  rw [unpackThermal_packThermal]
  simp only [packThermal, encI8_again, encU8_again m (by norm_num : (0 : ℚ) < 1 / 2),
    encU16_again m (by norm_num : (0 : ℚ) < 1 / 100)]

private theorem packAssist_again (s : Assist) :
    packAssist m (unpackAssist (packAssist m s)) = packAssist m s := by
  -- The posted limit stepped back once, the lane byte was masked, and the risk goes through.
  have limit := substituted_again snaU8 0 (by decide : (0xFE : UInt8) ≠ snaU8)
    s.speedLimitValid s.speedLimitKmh
  have risk := passed_again snaU8 0 s.collisionRiskValid s.collisionRisk
  rw [unpackAssist_packAssist]
  simp only [packAssist, encU8_whole_again, limit, risk, masked_again,
    encU16_again m (by norm_num : (0 : ℚ) < 1 / 10)]

/-- Every frame comes back byte for byte from a decode and a re-encode. -/
private theorem wire_again (f : Frames) (id : FrameId) : (receive (f.wire m)).wire m id = f.wire m id := by
  -- Each frame has its own packer, and the identity frame loses nothing at all.
  cases id with
  | status => exact packStatus_again f.status
  | identity => exact congrArg packIdentity (unpackIdentity_packIdentity f.identity)
  | motion => exact packMotion_again m f.motion
  | edrive => exact packEdrive_again m f.edrive
  | telltales => exact packTelltales_again f.telltales
  | energy => exact packEnergy_again m f.energy
  | trip => exact packTrip_again m f.trip
  | thermal => exact packThermal_again m f.thermal
  | assist => exact packAssist_again m f.assist

end Frames

section Reserved

/-- Stripping the bits of a mask from a word strips them from each of its bytes. -/
private theorem masked_byte (w mask k : UInt32) :
    ((w &&& ~~~mask) >>> k).toUInt8 &&& (mask >>> k).toUInt8 = 0 := by
  -- Shifting and narrowing act bit by bit, so the mask meets its own complement.
  rw [← UInt32.toUInt8_and, ← UInt32.shiftRight_and, UInt32.and_assoc, UInt32.and_comm (~~~mask)]
  simp

/-- Keeping the low eight bits before narrowing to a byte changes nothing. -/
private theorem lowByte32 (v : UInt32) : (v &&& 0xFF).toUInt8 = v.toUInt8 := by
  rw [UInt32.toUInt8_and]
  exact UInt8.and_neg_one

/-- A word sent without the bits of a mask has them zero on the wire. -/
private theorem putU32le_masked (d e : FrameData) (w mask : UInt32) (i j : Nat) (fits : i + 3 < 8)
    (within : j < 8) (outside : d[j] &&& e[j] = 0) :
    (putU32le d i (w &&& ~~~mask) fits)[j] &&& (putU32le e i mask fits)[j] = 0 := by
  -- The byte read is one of the four written, or belongs to the frames written into.
  have byte := masked_byte w mask
  have first : (w &&& ~~~mask).toUInt8 &&& mask.toUInt8 = 0 := by simpa using byte 0
  simp only [putU32le, Vector.getElem_set, lowByte32]
  split
  · exact byte 24
  split
  · exact byte 16
  split
  · exact byte 8
  split
  · exact first
  · exact outside

/-- A lane byte has its high four bits zero, or is the not-available pattern. -/
private theorem lane_reserved (valid : Bool) (lanes : UInt8) :
    (if valid then lanes &&& laneValidMask else snaU8) &&& ~~~laneValidMask = 0 ∨
      (if valid then lanes &&& laneValidMask else snaU8) = snaU8 := by
  cases valid with
  | false => exact .inr rfl
  | true =>
    left
    rw [if_pos rfl, UInt8.and_assoc, UInt8.and_not_self, UInt8.and_zero]

/-- Where a frame reserves bits outside its bitmaps, its packer writes nothing. -/
private theorem unwritten (f : Frames) (id : FrameId) (i : Nat) (within : i < 8)
    (noBitmap : id ≠ .status ∧ id ≠ .telltales) (notLane : ¬(id = .assist ∧ i = 3)) :
    (reserved id)[i] = 0 ∨ (f.wire m id)[i] = 0 := by
  -- Only the reserved bytes need the packer, and there the cleared byte is still in place.
  obtain ⟨notStatus, notTelltales⟩ := noBitmap
  cases id with
  | status | telltales => contradiction
  | identity => exact .inl (by simp [reserved, clear])
  | motion | edrive | energy | trip | thermal | assist =>
    interval_cases i <;>
      first
      | exact .inl rfl
      | contradiction
      | exact .inr (by
          simp [Frames.wire, packMotion, packEdrive, packEnergy, packTrip, packThermal, packAssist,
            clear])

/-- Every reserved bit goes out as zero, the lane byte's unless the byte is not available. -/
private theorem wire_reserved (f : Frames) (id : FrameId) (i : Nat) (within : i < 8) :
    (f.wire m id)[i] &&& (reserved id)[i] = 0 ∨
      id = .assist ∧ i = 3 ∧ (f.wire m id)[i] = snaU8 := by
  by_cases lane : id = .assist ∧ i = 3
  · obtain ⟨rfl, rfl⟩ := lane
    exact (lane_reserved f.assist.laneStateValid f.assist.laneState).imp id
      fun missing => ⟨rfl, rfl, missing⟩
  · left
    by_cases bitmap : id = .status ∨ id = .telltales
    · -- The two bitmaps are masked with the very bits that are reserved.
      rcases bitmap with rfl | rfl
      · exact putU32le_masked _ _ f.status.capabilities capReservedMask 4 i (by decide) within
          (by simp [clear])
      · exact putU32le_masked _ _ f.telltales.bits ttReservedMask 0 i (by decide) within
          (by simp [clear])
    · rcases unwritten m f id i within (not_or.mp bitmap) lane with zero | zero <;> simp [zero]

end Reserved

/--
Packing what was unpacked from a packed frame gives the frame back, and no reserved bit of it is set.

The one exception to the second half is the lane byte, which is all ones when not available.
-/
theorem wire_reencodes (f : Frames) (id : FrameId) :
    (receive (f.wire m)).wire m id = f.wire m id ∧
      ∀ i : Fin 8, (f.wire m id)[i] &&& (reserved id)[i] = 0 ∨
        id = .assist ∧ i.val = 3 ∧ (f.wire m id)[i] = snaU8 :=
  ⟨wire_again m f id, fun i => wire_reserved m f id i i.isLt⟩

end CanProxy
