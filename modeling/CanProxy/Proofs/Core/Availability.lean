import CanProxy.Core.Consumer
import CanProxy.Proofs.Contract.Pack

/-! Which signals a consumer takes as available, and which capability bits it sees. -/

namespace CanProxy

open Numeric

/-- A signal's bit tests its position in a mask. -/
theorem and_sigBit (mask : UInt32) (sig : Signal) :
    (mask &&& sig.bit != 0) = Bits.mem mask sig.index := by
  -- Signal positions end at twenty-two, well inside the word.
  have small := sig.index_lt
  rw [Bool.eq_iff_iff, bne_iff_ne]
  exact Bits.and_single_ne_zero (by omega) mask

/-- The gate in front of every signal, read as positions of the two masks. -/
theorem has_eq (s : VehicleState) (live : Bool) (sig : Signal) :
    has s live sig = (live && Bits.mem s.valid sig.index && Bits.mem s.capable sig.index) := by
  -- Both masks are tested with the signal's own bit.
  simp only [has, and_sigBit]

/-- A capability bit is in the bitmap exactly when some advertised signal maps to it. -/
theorem mem_capabilitiesFrom (mask : UInt32) (i : Nat) :
    Bits.mem (capabilitiesFrom mask) i = true ↔
      ∃ sig : Signal, Bits.mem mask sig.index = true ∧ (capabilityFor sig).index = i := by
  have small (c : Capability) : c.index < 32 := by cases c <;> decide
  -- The loop only ever joins bits, so the bitmap holds what some selected signal contributed.
  unfold capabilitiesFrom
  rw [Bits.mem_foldl_or, Bits.mem_zero, Bool.false_or, List.any_eq_true]
  simp only [and_sigBit, Bool.and_eq_true, capabilityBitFor, Capability.bit, Bits.mem_single (small _),
    decide_eq_true_eq]
  exact ⟨fun ⟨sig, _, found⟩ => ⟨sig, found⟩, fun ⟨sig, found⟩ => ⟨sig, sig.mem_all, found⟩⟩

/-- Every capability bit lies below the reserved ones. -/
theorem capabilitiesFrom_assigned (mask : UInt32) :
    capabilitiesFrom mask &&& ~~~capReservedMask = capabilitiesFrom mask := by
  -- Each assigned position is in the complement of the reserved mask.
  have assigned (c : Capability) : Bits.mem (~~~capReservedMask) c.index = true := by
    cases c <;> decide
  apply Bits.ext
  intro i _
  rw [Bits.mem_and]
  -- A position of the bitmap came from some signal, and every signal's capability is assigned.
  cases present : Bits.mem (capabilitiesFrom mask) i with
  | false => rfl
  | true =>
    obtain ⟨sig, _, rfl⟩ := (mem_capabilitiesFrom mask i).mp present
    rw [assigned, Bool.and_self]

/-- The lamps keep their positions on the wire, and positions without a lamp are dropped. -/
theorem telltalesFrom_eq (mask : UInt32) : telltalesFrom mask = mask &&& 0xFFFFF := by
  have small (lamp : Lamp) : lamp.index < 32 := by cases lamp <;> decide
  have place (lamp : Lamp) : telltaleBitFor lamp = lamp.bit := by cases lamp <;> rfl
  have selected (lamp : Lamp) : (mask &&& lamp.bit != 0) = Bits.mem mask lamp.index := by
    rw [Bool.eq_iff_iff, bne_iff_ne]
    exact Bits.and_single_ne_zero (small lamp) mask
  have assigned : ∀ i < 32, Bits.mem 0xFFFFF i = Lamp.all.any fun lamp => lamp.index = i := by
    decide +kernel
  apply Bits.ext
  intro i below
  -- The bitmap holds the positions of the lamps that the mask selects.
  unfold telltalesFrom
  rw [Bits.mem_foldl_or, Bits.mem_zero, Bool.false_or, Bits.mem_and, assigned i below,
    Bool.eq_iff_iff, Bool.and_eq_true, List.any_eq_true, List.any_eq_true]
  simp only [selected, place]
  simp only [Lamp.bit, Bits.mem_single (small _), Bool.and_eq_true, decide_eq_true_eq]
  constructor
  · rintro ⟨lamp, member, on, rfl⟩
    exact ⟨on, lamp, member, rfl⟩
  · rintro ⟨on, lamp, member, rfl⟩
    exact ⟨lamp, member, on, rfl⟩

/-- A plugin number is encoded as available exactly when it is an enumerator. -/
theorem gearFrom_available (g : ℤ) :
    (gearFrom g != snaU8) = [cpGearP, cpGearR, cpGearN, cpGearD, cpGearL].contains g := by
  -- Each defined number has a code below the reserved one, and any other gets the reserved one.
  unfold gearFrom
  split <;> simp_all [Gear.code, snaU8]

theorem powerStateFrom_available (p : ℤ) :
    (powerStateFrom p != snaU8) =
      [cpPowerOff, cpPowerAcc, cpPowerOn, cpPowerReady].contains p := by
  -- The mapping has the shape of the gear's, on four numbers.
  unfold powerStateFrom
  split <;> simp_all [PowerState.code, snaU8]

theorem chargingStateFrom_available (c : ℤ) :
    (chargingStateFrom c != snaU8) =
      [cpChargingNone, cpChargingAc, cpChargingDc, cpChargingComplete].contains c := by
  -- The mapping has the shape of the power state's.
  unfold chargingStateFrom
  split <;> simp_all [ChargingState.code, snaU8]

/-- A collision risk always has a wire value. -/
theorem collisionRiskFrom_available (r : ℤ) : (collisionRiskFrom r != snaU8) = true := by
  -- Three numbers have their own code, and all others get the code for no risk.
  unfold collisionRiskFrom
  split <;> rfl

section Consumer

variable (m : Machine)

/-- The consumer's flag is the sender's, unless a byte passed through unchecked is the reserved one. -/
theorem available_receive (f : Frames) (sig : Signal) :
    (receive (f.wire m)).available sig = (f.available sig && f.passedByte sig != some snaU8) := by
  -- Each signal is read from its own frame, whose round trip is known.
  cases sig <;>
    simp [receive, Frames.wire, Frames.available, Frames.passedByte, unpackMotion_packMotion,
      unpackEdrive_packEdrive, unpackEnergy_packEnergy, unpackTrip_packTrip,
      unpackThermal_packThermal, unpackAssist_packAssist, bne]

/-- The mapping marks a signal available when its gate is open and its enumerator is defined. -/
theorem available_framesFrom (s : VehicleState) (live : Bool)
    (proxyState counter pluginMajor pluginMinor : UInt8) (sig : Signal) :
    (framesFrom m s live proxyState counter pluginMajor pluginMinor).available sig =
      (has s live sig && s.enumerated sig) := by
  -- Outside the three enumerations the second gate is always open.
  cases sig <;>
    simp only [framesFrom, Frames.available, VehicleState.enumerated, gearFrom_available,
      powerStateFrom_available, chargingStateFrom_available, Bool.and_true]

/-- The mapping never passes the reserved byte for a signal it marks available. -/
theorem passedByte_framesFrom (s : VehicleState) (live : Bool)
    (proxyState counter pluginMajor pluginMinor : UInt8) (sig : Signal)
    (marked : s.enumerated sig = true) :
    ((framesFrom m s live proxyState counter pluginMajor pluginMinor).passedByte sig
      != some snaU8) = true := by
  -- Four signals pass a byte; three are enumerated, and every collision risk has a code.
  cases sig with
  | gear => exact (gearFrom_available s.gear).trans marked
  | powerState => exact (powerStateFrom_available s.powerState).trans marked
  | chargingState => exact (chargingStateFrom_available s.chargingState).trans marked
  | collisionRisk => exact collisionRiskFrom_available s.collisionRisk
  | _ => rfl

/-- A consumer takes a signal as available exactly when the plugin is live and stands behind it. -/
theorem available_decoded (s : VehicleState) (live : Bool)
    (proxyState counter pluginMajor pluginMinor : UInt8) (sig : Signal) :
    (receive ((framesFrom m s live proxyState counter pluginMajor pluginMinor).wire m)).available sig =
      (has s live sig && s.enumerated sig) := by
  rw [available_receive, available_framesFrom]
  -- A signal hidden by its enumerator stays hidden whatever its byte is.
  cases marked : s.enumerated sig with
  | false => simp
  | true => rw [passedByte_framesFrom m s live proxyState counter pluginMajor pluginMinor sig marked,
      Bool.and_true]

/-- The bitmap a consumer sees is the one computed from the capable mask. -/
theorem capabilities_decoded (s : VehicleState) (live : Bool)
    (proxyState counter pluginMajor pluginMinor : UInt8) :
    (receive ((framesFrom m s live proxyState counter pluginMajor pluginMinor).wire
      m)).status.capabilities = capabilitiesFrom s.capable := by
  -- The packer strips reserved bits, of which the bitmap has none.
  simp only [receive, Frames.wire, unpackStatus_packStatus, framesFrom, capabilitiesFrom_assigned]

/--
Decoding the nine frames of any state reveals each signal exactly when it is live, current,
advertised, and defined.

A revealed signal has its capability bit, the bitmap holds the bits of the advertised signals and no
reserved one, and a plugin that is not live lights no lamp.
-/
theorem framesFrom_decoded (s : VehicleState) (live : Bool)
    (proxyState counter pluginMajor pluginMinor : UInt8) :
    let received :=
      receive ((framesFrom m s live proxyState counter pluginMajor pluginMinor).wire m)
    (∀ sig, received.available sig = true ↔
      live = true ∧ Bits.mem s.valid sig.index = true ∧ Bits.mem s.capable sig.index = true ∧
        s.enumerated sig = true) ∧
    (∀ sig, received.available sig = true →
      received.status.capabilities &&& capabilityBitFor sig ≠ 0) ∧
    (∀ i, Bits.mem received.status.capabilities i = true ↔
      ∃ sig : Signal, Bits.mem s.capable sig.index = true ∧ (capabilityFor sig).index = i) ∧
    received.status.capabilities &&& capReservedMask = 0 ∧
    (live = false → received.telltales.bits = 0) := by
  -- Everything follows from the flags and the bitmap that the consumer sees.
  intro received
  have flags : ∀ sig, received.available sig = true ↔
      live = true ∧ Bits.mem s.valid sig.index = true ∧ Bits.mem s.capable sig.index = true ∧
        s.enumerated sig = true := by
    intro sig
    rw [show received.available sig = _ from available_decoded m s live proxyState counter
      pluginMajor pluginMinor sig, has_eq]
    simp only [Bool.and_eq_true, and_assoc]
  have caps : received.status.capabilities = capabilitiesFrom s.capable :=
    capabilities_decoded m s live proxyState counter pluginMajor pluginMinor
  refine ⟨flags, fun sig revealed => ?_, fun i => ?_, ?_, fun silent => ?_⟩
  · -- The gate checked the capable bit, and the bitmap holds the bits of all capable signals.
    obtain ⟨-, -, capable, -⟩ := (flags sig).mp revealed
    have small : (capabilityFor sig).index < 32 := by cases sig <;> decide
    rw [caps]
    exact (Bits.and_single_ne_zero small _).mpr ((mem_capabilitiesFrom _ _).mpr ⟨sig, capable, rfl⟩)
  · rw [caps]
    exact mem_capabilitiesFrom s.capable i
  · -- Assigned bits all lie in the complement of the reserved mask.
    rw [caps, ← capabilitiesFrom_assigned, UInt32.and_assoc]
    simp
  · subst silent
    -- A vehicle that is not live is packed with no lamps at all.
    simp [received, receive, Frames.wire, unpackTelltales_packTelltales, framesFrom]

/--
Packing and unpacking keep a signal's validity unless one of the four bytes passed through
unchecked is valid and equals the not-available pattern.
-/
theorem validity_kept_iff (f : Frames) (sig : Signal) :
    (receive (f.wire m)).available sig = f.available sig ↔
      ¬(f.available sig = true ∧ f.passedByte sig = some snaU8) := by
  -- The two flags differ only where the sender's is set and the byte is the reserved one.
  rw [available_receive]
  cases f.available sig <;> simp

end Consumer

/-- A gear marked valid that holds the reserved byte is packed as it is, and decodes as not available. -/
theorem validity_lost_gear :
    let blank := framesFrom Machine.indefinite .zero true 0 0 0 0
    let f := { blank with motion := { blank.motion with gearValid := true, gear := snaU8 } }
    f.available .gear = true ∧ (receive (f.wire Machine.indefinite)).available .gear = false := by
  decide +kernel

end CanProxy
