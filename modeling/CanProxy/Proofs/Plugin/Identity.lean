import CanProxy.Plugin.Identity

/-! The identifier a plugin computes in stages is the contract's hash of the documented string. -/

namespace CanProxy

/-- A character's value and the stored byte are the same number modulo 256. -/
theorem charValue_emod (sign : Signedness) (b : UInt8) : charValue sign b % 2 ^ 8 = b.toNat := by
  have small := b.toNat_lt
  cases sign with
  | signed =>
    calc b.toInt8.toInt % 2 ^ 8 = (b.toNat : ℤ).bmod 256 % 256 := by
          rw [show b.toInt8.toInt = b.toBitVec.toInt from rfl, BitVec.toInt_eq_toNat_bmod]
          rfl
      _ = b.toNat % 256 := Int.bmod_emod
      _ = b.toNat := by omega
  | unsigned =>
    rw [charValue]
    omega

/-- Casting a character to a byte gives back what is stored, signed or not. -/
theorem ofInt_charValue (sign : Signedness) (b : UInt8) : UInt8.ofInt (charValue sign b) = b := by
  rw [UInt8.ofInt, charValue_emod, Int.toNat_natCast, UInt8.ofNat_toNat]

/-- A stored byte is the terminator exactly when its value is zero, signed or not. -/
theorem charValue_ne_zero_iff (sign : Signedness) (b : UInt8) : charValue sign b ≠ 0 ↔ b ≠ 0 := by
  refine not_congr ⟨?_, ?_⟩
  · intro zero
    rw [← ofInt_charValue sign b, zero]
    rfl
  · rintro rfl
    cases sign <;> rfl

section Loops

variable (sign : Signedness)

/-- The contract's loop hashes a string byte by byte and stops at its terminator. -/
theorem fnv1a32Loop_string (h : UInt32) {s : List UInt8} (free : 0 ∉ s) (beyond : List UInt8) :
    fnv1a32Loop sign h (s ++ 0 :: beyond) = s.foldl hashByte h := by
  induction s generalizing h with
  | nil => exact if_neg fun nonzero => (charValue_ne_zero_iff sign 0).mp nonzero rfl
  | cons b rest ih =>
    obtain ⟨nonzero, free⟩ := List.ne_and_not_mem_of_not_mem_cons free
    rw [List.cons_append, fnv1a32Loop, if_pos ((charValue_ne_zero_iff sign b).mpr nonzero.symm),
      ofInt_charValue, ih _ free, List.foldl_cons, hashByte]

/-- The loop of the plugin interface takes the same steps. -/
theorem canproxyVehicleIdLoop_eq (h : UInt32) (s : List UInt8) :
    canproxyVehicleIdLoop sign h s = fnv1a32Loop sign h s := by
  induction s generalizing h with
  | nil => rfl
  | cons b rest ih =>
    rw [canproxyVehicleIdLoop, fnv1a32Loop]
    simp only [ih]

/-- So it hashes a string in the same way. -/
theorem canproxyVehicleIdLoop_string (h : UInt32) {s : List UInt8} (free : 0 ∉ s)
    (beyond : List UInt8) :
    canproxyVehicleIdLoop sign h (s ++ 0 :: beyond) = s.foldl hashByte h := by
  rw [canproxyVehicleIdLoop_eq, fnv1a32Loop_string sign h free]

end Loops

/-- The identifier computed in memory is the one of the name and the number that are stored there. -/
theorem canproxyVehicleId_string (sign : Signedness) {name vin : List UInt8} (nameFree : 0 ∉ name)
    (vinFree : 0 ∉ vin) (afterName afterVin : List UInt8) :
    canproxyVehicleId sign (some (name ++ 0 :: afterName)) (some (vin ++ 0 :: afterVin)) =
      vehicleId name (some vin) := by
  unfold canproxyVehicleId vehicleId
  rw [Option.getD_some, canproxyVehicleIdLoop_string sign _ nameFree]
  cases vin with
  | nil => exact if_neg fun nonzero => (charValue_ne_zero_iff sign 0).mp nonzero rfl
  | cons first rest =>
    -- The first byte of a number is not the terminator, so the separator goes in front of it.
    have nonzero : first ≠ 0 := (List.ne_and_not_mem_of_not_mem_cons vinFree).1.symm
    have loop := canproxyVehicleIdLoop_string sign
      (hashByte (name.foldl hashByte 0x811C9DC5) 0x2F) vinFree afterVin
    exact (if_pos ((charValue_ne_zero_iff sign first).mpr nonzero)).trans loop

/-- Without a number only the name is hashed. -/
theorem canproxyVehicleId_name (sign : Signedness) {name : List UInt8} (nameFree : 0 ∉ name)
    (afterName : List UInt8) :
    canproxyVehicleId sign (some (name ++ 0 :: afterName)) none = vehicleId name none := by
  unfold canproxyVehicleId vehicleId
  rw [Option.getD_some, canproxyVehicleIdLoop_string sign _ nameFree]

/-- The string that an identifier stands for: the name, and the number behind a slash if it is known. -/
def identityText (name : List UInt8) : Option (List UInt8) → List UInt8
  | none => name
  | some [] => name
  | some vin => name ++ 0x2F :: vin

/-- The identifier is the hash of the string it stands for. -/
theorem vehicleId_eq_foldl (name : List UInt8) (vin : Option (List UInt8)) :
    vehicleId name vin = (identityText name vin).foldl hashByte 0x811C9DC5 := by
  -- Hashing goes on where the name ended, through the slash into the number.
  rcases vin with _ | _ | ⟨first, rest⟩
  · rfl
  · rfl
  · rw [identityText, List.foldl_append, List.foldl_cons, vehicleId]
    simp

/-- Neither part of an identifier brings a terminator into its string. -/
theorem identityText_free {name : List UInt8} {vin : Option (List UInt8)} (nameFree : 0 ∉ name)
    (vinFree : ∀ number ∈ vin, 0 ∉ number) : 0 ∉ identityText name vin := by
  rcases vin with _ | _ | ⟨first, rest⟩
  · exact nameFree
  · exact nameFree
  · have numberFree := vinFree (first :: rest) rfl
    rw [identityText, List.mem_append, List.mem_cons]
    · rintro (inName | slash | inNumber)
      · exact nameFree inName
      · cases slash
      · exact numberFree inNumber
    · simp

/--
The identifier that a plugin computes for its name and a vehicle's number is the contract's hash of
the documented string, whatever lies behind the strings in memory, and also when characters are
signed on one side only.
-/
theorem canproxyVehicleId_eq_fnv1a32 (plugin contract : Signedness) {name : List UInt8}
    (nameFree : 0 ∉ name) {vin : Option (List UInt8)} (vinFree : ∀ number ∈ vin, 0 ∉ number)
    (afterName afterVin afterText : List UInt8) :
    canproxyVehicleId plugin (some (name ++ 0 :: afterName)) (vin.map (· ++ 0 :: afterVin)) =
      fnv1a32 contract (identityText name vin ++ 0 :: afterText) := by
  rw [fnv1a32, fnv1a32Loop_string contract _ (identityText_free nameFree vinFree),
    ← vehicleId_eq_foldl]
  cases vin with
  | none => exact canproxyVehicleId_name plugin nameFree afterName
  | some number => exact canproxyVehicleId_string plugin nameFree (vinFree number rfl) afterName afterVin

/-- A name of two letters and a number with a byte above 0x7F. -/
theorem canproxyVehicleId_eq_fnv1a32_high :
    canproxyVehicleId .signed (some [0x65, 0x76, 0]) (some [0x57, 0xC3, 0]) =
      fnv1a32 .unsigned [0x65, 0x76, 0x2F, 0x57, 0xC3, 0] :=
  @canproxyVehicleId_eq_fnv1a32 .signed .unsigned [0x65, 0x76] (by decide) (some [0x57, 0xC3]) (by simp)
    [] [] []

end CanProxy
