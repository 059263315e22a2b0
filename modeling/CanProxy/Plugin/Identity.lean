import CanProxy.Plugin.Abi

/-!
The two hash loops behind a vehicle's identifier, over strings in memory.

The contract hashes one string, and the plugin interface hashes a name and a number in stages.
-/

namespace CanProxy

/-- Whether a plain character is a signed number, which is up to the platform. -/
inductive Signedness where
  | signed
  | unsigned
deriving DecidableEq

/-- The value of a plain character that is stored as a byte. -/
def charValue : Signedness → UInt8 → ℤ
  | .signed, b => b.toInt8.toInt
  | .unsigned, b => b.toNat

/-- The contract's loop: hash the characters up to the terminator. -/
def fnv1a32Loop (sign : Signedness) (h : UInt32) : List UInt8 → UInt32
  -- Memory is read up to the terminator only; a string that has none is not hashed further.
  | [] => h
  | s :: rest =>
    if charValue sign s ≠ 0 then
      fnv1a32Loop sign ((h ^^^ (UInt8.ofInt (charValue sign s)).toUInt32) * 0x01000193) rest
    else h

/-- The contract's hash of a string in memory. -/
def fnv1a32 (sign : Signedness) (s : List UInt8) : UInt32 := fnv1a32Loop sign 0x811C9DC5 s

/-- The plugin interface's loop, which both its stages run. -/
def canproxyVehicleIdLoop (sign : Signedness) (h : UInt32) : List UInt8 → UInt32
  | [] => h
  | p :: rest =>
    if charValue sign p ≠ 0 then
      let h := h ^^^ (UInt8.ofInt (charValue sign p)).toUInt32
      let h := h * 0x01000193
      canproxyVehicleIdLoop sign h rest
    else h

/-- The plugin interface's hash of a plugin's name and a vehicle's number, either of them absent. -/
def canproxyVehicleId (sign : Signedness) (pluginName vinOrNull : Option (List UInt8)) : UInt32 :=
  let h := canproxyVehicleIdLoop sign 0x811C9DC5 (pluginName.getD [])
  match vinOrNull with
  | some (vin :: rest) =>
    -- An empty number starts with its terminator, and is left out with its separator.
    if charValue sign vin ≠ 0 then
      let h := h ^^^ 0x2F
      let h := h * 0x01000193
      canproxyVehicleIdLoop sign h (vin :: rest)
    else h
  | _ => h

end CanProxy
