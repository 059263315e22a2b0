import CanProxy.Lib.Bits
import CanProxy.Lib.Double
import Mathlib.Data.List.Range

/-!
Standard diagnostics over classic CAN: the frames of the vehicle bus, single-frame responses,
supported-parameter bitmaps, and the decode table for the parameters the plugins use.
-/

namespace CanProxy

open Numeric

/-- A classic CAN frame: its identifier, how many bytes it carries, and the eight bytes of its buffer. -/
structure CanFrame where
  id : UInt32
  dlc : UInt8
  data : Vector UInt8 8
deriving DecidableEq

/-- Functional requests go to every controller at once. -/
def kRequestId : UInt32 := 0x7DF

/-- The identifier of the first controller's responses. -/
def kResponseIdFirst : UInt32 := 0x7E8

/-- The identifier of the eighth controller's responses. -/
def kResponseIdLast : UInt32 := 0x7EF

/-- The service that reads current data. -/
def kModeCurrentData : UInt8 := 0x01

/-- A positive response repeats the service under this offset. -/
def kResponseOffset : UInt8 := 0x40

def pidSupported00 : UInt8 := 0x00
def pidEngineLoad : UInt8 := 0x04
def pidCoolantTemp : UInt8 := 0x05
def pidIntakeTemp : UInt8 := 0x0B
def pidRpm : UInt8 := 0x0C
def pidSpeed : UInt8 := 0x0D
def pidMaf : UInt8 := 0x10
def pidSupported20 : UInt8 := 0x20
def pidFuelLevel : UInt8 := 0x2F
def pidSupported40 : UInt8 := 0x40
def pidModuleVoltage : UInt8 := 0x42
def pidAmbientTemp : UInt8 := 0x46
def pidHybridBattery : UInt8 := 0x5B
def pidSupported60 : UInt8 := 0x60
def pidSupported80 : UInt8 := 0x80
def pidSupportedA0 : UInt8 := 0xA0
def pidOdometer : UInt8 := 0xA6
def pidSupportedC0 : UInt8 := 0xC0

/-- The identifier is one that a controller responds under. -/
def isResponseId (id : UInt32) : Bool := kResponseIdFirst ≤ id && id ≤ kResponseIdLast

/-- The parameter is the bitmap of a block rather than a value. -/
def isSupportedPid (pid : UInt8) : Bool := pid &&& 0x1F = 0

/-- The eight bytes of a request. -/
def buildRequest (mode pid : UInt8) : Vector UInt8 8 :=
  (((Vector.replicate 8 0).set 0 0x02 Place.eight0).set 1 mode Place.eight1).set 2 pid Place.eight2

/-- A response: the service and parameter it answers, and the payload bytes after them. -/
structure Response where
  mode : UInt8
  pid : UInt8
  data : Vector UInt8 6
  len : Nat
deriving DecidableEq

/-- Parse a positive response that fits one frame; none for anything else. -/
def parseSingleFrame (frame : Vector UInt8 8) (dlc : UInt8) : Option Response :=
  if dlc < 3 then none
  else
    let pci := getElem frame 0 Place.eight0
    -- The high half of the first byte tells longer transfers and flow control apart.
    if pci &&& 0xF0 ≠ 0 then none
    else
      let len := (pci &&& 0x0F).toNat
      if len < 2 ∨ dlc.toNat < len + 1 ∨ 7 < len then none
      -- A refusal carries the service it refuses where the parameter would be.
      else if getElem frame 1 Place.eight1 = 0x7F then none
      else
        some
          { mode := getElem frame 1 Place.eight1
            pid := getElem frame 2 Place.eight2
            -- Bytes past the declared payload stay zero, whatever padding the frame has.
            data := Vector.ofFn fun i => if i.val < len - 2 then frame[i.val + 3]?.getD 0 else 0
            len := len - 2 }

/-- A frame that is parsed passes every check, and declares what its response holds. -/
theorem parseSingleFrame_some {frame : Vector UInt8 8} {dlc : UInt8} {r : Response}
    (parsed : parseSingleFrame frame dlc = some r) :
    3 ≤ dlc ∧ getElem frame 0 Place.eight0 &&& 0xF0 = 0 ∧
      r.len + 2 = (getElem frame 0 Place.eight0 &&& 0x0F).toNat ∧ r.len ≤ 5 ∧
      r.len + 3 ≤ dlc.toNat ∧ r.mode = getElem frame 1 Place.eight1 ∧ r.mode ≠ 0x7F ∧
      r.pid = getElem frame 2 Place.eight2 := by
  unfold parseSingleFrame at parsed
  dsimp only at parsed
  -- Only one way through the checks leads to a response.
  split at parsed
  · cases parsed
  next long =>
    split at parsed
    · cases parsed
    next single =>
      split at parsed
      · cases parsed
      next inside =>
        split at parsed
        · cases parsed
        next positive =>
          obtain rfl := Option.some.inj parsed
          dsimp only
          exact ⟨UInt8.not_lt.mp long, not_not.mp single, by omega, by omega, by omega, rfl, positive, rfl⟩

/-- The payload bytes a known parameter needs, zero for an unknown one. -/
def payloadLength (pid : UInt8) : Nat :=
  if pid ∈ [pidEngineLoad, pidCoolantTemp, pidIntakeTemp, pidSpeed, pidFuelLevel, pidAmbientTemp,
      pidHybridBattery] then 1
  else if pid ∈ [pidRpm, pidMaf, pidModuleVoltage] then 2
  else if pid ∈ [pidOdometer, pidSupported00, pidSupported20, pidSupported40, pidSupported60,
      pidSupported80, pidSupportedA0, pidSupportedC0] then 4
  else 0

/-- The four bytes of a bitmap as one word, the first byte on top. -/
def bitmapWord (abcd : Vector UInt8 6) : UInt32 :=
  (abcd[0].toUInt32 <<< 24) ||| (abcd[1].toUInt32 <<< 16) ||| (abcd[2].toUInt32 <<< 8) |||
    abcd[3].toUInt32

/-- The parameters a bitmap advertises, from the one after its own number on. -/
def supportedPidsFrom (basePid : UInt8) (abcd : Vector UInt8 6) : List UInt8 :=
  -- The top bit of the first byte stands for the next parameter, the lowest of the last for 32 on.
  ((List.range' 1 32).filter fun n => bitmapWord abcd &&& (1 <<< UInt32.ofNat (32 - n)) ≠ 0).map
    fun n => basePid + UInt8.ofNat n

/-- The last bit of a bitmap says that the next block exists. -/
def nextBlockAdvertised (abcd : Vector UInt8 6) : Bool := abcd[3] &&& 0x01 ≠ 0

/-- The two-byte fields of the decode table, before they are scaled. -/
def twoBytes (p : Vector UInt8 6) : Double :=
  .ofInt p[0].toNat * .finite 256 + .ofInt p[1].toNat

/-- The physical value of a payload; none for an unknown parameter or too few bytes. -/
def decode (pid : UInt8) (p : Vector UInt8 6) (len : Nat) : Option Double :=
  if len < payloadLength pid ∨ payloadLength pid = 0 then none
  else if pid = pidEngineLoad ∨ pid = pidFuelLevel ∨ pid = pidHybridBattery then
    some (.ofInt p[0].toNat * .finite 100 / .finite 255)
  else if pid = pidCoolantTemp ∨ pid = pidIntakeTemp ∨ pid = pidAmbientTemp then
    some (.ofInt p[0].toNat + .finite (-40))
  else if pid = pidRpm then some (twoBytes p / .finite 4)
  else if pid = pidSpeed then some (.ofInt p[0].toNat)
  else if pid = pidMaf then some (twoBytes p / .finite 100)
  else if pid = pidModuleVoltage then some (twoBytes p / .finite 1000)
  else if pid = pidOdometer then some (.ofInt (bitmapWord p).toNat / .finite 10)
  -- The bitmaps have a length but no physical value.
  else none

end CanProxy
