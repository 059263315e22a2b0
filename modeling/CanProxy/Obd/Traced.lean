import CanProxy.Lib.Reading
import CanProxy.Obd.J1979

/-!
The functions that look into a response, with every byte they read as a step of its own.

Each one has the same branches as the function it is named after, and reads what that branch reads.
-/

namespace CanProxy

open Numeric Reading

/-- What is at an index of a buffer. -/
def bytesOf {size : Nat} (buffer : Vector UInt8 size) (i : Nat) : UInt8 := buffer[i]?.getD 0

/-- The number of bytes that the first byte of a frame declares. -/
def declaredLength (pci : UInt8) : Nat := (pci &&& 0x0F).toNat

namespace Traced

/-- Parse a positive response that fits one frame. -/
def parseSingleFrame (dlc : UInt8) : Reading Nat UInt8 (Option Response) :=
  if dlc < 3 then pure none
  else do
    let pci ← cell 0
    if pci &&& 0xF0 ≠ 0 then pure none
    else
      let len := declaredLength pci
      if len < 2 ∨ dlc.toNat < len + 1 ∨ 7 < len then pure none
      else do
        let mode ← cell 1
        -- A refusal is recognized before anything behind its service is read.
        if mode = 0x7F then pure none
        else do
          let pid ← cell 2
          let payload ← cells (List.range' 3 (len - 2))
          let data := Vector.ofFn fun i => payload.getD i.val 0
          return some { mode := mode, pid := pid, data := data, len := len - 2 }

/-- The four bytes of a bitmap as one word. -/
def bitmapWord : Reading Nat UInt8 UInt32 := do
  let a ← cell 0
  let b ← cell 1
  let c ← cell 2
  let d ← cell 3
  return (a.toUInt32 <<< 24) ||| (b.toUInt32 <<< 16) ||| (c.toUInt32 <<< 8) ||| d.toUInt32

/-- The parameters a bitmap advertises. -/
def supportedPidsFrom (basePid : UInt8) : Reading Nat UInt8 (List UInt8) := do
  let word ← bitmapWord
  return ((List.range' 1 32).filter fun n => word &&& (1 <<< UInt32.ofNat (32 - n)) ≠ 0).map
    fun n => basePid + UInt8.ofNat n

/-- The last bit of a bitmap says that the next block exists. -/
def nextBlockAdvertised : Reading Nat UInt8 Bool := do
  let d ← cell 3
  return d &&& 0x01 ≠ 0

/-- The two-byte fields of the decode table. -/
def twoBytes : Reading Nat UInt8 Double := do
  let a ← cell 0
  let b ← cell 1
  return .ofInt a.toNat * .finite 256 + .ofInt b.toNat

/-- The physical value of a payload. -/
def decode (pid : UInt8) (len : Nat) : Reading Nat UInt8 (Option Double) :=
  if len < payloadLength pid ∨ payloadLength pid = 0 then pure none
  else if pid = pidEngineLoad ∨ pid = pidFuelLevel ∨ pid = pidHybridBattery then do
    let a ← cell 0
    return some (.ofInt a.toNat * .finite 100 / .finite 255)
  else if pid = pidCoolantTemp ∨ pid = pidIntakeTemp ∨ pid = pidAmbientTemp then do
    let a ← cell 0
    return some (.ofInt a.toNat + .finite (-40))
  else if pid = pidRpm then do
    let v ← twoBytes
    return some (v / .finite 4)
  else if pid = pidSpeed then do
    let a ← cell 0
    return some (.ofInt a.toNat)
  else if pid = pidMaf then do
    let v ← twoBytes
    return some (v / .finite 100)
  else if pid = pidModuleVoltage then do
    let v ← twoBytes
    return some (v / .finite 1000)
  else if pid = pidOdometer then do
    let word ← bitmapWord
    return some (.ofInt word.toNat / .finite 10)
  else pure none

/-- What a block of the discovery takes from a payload: its parameters, and whether there is another. -/
def block (base : UInt8) (len : Nat) : Reading Nat UInt8 (Option (List UInt8 × Bool)) :=
  -- A payload too short for a bitmap is not looked at.
  if len < 4 then pure none
  else do
    let pids ← supportedPidsFrom base
    let next ← nextBlockAdvertised
    return some (pids, next)

end Traced

/-- What a query makes of a frame: nothing when it is refused, and otherwise its value, if any. -/
def queryOf (pid : UInt8) (frame : Vector UInt8 8) (dlc : UInt8) : Option (Option Double) :=
  (parseSingleFrame frame dlc).map fun r => decode pid r.data r.len

/-- What a discovery makes of a frame: the parameters of its bitmap, and whether there is another. -/
def blockOf (base : UInt8) (frame : Vector UInt8 8) (dlc : UInt8) : Option (List UInt8 × Bool) :=
  (parseSingleFrame frame dlc).bind fun r =>
    if r.len < 4 then none else some (supportedPidsFrom base r.data, nextBlockAdvertised r.data)

end CanProxy
