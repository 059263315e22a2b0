import CanProxy.Lib.Scan
import CanProxy.Obd.J1979

/-!
The line a channel records for a frame, and the replay tool's reading of a line.

Both work on strings in memory, and a line is without the newline that ends it in the file.
-/

namespace CanProxy.Replay

open Numeric

/-- Two digits for a byte, in upper case. -/
def hexByte (b : UInt8) : Text := Text.pad 2 (Text.ofNat 16 b.toNat)

/-- The line recorded for a frame: when, on which interface, its identifier, and its bytes. -/
def recordLine (sec usec : ℤ) (interface : Text) (f : CanFrame) : Text :=
  -- Only frames of at most eight bytes are recorded, so the bytes are always there.
  '(' :: (Text.ofInt sec ++ '.' :: (Text.ofInt usec 6 ++ ')' :: ' ' ::
    (Text.cString interface ++ ' ' :: (Text.pad 3 (Text.ofNat 16 f.id.toNat) ++ '#' ::
      (f.data.toList.take f.dlc.toNat).flatMap hexByte))))

/-- A frame of a recording, with its time in seconds. -/
structure Rec where
  t : Double
  id : UInt32
  dlc : UInt8
  data : Vector UInt8 8

/-- The five conversions of a line. -/
structure Conversions where
  sec : Nat
  usec : Nat
  iface : Text
  id : Nat
  hex : Text

/-- Convert a line, or stop at the first piece that does not match the format. -/
def scanLine (line : Text) : Option Conversions := do
  let t ← Scan.literal '(' (Text.cString line)
  let (sec, t) ← Scan.integer 10 t
  let t ← Scan.literal '.' t
  let (usec, t) ← Scan.integer 10 t
  let t ← Scan.literal ')' t
  -- A blank in the format skips any white space; the only blank that is looked for ends the word.
  let (iface, t) ← Scan.word 31 (Scan.skip t)
  let (id, t) ← Scan.integer 16 (Scan.skip t)
  let t ← Scan.literal '#' t
  let (hex, _) ← Scan.word 63 t
  pure ⟨Scan.toUlong sec, Scan.toUlong usec, iface, Scan.toUint id, hex⟩

/-- The byte of a pair of digits; without a number in it the byte is whatever was there. -/
def pairByte (unset : UInt8) (hex : Text) (i : Nat) : UInt8 :=
  match Scan.integerWithin 16 2 (hex.drop (2 * i)) with
  | some (b, _) => UInt8.ofNat (Scan.toUint b)
  | none => unset

/-- Read a line into a record, whose other bytes stay as they are. -/
def parseLine (unset : Nat → UInt8) (line : Text) (r : Rec) : Option Rec :=
  (scanLine line).map fun read =>
    let n := read.hex.length / 2
    let dlc := if n > 8 then 8 else n
    { t := .ofInt read.sec + .ofInt read.usec / .ofInt 1000000
      id := UInt32.ofNat read.id
      dlc := UInt8.ofNat dlc
      data := Vector.ofFn fun i =>
        if i < dlc then pairByte (unset i) read.hex i else getElem r.data i (Place.inside i) }

end CanProxy.Replay
