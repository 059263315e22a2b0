import CanProxy.Replay.Line
import CanProxy.Replay.Respond
import Mathlib.Data.List.Dedup

/-!
The replay tool acting as a recorded vehicle: the file it reads, the frames it sends over and over, and
the answer it has for a frame on the bus.
-/

namespace CanProxy.Replay

open Numeric

/-- A frame to be recorded, and the time of day. -/
structure Stamped where
  sec : ℤ
  usec : ℤ
  frame : CanFrame

/-- What a channel has written once it has recorded some frames. -/
def recordFile (interface : Text) (recorded : List Stamped) : Text :=
  recorded.flatMap fun x => recordLine x.sec x.usec interface x.frame ++ ['\n']

/-- The lines of a file, the last of which may lack its newline. -/
def getlines : Text → List Text
  | [] => []
  | c :: rest =>
    if c = '\n' then [] :: getlines rest
    else
      match getlines rest with
      | [] => [[c]]
      | line :: lines => (c :: line) :: lines

/-- What is in memory where a line is read: the record before it is filled, and the number for each byte. -/
structure Memory where
  r : Rec
  b : Nat → UInt8

/-- The records of a file; a line that is no frame is left out. -/
def readLog (memory : Nat → Memory) (file : Text) : List Rec :=
  (getlines file).zipIdx.filterMap fun line => parseLine (memory line.2).b line.1 (memory line.2).r

/-- The frame a record is sent as, its whole buffer included. -/
def Rec.frame (r : Rec) : CanFrame := ⟨r.id, r.dlc, r.data⟩

/-- The record is sent over and over: it is neither a request that names a parameter nor a response. -/
def isBroadcast (r : Rec) : Bool := !isRequest r.frame && !isObdResponse r.id

/-- The times of the broadcasts of an identifier. -/
def broadcastTimes (recs : List Rec) (id : UInt32) : List Double :=
  (recs.filter fun r => isBroadcast r && r.id = id).map Rec.t

/-- The last broadcast of an identifier. -/
def broadcastLast (recs : List Rec) (id : UInt32) : Option Rec :=
  (recs.filter fun r => isBroadcast r && r.id = id).getLast?

/-- The milliseconds between two broadcasts of an identifier; the override counts unless it is negative. -/
def periodMs (m : Machine) (periodOverride : ℤ) (ts : List Double) : ℤ :=
  let observed :=
    match ts with
    | first :: second :: rest =>
      let span := (second :: rest).getLast (List.cons_ne_nil _ _) + -first
      (m.toLong (span / .ofInt (rest.length + 1) * .ofInt 1000 + .finite (1 / 2))).toInt
    | _ => 100
  let ms := if periodOverride < 0 then observed else periodOverride
  if ms < 1 then 1 else ms

/-- Every identifier that is broadcast, with the frame that is sent and the milliseconds in between. -/
def broadcasts (m : Machine) (periodOverride : ℤ) (recs : List Rec) : List (CanFrame × ℤ) :=
  -- Each is sent by a thread of its own, so their order does not matter.
  ((recs.filter isBroadcast).map Rec.id).dedup.filterMap fun id =>
    (broadcastLast recs id).map fun r =>
      (r.frame, periodMs m periodOverride (broadcastTimes recs id))

/-- The answer to a frame that is read: what is kept for the parameter of a request, if anything is. -/
def respond (answers : UInt8 → Option CanFrame) (f : CanFrame) : Option CanFrame :=
  -- Only the standard part of the identifier is looked at.
  if isRequest { f with id := f.id &&& 0x7FF } then answers (getElem f.data 2 Place.eight2) else none

/-- What a channel receives of a frame that is sent. -/
def receive (f : CanFrame) : CanFrame :=
  { f with id := f.id &&& 0x7FF, dlc := if f.dlc > 8 then 8 else f.dlc }

end CanProxy.Replay
