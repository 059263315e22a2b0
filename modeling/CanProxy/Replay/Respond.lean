import CanProxy.Obd.J1979
import Mathlib.Logic.Function.Basic

/-! Acting as a recorded vehicle: each request of a log is paired with a response that follows it. -/

namespace CanProxy.Replay

/-- Functional and physical requests. -/
def isObdRequest (id : UInt32) : Bool := id = 0x7DF || (0x7E0 ≤ id && id ≤ 0x7E7)

def isObdResponse (id : UInt32) : Bool := 0x7E8 ≤ id && id ≤ 0x7EF

/-- The record is a request that names a parameter. -/
def isRequest (r : CanFrame) : Bool := isObdRequest r.id && 3 ≤ r.dlc

/-- The record is a response that names the parameter. -/
def namesPid (pid : UInt8) (a : CanFrame) : Bool :=
  -- Neither the service answered nor the controller that answers is looked at.
  isObdResponse a.id && 3 ≤ a.dlc && getElem a.data 2 Place.eight2 = pid

/-- Pair each request with the next response carrying the same parameter, up to fifteen records on. -/
def pair : List CanFrame → (UInt8 → Option CanFrame) → UInt8 → Option CanFrame
  | [], answers => answers
  | r :: rest, answers =>
    if isRequest r then
      let pid := getElem r.data 2 Place.eight2
      match (rest.take 15).find? (namesPid pid) with
      -- A later pair replaces an earlier one of the same parameter.
      | some a => pair rest (Function.update answers pid (some a))
      | none => pair rest answers
    else pair rest answers

/-- The response kept for each parameter, none for one that no request was paired for. -/
def answers (recs : List CanFrame) : UInt8 → Option CanFrame := pair recs fun _ => none

end CanProxy.Replay
