import CanProxy.Obd.J1979
import Mathlib.Data.Finset.Dedup
import Mathlib.Data.Finset.Insert
import Mathlib.Data.Finset.Lattice.Basic

/-!
How to talk to a vehicle: functional requests on the raw channel, sticking to the controller that
answered first, and the walk along the supported-parameter bitmaps.

What the bus delivers is a list of receptions, consumed from the front.
-/

namespace CanProxy

/-- What one look at the channel gives: a frame, or nothing because time ran out or the channel failed. -/
inductive Reception where
  | frame (f : CanFrame)
  | silence
deriving DecidableEq

/-- The controller a client sticks to, zero for none, and the parameters it was last told about. -/
structure Client where
  primaryEcu : UInt32
  supported : Finset UInt8

/-- What a call leaves: its result, the client, the broadcasts handed on, and the bus after it. -/
structure Outcome (α : Type) where
  result : α
  client : Client
  sunk : List CanFrame
  rest : List Reception

/-- The same outcome with broadcasts that were handed on before it. -/
def Outcome.after {α : Type} (frames : List CanFrame) (o : Outcome α) : Outcome α :=
  { o with sunk := frames ++ o.sunk }

namespace Client

variable (broadcastId : Option UInt32)

/-- Ask for a parameter and wait for its answer; none when time runs out first. -/
def request (c : Client) (pid : UInt8) : List Reception → Outcome (Option Response)
  | [] => ⟨none, c, [], []⟩
  | .silence :: rest => ⟨none, c, [], rest⟩
  | .frame f :: rest =>
    -- Broadcasts are handed on even when their identifier could be a response.
    if broadcastId = some f.id then (c.request pid rest).after [f]
    else if !isResponseId f.id then c.request pid rest
    else
      match parseSingleFrame f.data f.dlc with
      | none => c.request pid rest
      | some r =>
        if r.mode ≠ kModeCurrentData + kResponseOffset ∨ r.pid ≠ pid then c.request pid rest
        -- The first responder wins; the answers of other controllers are passed over from then on.
        else if c.primaryEcu = 0 then ⟨some r, { c with primaryEcu := f.id }, [], rest⟩
        else if f.id ≠ c.primaryEcu then c.request pid rest
        else ⟨some r, c, [], rest⟩

/-- The blocks of bitmaps still to be walked, from a block on, with the parameters found so far. -/
def walk : Nat → Nat → UInt8 → Finset UInt8 → Client → List Reception → Outcome Bool
  | 0, _, _, found, c, bus => ⟨true, { c with supported := found }, [], bus⟩
  | remaining + 1, block, base, found, c, bus =>
    let got := c.request broadcastId base bus
    -- Only a first block without an answer fails; later ones end the walk.
    let stop : Outcome Bool :=
      if block = 0 then ⟨false, got.client, got.sunk, got.rest⟩
      else ⟨true, { got.client with supported := found }, got.sunk, got.rest⟩
    match got.result with
    | none => stop
    | some r =>
      if r.len < 4 then stop
      else
        let found :=
          found ∪ ((supportedPidsFrom base r.data).filter (!isSupportedPid ·)).toFinset
        if nextBlockAdvertised r.data then
          (walk remaining (block + 1) (base + 0x20) found got.client got.rest).after got.sunk
        else ⟨true, { got.client with supported := found }, got.sunk, got.rest⟩

/-- Walk the bitmaps of the first controller that answers; false when nothing answers the first one. -/
def discover (c : Client) (bus : List Reception) : Outcome Bool :=
  walk broadcastId 7 0 pidSupported00 ∅ { c with primaryEcu := 0 } bus

/-- Ask for a parameter and decode its value. -/
def query (c : Client) (pid : UInt8) (bus : List Reception) : Outcome (Option Numeric.Double) :=
  let got := c.request broadcastId pid bus
  { got with result := got.result.bind fun r => decode pid r.data r.len }

/-- Wait for a while; the one frame taken is handed on when it is a broadcast. -/
def idle (c : Client) : List Reception → Outcome Unit
  | [] => ⟨(), c, [], []⟩
  | .silence :: rest => ⟨(), c, [], rest⟩
  | .frame f :: rest => ⟨(), c, if broadcastId = some f.id then [f] else [], rest⟩

end Client

end CanProxy
