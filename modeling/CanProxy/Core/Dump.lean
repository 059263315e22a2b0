import CanProxy.Core.Publisher

/-! The tool that watches the contract bus and counts the heartbeats it missed. -/

namespace CanProxy

/-- What the tool knows of the rolling counter; a negative one means that there was no heartbeat yet. -/
structure CounterCheck where
  counterSkips : Nat
  lastCounter : ℤ
deriving DecidableEq

namespace CounterCheck

/-- The tool before its first frame. -/
def start : CounterCheck := ⟨0, -1⟩

/-- Look at one frame: a heartbeat that does not follow the one before counts as a skip. -/
def see (check : CounterCheck) (frame : Sent) : CounterCheck :=
  -- Other frames carry no counter.
  if frame.id = .status then
    { counterSkips :=
        if check.lastCounter ≥ 0 ∧ getElem frame.data 2 Place.eight2 ≠ UInt8.ofInt (check.lastCounter + 1) then
          check.counterSkips + 1
        else check.counterSkips
      lastCounter := (getElem frame.data 2 Place.eight2).toNat }
  else check

end CounterCheck

/-- The skips that the tool counts in what it receives. -/
def counterSkips (received : List Sent) : Nat :=
  (received.foldl CounterCheck.see .start).counterSkips

end CanProxy
