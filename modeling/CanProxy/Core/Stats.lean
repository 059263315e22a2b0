import CanProxy.Core.Dump

/-!
The tool's timing check: what it measures for every identifier, and whether it exits with an error.

Times are readings of the time of day in microseconds, and what is computed from them is exact.
-/

namespace CanProxy

/-- A frame that the tool has read: the standard part of its identifier, its bytes, and when. -/
structure Received where
  id : UInt32
  data : FrameData
  t : ℤ

/-- What is measured for one identifier. -/
structure Stat where
  count : Nat
  last : ℤ
  sumInterval : ℚ
  worstDev : ℚ

/-- An identifier that was not seen yet. -/
def Stat.zero : Stat := ⟨0, 0, 0, 0⟩

/-- One more frame; from the second on there is an interval to measure, in milliseconds. -/
def Stat.see (s : Stat) (id : UInt32) (t : ℤ) : Stat :=
  let s :=
    if s.count > 0 then
      let interval : ℚ := (t - s.last) / 1000
      let dev := |interval - cycleMs id|
      { s with
        sumInterval := s.sumInterval + interval
        worstDev := if dev > s.worstDev then dev else s.worstDev }
    else s
  { s with count := s.count + 1, last := t }

/-- The identifiers seen, what is measured for each, and the check of the rolling counter. -/
structure Watch where
  ids : List UInt32
  stats : UInt32 → Stat
  check : CounterCheck

/-- The tool before its first frame. -/
def Watch.start : Watch := ⟨[], fun _ => .zero, .start⟩

/-- One frame that is read; only heartbeats carry the counter. -/
def Watch.see (w : Watch) (f : Received) : Watch where
  ids := if w.ids.contains f.id then w.ids else w.ids ++ [f.id]
  stats := Function.update w.stats f.id ((w.stats f.id).see f.id f.t)
  check := if f.id = FrameId.status.code then w.check.see ⟨f.t, .status, f.data⟩ else w.check

/-- What the tool has measured after some frames. -/
def watch (received : List Received) : Watch := received.foldl Watch.see .start

/-- What the tool is asked to check; a negative jitter is not checked. -/
structure Checks where
  maxJitterMs : ℚ
  expect : List UInt32
  requireCounter : Bool

/-- The exit code: one when some check fails. -/
def Checks.rc (c : Checks) (w : Watch) : Nat :=
  if w.ids.any (fun id => 0 ≤ c.maxJitterMs && c.maxJitterMs < (w.stats id).worstDev) ||
      c.expect.any (fun id => !w.ids.contains id) || c.requireCounter && w.check.counterSkips ≠ 0 then 1
  else 0

end CanProxy
