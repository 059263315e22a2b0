import CanProxy.Core.Consumer
import CanProxy.Ice.Plugin
import Mathlib.Data.List.DropRight
import Mathlib.Data.Nat.Digits.Defs

/-! What a run of the plugin has heard from the vehicle so far, read off its log alone. -/

namespace CanProxy.Ice

open Numeric

/-- The parameter a signal is read from; the power state has none of its own. -/
def pidOf : Signal → Option UInt8
  | .speed => some pidSpeed
  | .rpm => some pidRpm
  | .coolantTemp => some pidCoolantTemp
  | .fuelLevel => some pidFuelLevel
  | .auxBattery => some pidModuleVoltage
  | .ambientTemp => some pidAmbientTemp
  | .odometer => some pidOdometer
  | _ => none

/-- The parameter a signal depends on; the power state is read off the engine speed. -/
def behind : Signal → Option UInt8
  | .powerState => some pidRpm
  | sig => pidOf sig

/-- The interval a parameter is asked for at. -/
def Config.interval (c : Config) (pid : UInt8) : ℤ :=
  -- These are the intervals that a discovery schedules the parameters with.
  if pid = pidSpeed ∨ pid = pidRpm then c.fastMs
  else if pid = pidCoolantTemp then c.fastMs * 5
  else c.fastMs * 20

/-- A successful search for a vehicle. -/
def Event.discovers : Event → Bool
  | .discovered _ => true
  | _ => false

/-- The parameters advertised after one more event. -/
def Event.advertise (supported : Finset UInt8) : Event → Finset UInt8
  -- A discovery replaces them, and an answered filler takes one away.
  | .discovered found => found
  | .query pid (some v) _ => if filler pid v then supported.erase pid else supported
  | _ => supported

/-- The parameters advertised at the end of a log. -/
def advertised (log : List Event) : Finset UInt8 := log.foldl Event.advertise ∅

/-- The last answer to a parameter after one more event; a discovery starts over. -/
def Event.answer (pid : UInt8) (last : Option (Double × ℤ)) : Event → Option (Double × ℤ)
  -- A request without an answer leaves the last one in place.
  | .discovered _ => none
  | .query k (some v) time => if k = pid then some (v, time) else last
  | _ => last

/-- The answer to a parameter's last successful query since the last discovery, and its time. -/
def answered (pid : UInt8) (log : List Event) : Option (Double × ℤ) :=
  log.foldl (Event.answer pid) none

/-- The parameter that an event drops for answering a filler. -/
def Event.dropped? : Event → Option UInt8
  | .query pid (some v) _ => if filler pid v then some pid else none
  | _ => none

/-- The parameters dropped in a part of a log. -/
def dropped (part : List Event) : List UInt8 := part.filterMap Event.dropped?

/-- A search finds none of the parameters that were dropped before it. -/
def Spares (before : List Event) : Event → Prop
  | .discovered found => ∀ pid ∈ dropped before, pid ∉ found
  | _ => True

instance (before : List Event) (e : Event) : Decidable (Spares before e) :=
  match e with
  | .discovered found => inferInstanceAs (Decidable (∀ pid ∈ dropped before, pid ∉ found))
  | .telltales .. | .query .. | .implausiblePid .. | .setLink _ | .publish .. =>
    inferInstanceAs (Decidable True)

/-- A parameter that was dropped is neither advertised nor asked for any more. -/
def StaysDropped (before : List Event) : Event → Prop
  | .publish s _ => ∀ pid ∈ dropped before, ∀ sig, behind sig = some pid →
    Bits.mem s.capable sig.index = false
  | .query pid _ _ => pid ∉ dropped before
  | _ => True

/-- What the host is told about the link. -/
def Event.link? : Event → Option Bool
  | .setLink present => some present
  | _ => none

/-- What the host was told about the link last. -/
def lastLink (log : List Event) : Option Bool := Run.last Event.link? log

/-- The parameter a request was for, and the answer it got. -/
def Event.request? : Event → Option (UInt8 × Option Double)
  | .query pid answer _ => some (pid, answer)
  | _ => none

/-- The requests since the last discovery, the most recent one last. -/
def requests (log : List Event) : List (UInt8 × Option Double) :=
  (Run.since Event.discovers log).filterMap Event.request?

/-- The five most recent requests since the last discovery are there, and none of them got an answer. -/
def FiveFailed (log : List Event) : Prop :=
  5 ≤ (requests log).length ∧ ∀ request ∈ (requests log).rtake 5, request.2 = none

instance (log : List Event) : Decidable (FiveFailed log) :=
  inferInstanceAs (Decidable (_ ∧ _))

/-- The bitmap that bytes spell, the low byte first. -/
def littleEndian (bytes : List UInt8) : UInt32 := UInt32.ofNat (Nat.ofDigits 256 (bytes.map (·.toNat)))

/-- What a lamp frame shows, and when it was seen; a frame without two bytes shows nothing. -/
def Event.lamps? : Event → Option (UInt32 × ℤ)
  | .telltales f time =>
    -- A frame shows either all four bytes of the bitmap or only the lower two.
    if f.dlc < 2 then none
    else some (littleEndian (f.data.toList.take (if f.dlc < 4 then 2 else 4)), time)
  | _ => none

/-- The lamps that are on at a time: those seen last, for half a second. -/
def lampsOn (log : List Event) (now : ℤ) : UInt32 :=
  match Run.last Event.lamps? log with
  | some (bits, time) => if now - time ≤ 500 then bits else 0
  | none => 0

/-- A published state says nothing about the vehicle that it has not answered. -/
structure Faithful (c : Config) (before : List Event) (s : VehicleState) (now : ℤ) : Prop where
  /-- Whatever is valid is advertised. -/
  advertised : ∀ i, Bits.mem s.valid i = true → Bits.mem s.capable i = true
  /-- A valid signal has its parameter's last answer, which is at most three intervals old. -/
  current : ∀ sig pid, pidOf sig = some pid → Bits.mem s.valid sig.index = true →
    pid ∈ Ice.advertised before ∧ ∃ v time, answered pid before = some (v, time) ∧
      s.quantity sig = v ∧ now - time ≤ 3 * c.interval pid
  /-- A valid auxiliary voltage is not below six volts. -/
  voltage : Bits.mem s.valid Signal.auxBattery.index = true → s.auxBatteryV.lt (.finite 6) = false
  /-- A valid ambient temperature is above minus forty degrees. -/
  ambient : Bits.mem s.valid Signal.ambientTemp.index = true → s.ambientC.le (.finite (-40)) = false
  /-- The power state is valid together with the engine speed. -/
  power : Bits.mem s.valid Signal.powerState.index = Bits.mem s.valid Signal.rpm.index
  /-- The power state says ready exactly when the engine turns. -/
  ready : s.powerState = cpPowerReady ↔ (Double.finite 0).lt s.rpm = true
  /-- Nothing is valid while the host was last told that the vehicle is gone. -/
  gone : lastLink before = some false → s.valid = 0

end CanProxy.Ice
