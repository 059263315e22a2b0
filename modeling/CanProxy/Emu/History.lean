import CanProxy.Core.Consumer
import CanProxy.Emu.Plugin

/-! What a run of the plugin has accepted so far, read off its log alone. -/

namespace CanProxy.Emu

open Numeric

/-- The record a signal is read from; the rest come from standard parameters. -/
def didOf (hybrid : Bool) : Signal → Option Did
  -- Only the engine speed depends on the car: an electric one reports its motor's instead.
  | .packVoltage | .packCurrent | .soc | .soh | .chargingState => some .pack
  | .range | .consumption => some .range
  | .gear | .powerState | .motorPower => some .drive
  | .rpm => if hybrid then none else some .drive
  | .ecoScore | .speedLimit | .collisionRisk | .laneState | .leadGap => some .assist
  | _ => none

/-- The value of a signal in the records. -/
def Records.quantity (r : Records) : Signal → Double
  -- Signals of the standard parameters have no place in the records.
  | .packVoltage => r.pack.voltageV
  | .packCurrent => r.pack.currentA
  | .soc => r.pack.socPct
  | .soh => r.pack.sohPct
  | .chargingState => .ofInt r.pack.charging
  | .range => .ofInt r.range.rangeKm
  | .consumption => .ofInt r.range.consumptionWhKm
  | .gear => .ofInt r.drive.gear
  | .powerState => .ofInt r.drive.powerState
  | .motorPower => r.drive.motorPowerKw
  | .rpm => .ofInt r.drive.motorRpm
  | .ecoScore => .ofInt r.assist.ecoScore
  | .speedLimit => .ofInt r.assist.speedLimitKmh
  | .collisionRisk => .ofInt r.assist.collisionRisk
  | .laneState => .ofInt r.assist.laneState.toNat
  | .leadGap => r.assist.leadGapM
  | _ => .nan

/-- The decoder's verdict on the bytes of a record. -/
def accepts (did : Did) (d : List UInt8) : Bool := (Records.zero.decode did d).1

/-- The value of a signal in the bytes of a record. -/
def recorded (did : Did) (d : List UInt8) (sig : Signal) : Double :=
  (Records.zero.decode did d).2.quantity sig

/-- The unsigned number in two bytes of a record, high byte first. -/
def unsigned16 (d : List UInt8) (i : Nat) : ℤ := (d.getD i 0).toNat * 256 + (d.getD (i + 1) 0).toNat

/-- The signed number in two bytes of a record. -/
def signed16 (d : List UInt8) (i : Nat) : ℤ := (unsigned16 d i).bmod (2 ^ 16)

/-- The raw field of a signal in the bytes of its record. -/
def rawField (d : List UInt8) : Signal → ℤ
  | .packVoltage | .range => unsigned16 d 0
  | .packCurrent | .consumption => signed16 d 2
  | .soc => (d.getD 4 0).toNat
  | .soh => (d.getD 5 0).toNat
  | .chargingState => (d.getD 6 0).toNat
  | .gear | .ecoScore => (d.getD 0 0).toNat
  | .powerState | .speedLimit => (d.getD 1 0).toNat
  | .rpm => unsigned16 d 2
  | .motorPower => signed16 d 4
  | .collisionRisk => (d.getD 2 0).toNat
  | .laneState => (d.getD 3 0).toNat
  | .leadGap => unsigned16 d 4
  | _ => 0

/-- What is sent for a raw field: the number itself, kept clear of the not-available pattern. -/
def saturated (n : ℤ) : Signal → ℤ
  | .packVoltage | .range | .leadGap | .rpm => min n 0xFFFE
  | .packCurrent | .motorPower | .consumption => max n (-32767)
  | .soc | .soh => min n 200
  | .speedLimit => min n 254
  -- The lanes are the low four bits.
  | .laneState => n % 16
  -- The decoder has checked all others.
  | _ => n

/-- The number of bytes a decoder reads. -/
def Did.length : Did → Nat
  | .pack => 7
  | .range => 8
  | .drive => 6
  | .assist => 6

/-- The interval a record is asked for at. -/
def Config.interval (c : Config) : Did → ℤ
  -- These are the intervals that a discovery schedules the records with.
  | .pack => c.fastMs
  | .range => c.fastMs * 5
  | .drive => c.fastMs
  | .assist => c.fastMs * 2

/-- The record accepted last after one more event; a discovery starts over. -/
def Event.accept (did : Did) (last : Option (List UInt8 × ℤ)) : Event → Option (List UInt8 × ℤ)
  -- Only an accepted record of the kind asked about replaces the last one.
  | .discovered => none
  | .record k d time => if k = did ∧ accepts did d = true then some (d, time) else last
  | _ => last

/-- The record accepted last since the last discovery, and when it was received. -/
def accepted (did : Did) (log : List Event) : Option (List UInt8 × ℤ) :=
  log.foldl (Event.accept did) none

/-- The bytes of a record event, when they are long enough to be decoded. -/
def Event.decodable? (did : Did) : Event → Option (List UInt8)
  -- A record that is too short is never written, so it does not count.
  | .record k d _ => if k = did ∧ did.length ≤ d.length then some d else none
  | _ => none

/-- The decodable record received last, whatever the verdict on it. -/
def lastDecodable (did : Did) (log : List Event) : Option (List UInt8) :=
  (log.filterMap (Event.decodable? did)).getLast?

/-- What the host is told about the link. -/
def Event.link? : Event → Option Bool
  | .setLink present => some present
  | _ => none

/-- What the host was told about the link last. -/
def lastLink (log : List Event) : Option Bool := Run.last Event.link? log

/-- A record accepted since the last discovery is at most three of its intervals old. -/
def FreshlyAccepted (c : Config) (before : List Event) (did : Did) (now : ℤ) : Prop :=
  -- A time below zero stands for no answer, so it never counts.
  ∃ d time, accepted did before = some (d, time) ∧ 0 ≤ time ∧ now - time ≤ 3 * c.interval did

/--
Every signal a published state marks valid on behalf of a record carries the value of the record
accepted last, which is at most three intervals old.
-/
def CarriesAccepted (c : Config) (before : List Event) (s : VehicleState) (now : ℤ) : Prop :=
  -- Signals of the standard parameters are not constrained here.
  ∀ sig did, didOf c.hybrid sig = some did → Bits.mem s.valid sig.index = true →
    ∃ d time, accepted did before = some (d, time) ∧ s.quantity sig = recorded did d sig ∧
      now - time ≤ 3 * c.interval did

/-- No record rejected by its decoder came after an accepted one that is still fresh. -/
def NoFreshRejection (c : Config) (before : List Event) (now : ℤ) : Prop :=
  ∀ did d time, accepted did before = some (d, time) → 0 ≤ time → now - time ≤ 3 * c.interval did →
    ∀ last, lastDecodable did before = some last → accepts did last = true

end CanProxy.Emu
