import CanProxy.Core.Daemon
import CanProxy.Forza.Telemetry
import CanProxy.Lib.Run

/-!
The plugin that shows the car driven in a game: speed, engine, fuel, and distance as telemetry has them.

What the clock and the socket give in one turn of the loop is an input of that turn. Times are
milliseconds.
-/

namespace CanProxy.Forza

open Numeric

/-- The signals of the sled block, and those of the dash block where there is one. -/
def capableOf (f : Frame) : UInt32 :=
  let cap :=
    Signal.speed.bit ||| Signal.rpm.bit ||| Signal.gear.bit ||| Signal.powerState.bit
  if f.hasDash then
    cap ||| (Signal.motorPower.bit ||| Signal.fuelLevel.bit ||| Signal.odometer.bit)
  else cap

/-- The gear shown: parked outside a race, and the game's gear zero is reverse. -/
def gearOf (f : Frame) : ℤ :=
  if !f.raceOn then cpGearP
  else if f.hasDash && f.gear = 0 then cpGearR
  else cpGearD

/-- The lamps a dash block can light. -/
def lampsOf (f : Frame) : UInt32 :=
  let lamps := if f.handbrake ≠ 0 then Lamp.parkBrake.bit else 0
  -- The threshold is the single-precision number next to one tenth.
  if f.fuel.lt (.finite (13421773 / 2 ^ 27)) then lamps ||| Lamp.lowFuel.bit else lamps

/-- The state published for a frame; every advertised signal is also marked current. -/
def publish (drivetrain : ℤ) (f : Frame) : VehicleState :=
  let s :=
    { VehicleState.zero with
      drivetrain := drivetrain
      source := cpSourceSimulated
      vehicleId := vehicleId "forza".toUTF8.data.toList none
      capable := capableOf f
      valid := capableOf f
      speedKmh := f.speedMps * .finite (18 / 5)
      rpm := f.engineRpm
      powerState := if f.raceOn then cpPowerReady else cpPowerOn
      gear := gearOf f }
  if f.hasDash then
    { s with
      motorPowerKw := f.powerW / .finite 1000
      fuelPct := f.fuel * .finite 100
      odometerKm := f.distanceM / .finite 1000
      lamps := lampsOf f }
  else s

/-- The arguments the plugin is created with; it is not created with a shorter timeout. -/
structure Config where
  drivetrain : ℤ
  timeoutMs : ℤ
  longEnough : 100 ≤ timeoutMs

/-- What the loop keeps from one turn to the next. -/
structure Plugin where
  linked : Bool
  lastPacket : ℤ
  lastPublish : ℤ
  lastFormat : String

/-- The loop before its first turn: no packet was seen, and nothing was published. -/
def Plugin.new : Plugin where
  linked := false
  lastPacket := -1
  lastPublish := 0
  lastFormat := ""

/-- What one turn of the loop meets: a clock reading, and a packet unless none came or none could be read. -/
structure Turn where
  now : ℤ
  datagram : Option (List UInt8)

/-- What the plugin tells its host and its log. -/
inductive Event where
  | setLink (present : Bool)
  | publish (s : VehicleState) (now : ℤ)
  | telemetryFormat (format : String) (size : Nat)
  | ignoring (size : Nat)
  | vehicleGone (timeoutMs : ℤ)
deriving DecidableEq

/-- The bytes received in a turn: those of the packet that fit the buffer. -/
def Turn.received (turn : Turn) : List UInt8 := (turn.datagram.getD []).take 512

namespace Plugin

variable (length : Length) (c : Config)

/-- A packet that parses raises the link, and is published unless another one was just before. -/
def onFrame (p : Plugin) (now : ℤ) (size : Nat) (f : Frame) : Plugin × List Event :=
  let raised := if p.linked then [] else [Event.setLink true]
  let noted := if f.format ≠ p.lastFormat then [Event.telemetryFormat f.format size] else []
  let p := { p with linked := true, lastFormat := f.format, lastPacket := now }
  -- The game sends more often than the fastest frame of the contract.
  if now - p.lastPublish ≥ 20 then
    ({ p with lastPublish := now }, raised ++ noted ++ [.publish (Forza.publish c.drivetrain f) now])
  else (p, raised ++ noted)

/-- Take what the socket has. -/
def receive (p : Plugin) (turn : Turn) : Plugin × List Event :=
  if turn.received.length = 0 then (p, [])
  else
    match parse length turn.received with
    | some f => p.onFrame c turn.now turn.received.length f
    | none =>
      -- The first packet that is refused is logged, and its time marks that this was done.
      if p.lastPacket < 0 then
        ({ p with lastPacket := turn.now }, [.ignoring turn.received.length])
      else (p, [])

/-- After too long a silence the vehicle is gone. -/
def checkSilence (p : Plugin) (now : ℤ) : Plugin × List Event :=
  if p.linked = true ∧ now - p.lastPacket > c.timeoutMs then
    ({ p with linked := false, lastFormat := "" }, [.vehicleGone c.timeoutMs, .setLink false])
  else (p, [])

/-- One turn of the loop. -/
def step (p : Plugin) (turn : Turn) : Plugin × List Event :=
  let (p, heard) := p.receive length c turn
  let (p, lost) := p.checkSilence c turn.now
  (p, heard ++ lost)

/-- Everything a run of the loop tells. -/
def log (turns : List Turn) : List Event := Run.outputs (step length c) new turns

end Plugin

/-- What the host is told about the link. -/
def Event.link? : Event → Option Bool
  | .setLink present => some present
  | _ => none

/-- What an event reports to the host. -/
def Event.report? : Event → Option Report
  | .setLink present => some (.setLink present)
  | .publish s _ => some (.publish s)
  | _ => none

/-- When a state is published. -/
def Event.publish? : Event → Option ℤ
  | .publish _ now => some now
  | _ => none

/-- What the host was told about the link last. -/
def lastLink (log : List Event) : Option Bool := Run.last Event.link? log

/-- A state is published only while the host was last told that the vehicle is there. -/
def WhileUp (before : List Event) (e : Event) : Prop :=
  e.publish?.isSome = true → lastLink before = some true

/-- The time of a turn in which a packet was accepted. -/
def Turn.accepted (length : Length) (turn : Turn) : Option ℤ :=
  (parse length turn.received).map fun _ => turn.now

/-- The time at which the last packet was accepted. -/
def lastAccepted (length : Length) (turns : List Turn) : Option ℤ :=
  Run.last (Turn.accepted length) turns

end CanProxy.Forza
