import CanProxy.Lib.Run
import CanProxy.Obd.J1979
import CanProxy.Obd.Poller
import CanProxy.Plugin.Abi
import Mathlib.Data.Finset.Erase
import Mathlib.Data.Finset.Insert
import Mathlib.Logic.Function.Basic

/-!
The plugin for combustion cars: it asks only for what the vehicle advertises, and drops a parameter
that answers with a filler instead of a measurement.

What the bus and the clock answer in one turn of the loop is an input of that turn. Times are
milliseconds.
-/

namespace CanProxy.Ice

open Numeric

/-- The arguments a plugin is created with. -/
structure Config where
  source : ℤ
  fastMs : ℤ

/-- The members of the plugin, and the time its next publish is due. -/
structure Plugin where
  poller : Poller
  discovered : Bool
  supported : Finset UInt8
  values : UInt8 → Option Double
  lamps : UInt32
  lampsSeenMs : ℤ
  implausibleLogged : Finset UInt8
  nextPublish : ℤ

/-- A plugin that has just been started. -/
def Plugin.new : Plugin where
  -- The first publish is due at once, and no lamp frame has been seen.
  poller := .empty
  discovered := false
  supported := ∅
  values := fun _ => none
  lamps := 0
  lampsSeenMs := -1
  implausibleLogged := ∅
  nextPublish := 0

/--
What one turn of the loop meets, in the order it is asked for.

A clock reading is a number, an exchange that fails is none, and a lamp frame comes with the time it
was seen.
-/
structure Turn where
  now : ℤ
  lampFrames : List (CanFrame × ℤ)
  discovery : Option (Finset UInt8)
  answer : Option Double
  answeredAt : ℤ
  checkedAt : ℤ
  publishedAt : ℤ
  rescheduledAt : ℤ

/-- A turn in which every clock reading is the same and nothing answers. -/
def Turn.silent (now : ℤ) : Turn where
  now := now
  lampFrames := []
  discovery := none
  answer := none
  answeredAt := now
  checkedAt := now
  publishedAt := now
  rescheduledAt := now

/-- What the plugin tells its host and its log, together with what it hears from the vehicle. -/
inductive Event where
  | telltales (f : CanFrame) (time : ℤ)
  | discovered (supported : Finset UInt8)
  | query (pid : UInt8) (answer : Option Double) (time : ℤ)
  | implausiblePid (pid : UInt8) (v : Double)
  | setLink (present : Bool)
  | publish (s : VehicleState) (now : ℤ)
deriving DecidableEq

/-- The two answers that are known to come from parameters nothing is behind. -/
def filler (pid : UInt8) (v : Double) : Bool :=
  -- A module voltage below six volts, and the lowest ambient temperature there is.
  (pid = pidModuleVoltage && v.lt (.finite 6)) || (pid = pidAmbientTemp && v.le (.finite (-40)))

namespace Plugin

/-- A lamp frame replaces the lamps, two bytes of them or four. -/
def onTelltales (p : Plugin) (seen : CanFrame × ℤ) : Plugin :=
  let (f, time) := seen
  -- A frame too short for any lamp is ignored.
  if f.dlc < 2 then p
  else
    let bits := (getElem f.data 0 Place.eight0).toUInt32 ||| ((getElem f.data 1 Place.eight1).toUInt32 <<< 8)
    -- With fewer than four bytes the upper half of the lamps is off.
    let bits :=
      if f.dlc ≥ 4 then
        bits ||| ((getElem f.data 2 Place.eight2).toUInt32 <<< 16) |||
          ((getElem f.data 3 Place.eight3).toUInt32 <<< 24)
      else bits
    { p with lamps := bits, lampsSeenMs := time }

/-- Whether an answer is a measurement; a filler drops its parameter and is logged once. -/
def plausibleAnswer (p : Plugin) (pid : UInt8) (v : Double) : Bool × Plugin × List Event :=
  if filler pid v then
    let logged := if pid ∈ p.implausibleLogged then [] else [Event.implausiblePid pid v]
    let p :=
      { p with
        implausibleLogged := insert pid p.implausibleLogged
        supported := p.supported.erase pid
        poller := p.poller.remove pid
        values := Function.update p.values pid none }
    (false, p, logged)
  else (true, p, [])

/-- Schedule the parameters a vehicle supports. -/
def schedule (c : Config) (supported : Finset UInt8) (poller : Poller) : Poller :=
  -- Fast values are asked for at the base interval, slow ones at a multiple of it.
  let want (pid : UInt8) (interval : ℤ) (poller : Poller) : Poller :=
    if pid ∈ supported then poller.add pid interval else poller
  let poller := want pidSpeed c.fastMs poller
  let poller := want pidRpm c.fastMs poller
  let poller := want pidCoolantTemp (c.fastMs * 5) poller
  let poller := want pidFuelLevel (c.fastMs * 20) poller
  let poller := want pidModuleVoltage (c.fastMs * 20) poller
  let poller := want pidAmbientTemp (c.fastMs * 20) poller
  want pidOdometer (c.fastMs * 20) poller

/-- Take over what a vehicle was found to support, forgetting everything about the one before. -/
def discover (c : Config) (supported : Finset UInt8) (p : Plugin) : Plugin :=
  -- A failed search does not come here, so the last vehicle stays advertised.
  { p with
    supported := supported
    poller := schedule c supported p.poller.clear
    values := fun _ => none }

/-- Advertise a supported parameter, and mark its value current while it is fresh. -/
def cap (p : Plugin) (now : ℤ) (pid : UInt8) (sig : Signal)
    (field : VehicleState → Double → VehicleState) (s : VehicleState) : VehicleState :=
  if pid ∈ p.supported then
    -- A supported parameter is advertised at once, and current only with a fresh value.
    let s := { s with capable := s.capable ||| sig.bit }
    match p.values pid with
    | some v =>
      -- The scale is one for every parameter.
      if p.poller.fresh pid now then field { s with valid := s.valid ||| sig.bit } (v * .finite 1) else s
    | none => s
  else s

/-- Fill in the parameters. -/
def fillPids (p : Plugin) (now : ℤ) (s : VehicleState) : VehicleState :=
  let s := p.cap now pidSpeed .speed (fun s v => { s with speedKmh := v }) s
  let s := p.cap now pidRpm .rpm (fun s v => { s with rpm := v }) s
  let s := p.cap now pidCoolantTemp .coolantTemp (fun s v => { s with coolantC := v }) s
  let s := p.cap now pidFuelLevel .fuelLevel (fun s v => { s with fuelPct := v }) s
  let s := p.cap now pidModuleVoltage .auxBattery (fun s v => { s with auxBatteryV := v }) s
  let s := p.cap now pidAmbientTemp .ambientTemp (fun s v => { s with ambientC := v }) s
  p.cap now pidOdometer .odometer (fun s v => { s with odometerKm := v }) s

/-- Read the power state off the engine speed. -/
def fillPower (p : Plugin) (s : VehicleState) : VehicleState :=
  if pidRpm ∈ p.supported then
    let s := { s with capable := s.capable ||| Signal.powerState.bit }
    -- An engine that turns is ready; a controller that answers at all has its ignition on.
    if s.valid &&& Signal.rpm.bit != 0 then
      { s with
        valid := s.valid ||| Signal.powerState.bit
        powerState := if (Double.finite 0).lt s.rpm then cpPowerReady else cpPowerOn }
    else s
  else s

/-- The state that is published. -/
def state (c : Config) (p : Plugin) (now : ℤ) : VehicleState :=
  -- The plugin publishes no vehicle number, so the identifier is the name's alone.
  let s :=
    { VehicleState.zero with
      drivetrain := cpDrivetrainIce
      source := c.source
      vehicleId := vehicleId "obd2-ice".toUTF8.data.toList none }
  let s := p.fillPower (p.fillPids now s)
  -- Lamps half a second old are dropped.
  if p.lampsSeenMs ≥ 0 ∧ now - p.lampsSeenMs ≤ 500 then { s with lamps := p.lamps } else s

/-- The end of a turn: publish when it is time. -/
def publishIfDue (c : Config) (turn : Turn) (p : Plugin) : Plugin × List Event :=
  -- The clock is read three times: for the test, for the state, and for the next deadline.
  if turn.checkedAt ≥ p.nextPublish then
    ({ p with nextPublish := turn.rescheduledAt + 50 },
      [.publish (p.state c turn.publishedAt) turn.publishedAt])
  else (p, [])

/-- A turn with a known vehicle: ask for what is most overdue, and give up after five silent requests. -/
def poll (c : Config) (turn : Turn) (p : Plugin) : Plugin × List Event :=
  match p.poller.nextDue turn.now with
  -- Nothing is due, so the loop idles and only looks at the publish deadline.
  | none => p.publishIfDue c turn
  | some pid =>
    -- The request is counted before its outcome is known.
    let p := { p with poller := p.poller.markRequested pid turn.now }
    let asked := Event.query pid turn.answer turn.answeredAt
    match turn.answer with
    | some v =>
      let (ok, p, logged) := p.plausibleAnswer pid v
      -- Only a measurement is marked as an answer; a filler leaves the count as it is.
      let p :=
        if ok then
          { p with
            values := Function.update p.values pid (some v)
            poller := p.poller.markAnswered pid turn.answeredAt }
        else p
      let (p, published) := p.publishIfDue c turn
      (p, asked :: logged ++ published)
    | none =>
      -- The vehicle is gone: the turn ends without a publish, and the next one searches again.
      if p.poller.unansweredStreak ≥ 5 then ({ p with discovered := false }, [asked, .setLink false])
      else
        let (p, published) := p.publishIfDue c turn
        (p, asked :: published)

/-- One turn of the loop. -/
def step (c : Config) (p : Plugin) (turn : Turn) : Plugin × List Event :=
  -- Lamps are read by a publish only, so those seen while the turn waits can be taken first.
  let seen := turn.lampFrames.map fun (f, time) => Event.telltales f time
  let p := turn.lampFrames.foldl onTelltales p
  if p.discovered then
    let (p, events) := p.poll c turn
    (p, seen ++ events)
  else
    match turn.discovery with
    | some supported =>
      let (p, events) := { p.discover c supported with discovered := true }.poll c turn
      (p, seen ++ .discovered supported :: .setLink true :: events)
    | none =>
      -- Without a vehicle the plugin publishes at once, whatever the publish deadline says.
      let p := { p with values := fun _ => none }
      (p, seen ++ [.setLink false, .publish (p.state c turn.now) turn.now])

/-- Everything a run of the loop goes through. -/
def log (c : Config) (turns : List Turn) : List Event := Run.outputs (step c) new turns

end Plugin

end CanProxy.Ice
