import CanProxy.Core.Daemon
import CanProxy.Emu.Profile
import CanProxy.Lib.Run
import CanProxy.Obd.J1979
import CanProxy.Obd.Poller
import CanProxy.Plugin.Abi
import Mathlib.Data.Finset.Insert
import Mathlib.Logic.Function.Basic

/-!
The plugin for the emulator's electric and hybrid cars: standard parameters over the raw channel, and
diagnostic records from the battery controller for everything electric.

What the buses and the clock answer in one turn of the loop is an input of that turn. Times are
milliseconds.
-/

namespace CanProxy.Emu

open Numeric

def kKeyPack : UInt8 := 0xF1
def kKeyRange : UInt8 := 0xF2
def kKeyDrive : UInt8 := 0xF3
def kKeyAssist : UInt8 := 0xF4

/-- The scheduler key of a record. -/
def Did.key : Did → UInt8
  | .pack => kKeyPack
  | .range => kKeyRange
  | .drive => kKeyDrive
  | .assist => kKeyAssist

/-- The record a scheduler key stands for. -/
def didFor (key : UInt8) : Did :=
  -- Keys that name no record are taken for the drive record, as the source's default does.
  if key = kKeyPack then .pack
  else if key = kKeyRange then .range
  else if key = kKeyAssist then .assist
  else .drive

/-- The arguments a plugin is created with. -/
structure Config where
  hybrid : Bool
  source : ℤ
  fastMs : ℤ

/-- The members of the plugin, and the time its next publish is due. -/
structure Plugin where
  poller : Poller
  discovered : Bool
  bmsPresent : Bool
  assistPresent : Bool
  supported : Finset UInt8
  values : UInt8 → Option Double
  records : Records
  lamps : UInt32
  lampsSeenMs : ℤ
  nextPublish : ℤ

/-- A plugin that has just been started. -/
def Plugin.new : Plugin where
  -- The first publish is due at once, and no lamp frame has been seen.
  poller := .empty
  discovered := false
  bmsPresent := false
  assistPresent := false
  supported := ∅
  values := fun _ => none
  records := .zero
  lamps := 0
  lampsSeenMs := -1
  nextPublish := 0

/--
What one turn of the loop meets, in the order it is asked for.

A clock reading is a number, an exchange that fails is none, and a lamp frame comes with the time it
was seen.
-/
structure Turn where
  now : ℤ
  lampFrames : List (CanFrame × ℤ)
  discovery : Option (Finset UInt8)
  bmsOpen : Bool
  packProbe : Option (List UInt8)
  assistProbe : Option (List UInt8)
  reply : Option (List UInt8)
  answer : Option Double
  answeredAt : ℤ
  checkedAt : ℤ
  publishedAt : ℤ
  rescheduledAt : ℤ

/-- A turn in which every clock reading is the same and nothing answers. -/
def Turn.silent (now : ℤ) : Turn where
  now := now
  lampFrames := []
  discovery := none
  bmsOpen := true
  packProbe := none
  assistProbe := none
  reply := none
  answer := none
  answeredAt := now
  checkedAt := now
  publishedAt := now
  rescheduledAt := now

/-- What the plugin tells its host, together with the discoveries and records it went through. -/
inductive Event where
  | discovered
  | record (did : Did) (data : List UInt8) (time : ℤ)
  | setLink (present : Bool)
  | publish (s : VehicleState) (now : ℤ)
deriving DecidableEq

/-- What an event reports to the host. -/
def Event.report? : Event → Option Report
  | .publish s _ => some (.publish s)
  | .setLink present => some (.setLink present)
  | _ => none

namespace Plugin

/-- A lamp frame replaces the lamps, two bytes of them or four. -/
def onTelltales (p : Plugin) (seen : CanFrame × ℤ) : Plugin :=
  let (f, time) := seen
  -- A frame too short for any lamp is ignored.
  if f.dlc < 2 then p
  else
    let bits := (getElem f.data 0 Place.eight0).toUInt32 ||| ((getElem f.data 1 Place.eight1).toUInt32 <<< 8)
    -- With fewer than four bytes the upper half of the lamps is off.
    let bits :=
      if f.dlc ≥ 4 then
        bits ||| ((getElem f.data 2 Place.eight2).toUInt32 <<< 16) |||
          ((getElem f.data 3 Place.eight3).toUInt32 <<< 24)
      else bits
    { p with lamps := bits, lampsSeenMs := time }

/-- A record is there when its request is answered, not refused. -/
def answers (response : Option (List UInt8)) (did : Did) : Bool :=
  -- A failed exchange and a negative response both mean that the record is not there.
  match readDid response did.code with
  | some r => r.positive
  | none => false

/-- Schedule the standard parameters a vehicle supports. -/
def schedulePids (c : Config) (supported : Finset UInt8) (poller : Poller) : Poller :=
  -- Fast values are asked for at the base interval, slow ones at a multiple of it.
  let want (pid : UInt8) (interval : ℤ) (poller : Poller) : Poller :=
    if pid ∈ supported then poller.add pid interval else poller
  let poller := want pidSpeed c.fastMs poller
  let poller :=
    if c.hybrid then
      let poller := want pidRpm c.fastMs poller
      let poller := want pidCoolantTemp (c.fastMs * 5) poller
      want pidFuelLevel (c.fastMs * 20) poller
    else poller
  let poller := want pidModuleVoltage (c.fastMs * 20) poller
  let poller := want pidAmbientTemp (c.fastMs * 20) poller
  want pidOdometer (c.fastMs * 20) poller

/-- Schedule the battery controller's records, the driver assist one only where there is one. -/
def scheduleRecords (c : Config) (assistPresent : Bool) (poller : Poller) : Poller :=
  let poller := poller.add kKeyDrive c.fastMs
  let poller := poller.add kKeyPack c.fastMs
  let poller := poller.add kKeyRange (c.fastMs * 5)
  if assistPresent then poller.add kKeyAssist (c.fastMs * 2) else poller

/-- Find out what the vehicle offers and schedule it; none when nothing answers. -/
def discover (c : Config) (turn : Turn) (p : Plugin) : Option Plugin :=
  match turn.discovery with
  | none => none
  | some supported =>
    -- The old schedule goes, answers and all; the record members stay as they are.
    let poller := schedulePids c supported p.poller.clear
    let p := { p with supported := supported, values := fun _ => none }
    -- The driver-assist record is only asked about once the battery controller has answered.
    if turn.bmsOpen && answers turn.packProbe .pack then
      let assistPresent := answers turn.assistProbe .assist
      let poller := scheduleRecords c assistPresent poller
      some { p with poller := poller, bmsPresent := true, assistPresent := assistPresent }
    else some { p with poller := poller, bmsPresent := false, assistPresent := false }

/-- Ask for one record: whether the answer counts, and the records as the decoder leaves them. -/
def pollDid (turn : Turn) (key : UInt8) (p : Plugin) : Bool × Plugin × List Event :=
  let did := didFor key
  match readDid turn.reply did.code with
  | some r =>
    if r.positive then
      -- The records are replaced whatever the verdict, which only decides whether the answer counts.
      let (ok, records) := p.records.decode did r.data
      (ok, { p with records := records }, [.record did r.data turn.answeredAt])
    else (false, p, [])
  | none => (false, p, [])

/-- Ask for one standard parameter. -/
def query (turn : Turn) (key : UInt8) (p : Plugin) : Bool × Plugin :=
  -- A parameter that does not answer keeps its old value until it is no longer fresh.
  match turn.answer with
  | some v => (true, { p with values := Function.update p.values key (some v) })
  | none => (false, p)

end Plugin

/-! The signals each record stands behind, and the record put into a state that is about to be published. -/

def packSigs : UInt32 :=
  Signal.packVoltage.bit ||| Signal.packCurrent.bit ||| Signal.soc.bit ||| Signal.soh.bit |||
    Signal.chargingState.bit

def rangeSigs : UInt32 := Signal.range.bit ||| Signal.consumption.bit

/-- The motor's speed is the engine speed of a car that has no engine. -/
def driveSigs (hybrid : Bool) : UInt32 :=
  let sigs := Signal.gear.bit ||| Signal.powerState.bit ||| Signal.motorPower.bit
  if !hybrid then sigs ||| Signal.rpm.bit else sigs

def assistSigs : UInt32 :=
  Signal.ecoScore.bit ||| Signal.speedLimit.bit ||| Signal.collisionRisk.bit |||
    Signal.laneState.bit ||| Signal.leadGap.bit

def Pack.fill (r : Pack) (s : VehicleState) : VehicleState :=
  { s with
    valid := s.valid ||| packSigs
    packVoltageV := r.voltageV
    packCurrentA := r.currentA
    socPct := r.socPct
    sohPct := r.sohPct
    chargingState := r.charging }

def Range.fill (r : Range) (s : VehicleState) : VehicleState :=
  { s with
    valid := s.valid ||| rangeSigs
    rangeKm := .ofInt r.rangeKm
    consumptionWhKm := .ofInt r.consumptionWhKm }

def Drive.fill (r : Drive) (hybrid : Bool) (s : VehicleState) : VehicleState :=
  let s :=
    { s with
      valid := s.valid ||| driveSigs hybrid
      gear := r.gear
      powerState := r.powerState
      motorPowerKw := r.motorPowerKw }
  if !hybrid then { s with rpm := .ofInt r.motorRpm } else s

def Assist.fill (r : Assist) (s : VehicleState) : VehicleState :=
  { s with
    valid := s.valid ||| assistSigs
    ecoScore := r.ecoScore
    speedLimitKmh := r.speedLimitKmh
    collisionRisk := r.collisionRisk
    laneState := r.laneState
    leadGapM := r.leadGapM }

/-- The lamps last seen, unless too old, and those that follow from the published values. -/
def lampsFor (hybrid : Bool) (seen : UInt32) (seenMs now : ℤ) (s : VehicleState) : UInt32 :=
  -- Lamps half a second old are dropped; the derived ones below are added all the same.
  let l := if seenMs ≥ 0 ∧ now - seenMs ≤ 500 then seen else 0
  let l :=
    if s.valid &&& Signal.powerState.bit != 0 then
      if !hybrid && s.powerState = cpPowerReady then l ||| Lamp.evReady.bit else l
    else l
  let l :=
    if s.valid &&& Signal.chargingState.bit != 0 &&
        (s.chargingState = cpChargingAc || s.chargingState = cpChargingDc) then
      l ||| Lamp.charging.bit
    else l
  if s.valid &&& Signal.soc.bit != 0 && s.socPct.lt (.finite 10) then
    l ||| Lamp.lowTractionBattery.bit
  else l

namespace Plugin

/-- Advertise a supported parameter, and mark its value current while it is fresh. -/
def capPid (p : Plugin) (now : ℤ) (pid : UInt8) (sig : Signal)
    (field : VehicleState → Double → VehicleState) (s : VehicleState) : VehicleState :=
  if pid ∈ p.supported then
    -- A supported parameter is advertised at once, and current only with a fresh value.
    let s := { s with capable := s.capable ||| sig.bit }
    match p.values pid with
    | some v => if p.poller.fresh pid now then field { s with valid := s.valid ||| sig.bit } v else s
    | none => s
  else s

/-- Fill in the standard parameters. -/
def fillPids (c : Config) (p : Plugin) (now : ℤ) (s : VehicleState) : VehicleState :=
  let s := p.capPid now pidSpeed .speed (fun s v => { s with speedKmh := v }) s
  let s := p.capPid now pidModuleVoltage .auxBattery (fun s v => { s with auxBatteryV := v }) s
  let s := p.capPid now pidAmbientTemp .ambientTemp (fun s v => { s with ambientC := v }) s
  let s := p.capPid now pidOdometer .odometer (fun s v => { s with odometerKm := v }) s
  if c.hybrid then
    let s := p.capPid now pidRpm .rpm (fun s v => { s with rpm := v }) s
    let s := p.capPid now pidCoolantTemp .coolantTemp (fun s v => { s with coolantC := v }) s
    p.capPid now pidFuelLevel .fuelLevel (fun s v => { s with fuelPct := v }) s
  else s

/-- Fill in the records of the battery controller, each while it is fresh. -/
def fillBms (c : Config) (p : Plugin) (now : ℤ) (s : VehicleState) : VehicleState :=
  if p.bmsPresent then
    -- Every record is advertised once the controller is there, whether or not it has answered.
    let s := { s with capable := s.capable ||| (packSigs ||| rangeSigs ||| driveSigs c.hybrid) }
    -- The scheduler's freshness is the only gate between a record member and the published state.
    let s := if p.poller.fresh kKeyPack now then p.records.pack.fill s else s
    let s := if p.poller.fresh kKeyRange now then p.records.range.fill s else s
    if p.poller.fresh kKeyDrive now then p.records.drive.fill c.hybrid s else s
  else s

/-- Fill in the driver assist record while it is fresh. -/
def fillAssist (p : Plugin) (now : ℤ) (s : VehicleState) : VehicleState :=
  if p.assistPresent then
    let s := { s with capable := s.capable ||| assistSigs }
    if p.poller.fresh kKeyAssist now then p.records.assist.fill s else s
  else s

/-- The state that is published. -/
def state (c : Config) (p : Plugin) (now : ℤ) : VehicleState :=
  -- The plugin publishes no vehicle number, so the identifier is the name's alone.
  let name := if c.hybrid then "emu-hybrid" else "emu-ev"
  let s :=
    { VehicleState.zero with
      drivetrain := if c.hybrid then cpDrivetrainHev else cpDrivetrainBev
      source := c.source
      vehicleId := vehicleId name.toUTF8.data.toList none }
  -- Standard parameters come first; on an electric car the drive record supplies the motor's speed.
  let s := p.fillPids c now s
  let s := p.fillBms c now s
  let s := p.fillAssist now s
  { s with lamps := lampsFor c.hybrid p.lamps p.lampsSeenMs now s }

/-- The end of a turn: publish when it is time. -/
def publishIfDue (c : Config) (turn : Turn) (p : Plugin) : Plugin × List Event :=
  -- The clock is read three times: for the test, for the state, and for the next deadline.
  if turn.checkedAt ≥ p.nextPublish then
    ({ p with nextPublish := turn.rescheduledAt + 50 },
      [.publish (p.state c turn.publishedAt) turn.publishedAt])
  else (p, [])

/-- Ask for whatever a scheduler key stands for. -/
def ask (turn : Turn) (key : UInt8) (p : Plugin) : Bool × Plugin × List Event :=
  -- Keys from 0xF0 on are records, and lower ones are standard parameters.
  if key ≥ 0xF0 then p.pollDid turn key
  else
    let (ok, p) := p.query turn key
    (ok, p, [])

/-- A turn with a known vehicle: ask for what is most overdue, and give up after eight silent requests. -/
def poll (c : Config) (turn : Turn) (p : Plugin) : Plugin × List Event :=
  match p.poller.nextDue turn.now with
  -- Nothing is due, so the loop idles and only looks at the publish deadline.
  | none => p.publishIfDue c turn
  | some key =>
    -- The request is counted before its outcome is known.
    let p := { p with poller := p.poller.markRequested key turn.now }
    let (ok, p, asked) := p.ask turn key
    if ok then
      let p := { p with poller := p.poller.markAnswered key turn.answeredAt }
      let (p, published) := p.publishIfDue c turn
      (p, asked ++ published)
    -- The vehicle is gone: the turn ends without a publish, and the next one searches again.
    else if p.poller.unansweredStreak ≥ 8 then
      ({ p with discovered := false }, asked ++ [.setLink false])
    else
      let (p, published) := p.publishIfDue c turn
      (p, asked ++ published)

/-- One turn of the loop. -/
def step (c : Config) (p : Plugin) (turn : Turn) : Plugin × List Event :=
  -- Lamps are read by a publish only, so those seen while the turn waits can be taken first.
  let p := turn.lampFrames.foldl onTelltales p
  if p.discovered then p.poll c turn
  else
    match p.discover c turn with
    | some p =>
      let (p, events) := { p with discovered := true }.poll c turn
      (p, .discovered :: .setLink true :: events)
    | none =>
      -- Without a vehicle the plugin publishes at once, whatever the publish deadline says.
      let p := { p with values := fun _ => none }
      (p, [.setLink false, .publish (p.state c turn.now) turn.now])

/-- Everything a run of the loop goes through. -/
def log (c : Config) (turns : List Turn) : List Event := Run.outputs (step c) new turns

end Plugin

end CanProxy.Emu
