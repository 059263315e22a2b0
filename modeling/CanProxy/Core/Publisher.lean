import CanProxy.Core.Mapping
import CanProxy.Lib.Run

/-!
The host's copy of what the plugin said, and the schedule that puts it on the contract bus.

Times are readings of the monotonic clock, in nanoseconds.
-/

namespace CanProxy

open Numeric

/-- What the plugin last said, with its timestamp. -/
structure Snapshot where
  state : VehicleState
  everPublished : Bool
  linkKnown : Bool
  linkPresent : Bool
  lastPublish : ℤ

/-- The store before the plugin says anything. -/
def Snapshot.initial : Snapshot where
  state := .zero
  everPublished := false
  linkKnown := false
  linkPresent := false
  lastPublish := 0

/-- Replace the state and remember when. -/
def Snapshot.publish (snap : Snapshot) (s : VehicleState) (now : ℤ) : Snapshot :=
  { snap with state := s, everPublished := true, lastPublish := now }

/-- Remember whether the vehicle is there; the time is not used. -/
def Snapshot.setLink (snap : Snapshot) (present : Bool) (_now : ℤ) : Snapshot :=
  { snap with linkKnown := true, linkPresent := present }

/-- The proxy state, and whether real values are sent. -/
structure Derived where
  proxyState : ProxyState
  live : Bool
deriving DecidableEq

/-- Derive the proxy state from a snapshot. -/
def derive (snap : Snapshot) (now pluginTimeout : ℤ) : Derived :=
  -- The link decides first, so neither old values nor missing ones matter without a vehicle.
  if !snap.linkKnown then ⟨.starting, false⟩
  else if !snap.linkPresent then ⟨.noVehicle, false⟩
  else if !snap.everPublished || decide (pluginTimeout < now - snap.lastPublish) then
    ⟨.degraded, false⟩
  else
    -- Values are sent even when some advertised signal is stale; only the state reported differs.
    let capable := snap.state.capable
    let allFresh := snap.state.valid &&& capable == capable
    ⟨if allFresh then .ok else .degraded, true⟩

/-- The order in which the frames due at one tick are sent. -/
def kOrder : List FrameId :=
  [.status, .identity, .motion, .edrive, .telltales, .energy, .trip, .thermal, .assist]

/-- The cycle of a frame on the monotonic clock. -/
def FrameId.cycle (id : FrameId) : ℤ := (cycleMs id.code : ℤ) * 1000000

/-- The schedule of one frame: its cycle is the contract's, its deadline an absolute time. -/
structure Slot where
  id : FrameId
  cycle : ℤ
  due : ℤ
  contractual : cycle = id.cycle

/-- A cycle is never zero. -/
theorem FrameId.cycle_pos (id : FrameId) : 0 < id.cycle := by
  have := cycleMs_pos id
  unfold FrameId.cycle
  omega

/-- A slot for a frame, with its first deadline. -/
def Slot.at (id : FrameId) (due : ℤ) : Slot := ⟨id, id.cycle, due, rfl⟩

/-- Move the deadline one cycle on; far behind, resynchronise instead of sending a burst. -/
def Slot.advance (s : Slot) (now : ℤ) : Slot :=
  let s := { s with due := s.due + s.cycle }
  -- A deadline that lands exactly on now is not behind, and stays there.
  if s.due < now then { s with due := now + s.cycle } else s

/-- A slot whose deadline a tick found reached, with the bytes handed to the sink if any were. -/
structure Firing where
  time : ℤ
  id : FrameId
  sent : Option FrameData
deriving DecidableEq

/-- A frame on the contract bus. -/
structure Sent where
  time : ℤ
  id : FrameId
  data : FrameData
deriving DecidableEq

/-- What the bus sees of a firing. -/
def Firing.frame (f : Firing) : Option Sent := f.sent.map (⟨f.time, f.id, ·⟩)

section Send

variable (m : Machine)

/-- Pack one frame; the optional one is withheld without its capability. -/
def sendFrame (id : FrameId) (f : Frames) : Option FrameData :=
  -- Every frame but the driver-assist one is sent whenever its slot fires.
  match id with
  | .status => some (packStatus f.status)
  | .identity => some (packIdentity f.identity)
  | .motion => some (packMotion m f.motion)
  | .edrive => some (packEdrive m f.edrive)
  | .telltales => some (packTelltales f.telltales)
  | .energy => some (packEnergy m f.energy)
  | .trip => some (packTrip m f.trip)
  | .thermal => some (packThermal m f.thermal)
  | .assist =>
    if f.status.capabilities &&& Capability.assist.bit = 0 then none
    else some (packAssist m f.assist)

/-- The loop of a tick: every slot that is due fires, and a status frame steps the counter. -/
def fireDue (f : Frames) (now : ℤ) (counter : UInt8) : List Slot → UInt8 × List Slot × List Firing
  | [] => (counter, [], [])
  | s :: rest =>
    -- A slot that is not due is passed over, but the ones after it are still looked at.
    if now < s.due then
      let (counter, slots, fired) := fireDue f now counter rest
      (counter, s :: slots, fired)
    else
      -- The counter steps for the next status frame; the one sent now was built before.
      let counter := if s.id = .status then counter + 1 else counter
      let sent := sendFrame m s.id f
      let (counter, slots, fired) := fireDue f now counter rest
      (counter, s.advance now :: slots, ⟨now, s.id, sent⟩ :: fired)

/-- The loop of a tick keeps every slot in its place. -/
theorem fireDue_order (f : Frames) (now : ℤ) (counter : UInt8) (slots : List Slot) :
    (fireDue m f now counter slots).2.1.map (·.id) = slots.map (·.id) := by
  -- The counter varies along the loop, so the statement is about every counter.
  induction slots generalizing counter with
  | nil => rfl
  | cons s rest ih =>
    have kept : (s.advance now).id = s.id := by
      simp only [Slot.advance]
      split <;> rfl
    unfold fireDue
    split
    · simp only [List.map_cons, ih]
    · simp only [List.map_cons, ih, kept]

end Send

/-- The publisher: its configuration, its counter, and one slot for each frame in sending order. -/
structure Publisher where
  timeout : ℤ
  pluginMajor : UInt8
  pluginMinor : UInt8
  counter : UInt8
  lastState : ProxyState
  armed : Bool
  slots : List Slot
  ordered : slots.map (·.id) = kOrder

namespace Publisher

/-- A publisher before its first tick. -/
def new (timeout : ℤ) (pluginMajor pluginMinor : UInt8) : Publisher where
  timeout := timeout
  pluginMajor := pluginMajor
  pluginMinor := pluginMinor
  counter := 0
  lastState := .starting
  armed := false
  slots := kOrder.map (Slot.at · 0)
  ordered := rfl

/-- Make every frame due now. -/
def arm (p : Publisher) (now : ℤ) : Publisher :=
  -- All frames start together, so their cycles stay in phase until one of them is resynchronised.
  { p with
    slots := p.slots.map fun s => { s with due := now }
    ordered := by simpa [Function.comp_def] using p.ordered
    armed := true }

/-- The first tick arms the schedule. -/
def ready (p : Publisher) (now : ℤ) : Publisher := if p.armed then p else p.arm now

/-- The frames a tick builds from what the store holds. -/
def frames (m : Machine) (p : Publisher) (snap : Snapshot) (now : ℤ) : Frames :=
  -- One derived state serves every frame of the tick.
  let dv := derive snap now p.timeout
  framesFrom m snap.state dv.live dv.proxyState.code p.counter p.pluginMajor p.pluginMinor

/-- The earliest deadline of the slots. -/
def nextDeadline : List Slot → ℤ
  -- There is always a first slot in a publisher; the empty case is never reached.
  | [] => 0
  | first :: rest =>
    (first :: rest).foldl (fun next s => if s.due < next then s.due else next) first.due

/-- What a tick leaves behind: the publisher, the slots it fired, and the next deadline it returns. -/
structure Ticked where
  publisher : Publisher
  fired : List Firing
  next : ℤ

/-- Send every frame that is due now. -/
def tick (m : Machine) (p : Publisher) (snap : Snapshot) (now : ℤ) : Ticked :=
  -- Nothing is built or sent unless some frame is due.
  let p := p.ready now
  if p.slots.any (fun s => s.due ≤ now) then
    let dv := derive snap now p.timeout
    let f := p.frames m snap now
    -- All frames are built before the first is sent, with the counter of the previous tick.
    let loop := fireDue m f now p.counter p.slots
    let p' : Publisher :=
      { p with
        lastState := dv.proxyState
        counter := loop.1
        slots := loop.2.1
        ordered := (fireDue_order m f now p.counter p.slots).trans p.ordered }
    ⟨p', loop.2.2, nextDeadline p'.slots⟩
  else ⟨p, [], nextDeadline p.slots⟩

end Publisher

/-- The calls that reach the store and the publisher, each holding the store for itself. -/
inductive Call where
  | publish (s : VehicleState) (now : ℤ)
  | setLink (present : Bool) (now : ℤ)
  | tick (now : ℤ)

/-- When a call is made. -/
def Call.time : Call → ℤ
  | .publish _ now => now
  | .setLink _ now => now
  | .tick now => now

/-- The time of a tick, for the calls that are one. -/
def Call.tick? : Call → Option ℤ
  | .tick now => some now
  | _ => none

/-- The tick times of a run, in order. -/
def tickTimes (calls : List Call) : List ℤ := calls.filterMap Call.tick?

/-- The store and the publisher that reads it. -/
structure Proxy where
  store : Snapshot
  publisher : Publisher

namespace Proxy

/-- A publisher on an empty store. -/
def start (publisher : Publisher) : Proxy := ⟨.initial, publisher⟩

/-- One call, and the slots it fires. -/
def step (m : Machine) (proxy : Proxy) : Call → Proxy × List Firing
  -- The plugin's two calls change the store only, and a tick reads it but changes the schedule only.
  | .publish s now => ({ proxy with store := proxy.store.publish s now }, [])
  | .setLink present now => ({ proxy with store := proxy.store.setLink present now }, [])
  | .tick now =>
    let ticked := proxy.publisher.tick m proxy.store now
    ({ proxy with publisher := ticked.publisher }, ticked.fired)

/-- The state after a run of calls on an empty store. -/
def after (m : Machine) (publisher : Publisher) (calls : List Call) : Proxy :=
  Run.final (step m) (start publisher) calls

/-- Every firing of a run of calls on an empty store. -/
def firings (m : Machine) (publisher : Publisher) (calls : List Call) : List Firing :=
  Run.outputs (step m) (start publisher) calls

/-- Every frame a run of calls puts on the bus, in order. -/
def transmitted (m : Machine) (publisher : Publisher) (calls : List Call) : List Sent :=
  (firings m publisher calls).filterMap Firing.frame

/-- The frames a tick puts on the bus after a run of calls. -/
def sentBy (m : Machine) (publisher : Publisher) (calls : List Call) (now : ℤ) : List Sent :=
  (step m (after m publisher calls) (.tick now)).2.filterMap Firing.frame

end Proxy

end CanProxy
