import CanProxy.Core.Daemon
import CanProxy.Ice.History
import CanProxy.Obd.Client

/-!
The plugin's loop on the raw channel: what its client finds, asks for, and hands on while it waits.

A turn gets receptions and clock readings only; what the vehicle supports and answers is up to the
client.
-/

namespace CanProxy.Ice

open Numeric

/-- The plugin, with the client it talks through. -/
structure Loop where
  client : Client
  plugin : Plugin

/-- A loop that has just been started. -/
def Loop.new : Loop := ⟨⟨0, ∅⟩, .new⟩

/-- What the channel and the clock give in one turn; each lamp frame has a clock reading of its own. -/
structure BusTurn where
  now : ℤ
  bus : List Reception
  seenAt : Nat → ℤ
  answeredAt : ℤ
  checkedAt : ℤ
  publishedAt : ℤ
  rescheduledAt : ℤ

/-- The parameter that a turn asks for, if any is due; a search that finds a vehicle schedules first. -/
def Plugin.asks (c : Config) (p : Plugin) (discovery : Option (Finset UInt8)) (now : ℤ) :
    Option UInt8 :=
  if p.discovered then p.poller.nextDue now
  else discovery.bind fun supported => (p.discover c supported).poller.nextDue now

namespace Loop

variable (c : Config) (broadcastId : Option UInt32)

/-- The search at the start of a turn, which is made only without a vehicle. -/
def search (l : Loop) (bus : List Reception) : Outcome (Option (Finset UInt8)) :=
  if l.plugin.discovered then ⟨none, l.client, [], bus⟩
  else
    let got := l.client.discover broadcastId bus
    { got with result := if got.result then some got.client.supported else none }

/-- What a turn does with the channel after the search: a request, or a wait when nothing is due. -/
def exchange (l : Loop) (turn : BusTurn) : Outcome (Option Double) :=
  let searched := l.search broadcastId turn.bus
  match l.plugin.asks c searched.result turn.now with
  | some pid => searched.client.query broadcastId pid searched.rest
  | none =>
    -- After a search that found nothing the loop sleeps without a look at the channel.
    if l.plugin.discovered || searched.result.isSome then
      let waited := searched.client.idle broadcastId searched.rest
      { waited with result := none }
    else { searched with result := none, sunk := [] }

/-- The turn of the plugin, with the client's answers filled in. -/
def turnOf (l : Loop) (turn : BusTurn) : Turn :=
  let searched := l.search broadcastId turn.bus
  let exchanged := l.exchange c broadcastId turn
  { now := turn.now
    lampFrames := (searched.sunk ++ exchanged.sunk).zipIdx.map fun seen => (seen.1, turn.seenAt seen.2)
    discovery := searched.result
    answer := exchanged.result
    answeredAt := turn.answeredAt
    checkedAt := turn.checkedAt
    publishedAt := turn.publishedAt
    rescheduledAt := turn.rescheduledAt }

/-- One turn of the loop. -/
def step (l : Loop) (turn : BusTurn) : Loop × List Event :=
  let (p, events) := l.plugin.step c (l.turnOf c broadcastId turn)
  (⟨(l.exchange c broadcastId turn).client, p⟩, events)

/-- Everything a run of the loop goes through. -/
def log (turns : List BusTurn) : List Event := Run.outputs (step c broadcastId) new turns

end Loop

/-- What an event reports to the host. -/
def Event.report? : Event → Option Report
  | .publish s _ => some (.publish s)
  | .setLink present => some (.setLink present)
  | _ => none

end CanProxy.Ice
