import CanProxy.Obd.Client

/-!
What a client leaves in a recording: its requests, and every frame it receives.

Discovery is a request for each block after the client has forgotten its controller, so a session is a
list of the three things that touch the channel or the controller.
-/

namespace CanProxy.Replay

/-- One step of a recorded client. -/
inductive Step where
  | forgetEcu
  | request (pid : UInt8) (bus : List Reception)
  | idle (reception : Reception)

/-- An answer that was accepted: its parameter, and where it is recorded. -/
structure Accepted where
  pid : UInt8
  answered : Nat
deriving DecidableEq

/-- A client, the recording so far, and the answers accepted so far. -/
structure Session where
  client : Client
  log : List CanFrame
  accepted : List Accepted

/-- A session that has just been started. -/
def Session.start : Session := ⟨⟨0, ∅⟩, [], []⟩

/-- The frames among some receptions. -/
def framesOf (receptions : List Reception) : List CanFrame :=
  receptions.filterMap fun
    | .frame f => some f
    | .silence => none

/-- The request frame that is sent for a parameter. -/
def requestFrame (pid : UInt8) : CanFrame := ⟨kRequestId, 8, buildRequest kModeCurrentData pid⟩

/-- One step, with what it adds to the recording. -/
def Session.step (broadcastId : Option UInt32) (s : Session) : Step → Session
  | .forgetEcu => { s with client := { s.client with primaryEcu := 0 } }
  | .request pid bus =>
    let got := s.client.request broadcastId pid bus
    -- Only what the request consumed was received, and an accepted answer is the last of it.
    let received := framesOf (bus.take (bus.length - got.rest.length))
    { client := got.client
      log := s.log ++ requestFrame pid :: received
      accepted :=
        match got.result with
        | some _ => s.accepted ++ [⟨pid, s.log.length + received.length⟩]
        | none => s.accepted }
  | .idle reception => { s with log := s.log ++ framesOf [reception] }

/-- A whole recorded session. -/
def session (broadcastId : Option UInt32) (steps : List Step) : Session :=
  steps.foldl (Session.step broadcastId) .start

/-- The answer accepted last for a parameter. -/
def Session.lastAccepted (s : Session) (pid : UInt8) : Option Accepted :=
  (s.accepted.filter (·.pid = pid)).getLast?

end CanProxy.Replay
