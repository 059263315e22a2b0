import CanProxy.Core.History

/-!
A plugin and the publisher, side by side: the plugin's thread reports to the host, which hands every
report to the store, and the publisher's thread ticks in between.
-/

namespace CanProxy

open Numeric

/-- What a plugin reports to its host. -/
inductive Report where
  | publish (s : VehicleState)
  | setLink (present : Bool)
deriving DecidableEq

/-- The report behind a call; a tick has none. -/
def Call.report? : Call → Option Report
  | .publish s _ => some (.publish s)
  | .setLink present _ => some (.setLink present)
  | .tick _ => none

/-- The calls are made for the reports of a plugin so far, in order, and for ticks at any time. -/
def Drives (reports : List Report) (calls : List Call) : Prop := calls.filterMap Call.report? <+: reports

/-- The state that a report publishes. -/
def Report.published? : Report → Option VehicleState
  | .publish s => some s
  | .setLink _ => none

/-- The frame with an identifier that a consumer received last. -/
def lastFrame (id : FrameId) (log : List Sent) : Option Sent := (log.filter (·.id = id)).getLast?

end CanProxy
