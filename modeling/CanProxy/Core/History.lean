import CanProxy.Core.Consumer
import CanProxy.Core.Publisher

/-! What the calls made so far say, with no store and no schedule in between. -/

namespace CanProxy

/-- The link reported by a call. -/
def Call.link? : Call → Option Bool
  | .setLink present _ => some present
  | _ => none

/-- The state published by a call, and when. -/
def Call.published? : Call → Option (VehicleState × ℤ)
  | .publish s now => some (s, now)
  | _ => none

/-- The latest link report of a history. -/
def latestLink (past : List Call) : Option Bool := (past.filterMap Call.link?).getLast?

/-- The latest publish of a history. -/
def latestPublish (past : List Call) : Option (VehicleState × ℤ) :=
  (past.filterMap Call.published?).getLast?

/-- The state last published, all zero before any. -/
def latestState (past : List Call) : VehicleState :=
  -- The identity frame and the capability word follow this state whatever the link says.
  ((latestPublish past).map Prod.fst).getD .zero

/-- There was a publish, and the latest one is at most the timeout old. -/
def Current (timeout : ℤ) (past : List Call) (now : ℤ) : Prop :=
  ∃ s time, latestPublish past = some (s, time) ∧ now - time ≤ timeout

/-- Every signal a state advertises is marked current. -/
def VehicleState.AllFresh (s : VehicleState) : Prop :=
  ∀ i, Bits.mem s.capable i = true → Bits.mem s.valid i = true

/-- The vehicle is there and its values are current, so real values are sent. -/
def Live (timeout : ℤ) (past : List Call) (now : ℤ) : Prop :=
  latestLink past = some true ∧ Current timeout past now

/-- When a history calls for each proxy state. -/
def Reports (timeout : ℤ) (past : List Call) (now : ℤ) : ProxyState → Prop
  -- The four cases are exclusive and cover every history, since the link decides the first two.
  | .starting => latestLink past = none
  | .noVehicle => latestLink past = some false
  | .ok => latestLink past = some true ∧ Current timeout past now ∧ (latestState past).AllFresh
  | .degraded =>
    latestLink past = some true ∧ ¬(Current timeout past now ∧ (latestState past).AllFresh)

/-- The bit of the capability bitmap that a signal is announced by. -/
def Signal.capabilityBit : Signal → Nat
  -- The first thirteen are those of the first contract, and the others were added behind them.
  | .speed => 0
  | .rpm => 1
  | .gear => 2
  | .motorPower => 3
  | .packVoltage | .packCurrent => 4
  | .soc => 5
  | .range => 6
  | .consumption => 7
  | .odometer => 8
  | .ambientTemp => 9
  | .coolantTemp => 10
  | .fuelLevel => 11
  | .auxBattery => 12
  | .soh => 13
  | .chargingState => 14
  | .cabinTemp => 15
  | .powerState => 16
  | .ecoScore | .speedLimit | .collisionRisk | .laneState | .leadGap => 17

/-- A published number as the identity frame shows it: zero unless it is one of those defined. -/
def definedCode (last n : ℤ) : ℤ :=
  -- Both interfaces count their drivetrains and their sources from zero, in the same order.
  if 0 ≤ n ∧ n ≤ last then n else 0

/-- The heartbeat a consumer saw last. -/
def lastHeartbeat (log : List Sent) : Option Sent := (log.filter (·.id = .status)).getLast?

/-- The last heartbeat says that the driver assist frame is published. -/
def Announced (log : List Sent) : Prop :=
  ∃ status, lastHeartbeat log = some status ∧
    (unpackStatus status.data).capabilities &&& Capability.assist.bit ≠ 0

end CanProxy
