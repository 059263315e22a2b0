import CanProxy.Lib.Run
import CanProxy.Obd.Poller

/-! What a history of calls to the scheduler says about each parameter, read off the calls alone. -/

namespace CanProxy.Poller

/-- The calls that change a scheduler. -/
inductive Operation where
  | clear
  | add (pid : UInt8) (intervalMs : ℤ)
  | remove (pid : UInt8)
  | markRequested (pid : UInt8) (now : ℤ)
  | markAnswered (pid : UInt8) (now : ℤ)
deriving DecidableEq

/-- Make one call. -/
def apply (p : Poller) : Operation → Poller
  | .clear => p.clear
  | .add pid intervalMs => p.add pid intervalMs
  | .remove pid => p.remove pid
  | .markRequested pid now => p.markRequested pid now
  | .markAnswered pid now => p.markAnswered pid now

/-- The scheduler after a history of calls. -/
def after (past : List Operation) : Poller := past.foldl apply empty

namespace Operation

/-- Intervals are positive, and clocks do not go below zero. -/
def Proper : Operation → Prop
  | clear => True
  | add _ intervalMs => 0 < intervalMs
  | remove _ => True
  | markRequested _ now => 0 ≤ now
  | markAnswered _ now => 0 ≤ now

/-- The call drops the parameter, if it is there. -/
def drops (pid : UInt8) : Operation → Bool
  | clear => true
  | remove other => other = pid
  | _ => false

/-- The interval that the call adds the parameter with. -/
def adds? (pid : UInt8) : Operation → Option ℤ
  | add other intervalMs => if other = pid then some intervalMs else none
  | _ => none

/-- The time at which the call says that the parameter has answered. -/
def answers? (pid : UInt8) : Operation → Option ℤ
  | markAnswered other now => if other = pid then some now else none
  | _ => none

/-- The parameter that the call marks. -/
def marks? : Operation → Option UInt8
  | markRequested pid _ => some pid
  | markAnswered pid _ => some pid
  | _ => none

end Operation

/-- The interval of the first add of a parameter since it was dropped last; none without one. -/
def addedWith (pid : UInt8) (past : List Operation) : Option ℤ :=
  (Run.since (Operation.drops pid) past).findSome? (Operation.adds? pid)

/-- The time of the last answer of a parameter since that add. -/
def answeredLast (pid : UInt8) (past : List Operation) : Option ℤ :=
  -- Answers that came before the add were for a parameter that was not there.
  Run.last (Operation.answers? pid)
    ((Run.since (Operation.drops pid) past).dropWhile fun op => (op.adds? pid).isNone)

/-- Each call of a history, with whether the parameter it marks was there when it was made. -/
def witnessed (before : List Operation) : List Operation → List (Operation × Bool)
  | [] => []
  | op :: rest =>
    (op, op.marks?.any fun pid => (addedWith pid before).isSome) :: witnessed (before ++ [op]) rest

/-- The call starts the count of unanswered requests over. -/
def restarts : Operation × Bool → Bool
  | (.clear, _) => true
  | (.markAnswered _ _, present) => present
  | _ => false

/-- The call is a request that counts. -/
def counts : Operation × Bool → Bool
  | (.markRequested _ _, present) => present
  | _ => false

/-- The requests for parameters that were there, since the count was last started over. -/
def requestedSince (past : List Operation) : Nat :=
  (Run.since restarts (witnessed [] past)).countP counts

end CanProxy.Poller
