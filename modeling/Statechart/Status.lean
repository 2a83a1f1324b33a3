/-!
# `Statechart.Status`: the life of a machine

The four statuses of a machine and the requests that a status can forbid.
-/

set_option autoImplicit false

namespace Statechart

/-- Where a machine is in its life. -/
inductive Status where
  /-- Nothing is entered yet but the root. -/
  | idle
  /-- A state with transitions is active. -/
  | running
  /-- A state without transitions is active. -/
  | completed
  /-- Stopped by a fault, until a reset. -/
  | fatal
  deriving DecidableEq, Repr

/-- All statuses, in the order in which dumps list them. -/
def Status.all : List Status := [.idle, .running, .completed, .fatal]

/-- The name of a status in messages. -/
def Status.name : Status → String
  | idle => "idle"
  | running => "running"
  | completed => "completed"
  | fatal => "fatal"

/-- What a machine can be asked to do at the wrong time. -/
inductive Request where
  /-- Take a transition. -/
  | advance
  /-- Give the result of the run. -/
  | result
  deriving DecidableEq, Repr

/-- The name of a request in messages. -/
def Request.name : Request → String
  | advance => "advance"
  | result => "get result"

end Statechart
