import Statechart.Chart.Validation
import Statechart.History.Basic
import Statechart.Machine.Config
import Statechart.Scope.Stack

/-!
# `Statechart.Machine.Basic`: machines

A machine is a run of a chart. It has the scopes of the active states, the history of the
run, and the fault that stopped it, if one did. The chart never changes.
-/

set_option autoImplicit false

namespace Statechart

/-- A run of a chart. -/
structure Machine where
  /-- The states. -/
  chart : Chart
  /-- The settings. -/
  config : Config
  /-- The scopes of the active states. -/
  stack : ScopeStack
  /-- The transitions that were taken. -/
  history : History
  /-- The fault that stopped the run, with the dumps of that moment. -/
  fault : Option Fault
  /-- The number of the run, which every reset raises. -/
  runNumber : Nat

namespace Machine

/-- The stack of a run that has not begun: the scope of the root. -/
def initialStack : ScopeStack :=
  (ScopeStack.empty.push? rootName).getD ScopeStack.empty

/-- A machine that is about to begin its first run. -/
def new (chart : Chart) (config : Config) : Machine :=
  ⟨chart, config, initialStack, History.empty, none, 0⟩

/-- Gives up the run and gets ready for the next one. -/
def reset (machine : Machine) : Machine :=
  { machine with
      stack := initialStack
      history := History.empty
      fault := none
      runNumber := machine.runNumber + 1 }

/-- The active state. -/
def current? (machine : Machine) : Option State := do
  let head ← machine.stack.head?
  machine.chart.get? head.state

/-- Where the machine is in its life. -/
def status (machine : Machine) : Status :=
  if machine.fault.isSome then .fatal
  else if machine.stack.depth ≤ 1 then .idle
  else if (machine.current?.map State.isFinal).getD false then .completed
  else .running

/-- The fault that a stopped machine answers with. -/
def storedFault (machine : Machine) : Fault :=
  machine.fault.getD (.runtime .unrecorded)

/-- Stops a machine for a cause, with the dumps of its stack and history. A machine that is
stopped already keeps its fault. -/
def stop (machine : Machine) (cause : Fault) : Machine :=
  match machine.fault with
  | some _ => machine
  | none =>
    { machine with
        fault := some (.fatal cause (machine.stack.outline.render 0)
          (machine.history.outline.render 0)) }

/-- The result of a completed run: what the outermost scope holds under the result key. -/
def result (machine : Machine) : Except Fault Value :=
  match machine.status with
  | .completed =>
    match machine.stack.outermost? with
    | none => .error (.runtime .noGlobalScope)
    | some frame => View.raw frame.scope.view resultKey
  | .fatal => .error machine.storedFault
  | status => .error (.wrongFlow (.forbidden .result status))

end Machine

end Statechart
