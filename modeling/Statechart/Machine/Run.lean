import Statechart.Machine.Advance

/-!
# `Statechart.Machine.Run`: whole runs

A run takes steps until the machine is completed or stopped, and then asks for the result.
A machine whose settings limit the steps of a run is stopped when the limit is reached.
Without a limit a run may go on forever, so the number of steps to wait for is given.
-/

set_option autoImplicit false

namespace Statechart

/-- What came of a run. -/
structure RunTaken where
  /-- The machine afterwards. -/
  machine : Machine
  /-- The callbacks that were called, in order. -/
  calls : List Call
  /-- The result of the run, or the fault that stopped it. -/
  result : Except Fault Value

namespace Machine

/-- Whether a machine can take steps. -/
def isActive (machine : Machine) : Bool :=
  machine.status = .idle || machine.status = .running

/-- How a run that has taken some steps ends here, if it does: its limit is reached, or the
machine can take no more steps. -/
def ending? (machine : Machine) (steps : Nat) : Option RunTaken :=
  if machine.isActive then
    match machine.config.maxSteps with
    | none => none
    | some limit =>
      if limit ≤ steps then
        let fault : Fault := .runtime (.stepLimit limit)
        some ⟨machine.stop fault, [], .error fault⟩
      else none
  else some ⟨machine, [], machine.result⟩

/-- Goes on with a run that has taken some steps. `none` if it would take more than
`patience` further steps. -/
def continue? : (patience : Nat) → (steps : Nat) → Machine → Option RunTaken
  | 0, steps, machine => machine.ending? steps
  | patience + 1, steps, machine =>
    match machine.ending? steps with
    | some run => some run
    | none =>
      let step := machine.advance
      match step.result with
      | .error fault => some ⟨step.machine, step.calls, .error fault⟩
      | .ok _ =>
        (continue? patience (steps + 1) step.machine).map fun run =>
          { run with calls := step.calls ++ run.calls }

/-- Runs a machine to its end. The limit of its settings is waited for in any case; without a
limit, `none` says that the run takes more than `patience` steps. -/
def runToEnd? (machine : Machine) (patience : Nat) : Option RunTaken :=
  continue? (machine.config.maxSteps.getD patience) 0 machine

end Machine

end Statechart
