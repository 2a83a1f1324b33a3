import Statechart.Machine.Basic

/-!
# `Statechart.Machine.Dump`: dumps of machines

The dump of a machine lists its states, its status, its history and its scopes, and ends
with a line about the run. The line about a stopped machine holds the whole fault, which
may itself have several lines.
-/

set_option autoImplicit false

namespace Statechart

namespace Machine

/-- What a dump says about the run. -/
def statusLine (machine : Machine) : String :=
  match machine.status with
  | .idle => "FSM is idle"
  | .running => s!"FSM is running, {machine.history.size} transitions made"
  | .fatal => "FSM is fatal: " ++ machine.storedFault.message
  | .completed =>
    match machine.result with
    | .ok value => "FSM is completed, result is: " ++ value.display
    | .error fault => "FSM is completed, result error: " ++ fault.message

/-- The dump of a machine. -/
def outline (machine : Machine) : Outline :=
  [⟨0, "finite state machine dump"⟩, ⟨0, "> states:"⟩] ++ machine.chart.outline.nested
    ++ [⟨0, "> status:"⟩]
    ++ Status.all.map (fun status =>
        ⟨1, status.name ++ ": " ++ if machine.status = status then "true" else "false"⟩)
    ++ [⟨0, "> history:"⟩] ++ machine.history.outline.nested
    ++ [⟨0, "> context stack:"⟩] ++ machine.stack.outline.nested
    ++ [⟨0, "> status info"⟩, ⟨1, machine.statusLine⟩]

end Machine

end Statechart
