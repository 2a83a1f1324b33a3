import Statechart.Transition.Action
import Statechart.Transition.Guard

/-!
# `Statechart.Transition.Basic`: transitions

A transition leads from the state that owns it to the state that it names. The name is
looked up when the transition is taken.
-/

set_option autoImplicit false

namespace Statechart

/-- A way out of a state. -/
structure Transition where
  /-- The name, by which histories refer to it. -/
  name : String
  /-- The state that it leads to. -/
  target : String
  /-- When it is open. -/
  guard : Guard
  /-- What happens when the target is entered. -/
  action : Option Action

namespace Transition

/-- A transition that is always open. -/
def always (name target : String) (action : Option Action) : Transition :=
  ⟨name, target, .always, action⟩

/-- A transition needs a name and a target. The fault names the state that owns it. -/
def validate (transition : Transition) (owner : String) : Except Fault Unit :=
  if transition.name = "" then
    .error (.stateInvalid owner (.unnamedTransition transition.target))
  else if transition.target = "" then
    .error (.stateInvalid owner (.noDestination transition.name))
  else .ok ()

/-- The text of an action in dumps. -/
def actionSummary : Option Action → String
  | none => "no action"
  | some action =>
    if action.params.isEmpty then "has action (no params)"
    else "has action ("
      ++ String.join (action.params.entries.map fun entry =>
          " " ++ entry.1 ++ "=" ++ entry.2.display)
      ++ " )"

/-- The text of a transition in dumps. It is part of a line, not a line of its own. -/
def summary (transition : Transition) : String :=
  "name: \"" ++ transition.name ++ "\", to: \"" ++ transition.target ++ "\", guard: "
    ++ transition.guard.display ++ ", " ++ actionSummary transition.action

end Transition

end Statechart
