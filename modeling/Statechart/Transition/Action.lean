import Statechart.Callback.Step

/-!
# `Statechart.Transition.Action`: what happens on entry

An action is a script with literal parameters. The parameters are written to the innermost
scope, in the order of their names, right before the script runs.
-/

set_option autoImplicit false

namespace Statechart

/-- A script with its parameters. -/
structure Action where
  /-- The parameters. -/
  params : Dict Value
  /-- What runs after the parameters are written. -/
  script : Script

namespace Action

/-- An action without parameters. -/
def ofScript (script : Script) : Action := ⟨Dict.empty, script⟩

/-- The action with one more parameter; a parameter of the same name is replaced. -/
def param (action : Action) (key : String) (value : Value) : Action :=
  ⟨action.params.insert key value, action.script⟩

/-- The script that writes the parameters and then does the work. -/
def program (action : Action) : Script :=
  action.params.entries.foldr (fun entry next => .put (.head entry.1) entry.2 next)
    action.script

/-- Runs an action on a store. -/
def run {σ : Type} [Store σ] (action : Action) (store : σ) : σ × Outcome Unit :=
  action.program.run store

end Action

end Statechart
