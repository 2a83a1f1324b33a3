import Statechart.Blueprint.Basic
import Statechart.Json.Printer
import Statechart.Registry
import Statechart.Transition.Basic

/-!
# `Statechart.Blueprint.Compile`: from plans to transitions

Declared guards and actions become guards and actions: literals become values, and names
of actions are looked up in a registry. A fault says in which transition and state it
lies, as far as it belongs to the guard; a fault of an action says only the state.
-/

set_option autoImplicit false

namespace Statechart

/-- The guard of a plan. -/
def GuardPlan.compile (plan : GuardPlan) : Except LoadFault Guard :=
  if plan.kind = "" ∨ plan.kind = "always" then .ok .always
  else if plan.kind = "context" then
    match nonEmpty? plan.key, plan.value with
    | some key, some literal =>
      match Value.scalar? literal with
      | some expected => .ok (.contextEquals key expected)
      | none => .error (.guardLiteral key literal.compact)
    | _, _ => .error .guardIncomplete
  else .error (.guardKind plan.kind)

/-- The action of a plan, for a transition of a state. -/
def ActionPlan.compile (plan : ActionPlan) (registry : Registry) (state transition : String) :
    Except LoadFault (Option Action) :=
  if plan.name = "" then .ok none
  else
    match registry.get? plan.name with
    | none => .error (.actionNotFound plan.name registry.names)
    | some script =>
      let params := plan.params.mapWithKey fun key literal =>
        Value.ofJson (.parameter state transition key) literal
      .ok (some ⟨params, script⟩)

/-- The transition of a plan, under its name. -/
def TransitionPlan.compile (plan : TransitionPlan) (registry : Registry)
    (state name : String) : Except LoadFault Transition := do
  let guard ← plan.guard.compile.mapError (.inTransition name)
  let action ← match plan.action with
    | none => pure none
    | some action => action.compile registry state name
  pure ⟨name, plan.target, guard, action⟩

/-- The transitions of a declared state, in the order of their names. -/
def StatePlan.compile (plan : StatePlan) (registry : Registry) (state : String) :
    Except LoadFault (List Transition) :=
  let compile (entry : String × TransitionPlan) := entry.2.compile registry state entry.1
  (plan.transitions.entries.mapM compile).mapError (.inState state)

end Statechart
