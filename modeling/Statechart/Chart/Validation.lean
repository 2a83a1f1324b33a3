import Statechart.Chart.Lineage

/-!
# `Statechart.Chart.Validation`: consistent charts

A chart is consistent if all its states are well formed and their chains of parents end, if
every transition leads to a state of the same tree, and if every state but the root is
referred to: as a start substate, or by a transition of another state.
-/

set_option autoImplicit false

namespace Statechart

namespace Chart

/-- Walks up the parents of a state. Meeting a name again is a cycle; `bound` names at most
can be met without one. -/
def validateChain (chart : Chart) (origin : String) :
    (bound : Nat) → (visited : List String) → State → Except Fault Unit
  | 0, _, _ => .error (.stateInvalid origin .cycled)
  | bound + 1, visited, state =>
    if state.name ∈ visited then .error (.stateInvalid origin .cycled)
    else
      match state.parent with
      | none => .ok ()
      | some parent =>
        match chart.get? parent with
        | none => .error (.chartInvalid (.unknownParent state.name parent))
        | some above => validateChain chart origin bound (state.name :: visited) above

/-- Checks a state and its chain of parents. The state need not be in the chart itself, so
one name more than the chart has can be met. -/
def validateState (chart : Chart) (state : State) : Except Fault Unit := do
  state.validate
  chart.validateChain state.name (chart.size + 2) [] state

/-- Checks that a transition leads to a state of the same tree. -/
def validateTransition (chart : Chart) (state : State) (transition : Transition) :
    Except Fault Unit :=
  if chart.contains transition.target then
    if (chart.commonAncestor? state.name transition.target).isSome then .ok ()
    else .error (.chartInvalid (.noCommonParent state.name transition.target))
  else
    .error (.chartInvalid (.unknownDestination transition.name state.name transition.target))

/-- Checks one state of the chart with its transitions. -/
def validateMember (chart : Chart) (state : State) : Except Fault Unit := do
  chart.validateState state
  state.transitions.forM (chart.validateTransition state)

/-- The states that a state refers to. A transition back to the state itself does not
count. -/
def references (state : State) : List String :=
  state.startSubstate.toList
    ++ (state.transitions.map (·.target)).filter (· ≠ state.name)

/-- The states that no state refers to, in order. The root needs no reference. -/
def isolated (chart : Chart) : List String :=
  let referenced := rootName :: chart.states.values.flatMap references
  chart.states.keys.filter (· ∉ referenced)

/-- Checks the whole chart, state by state in the order of their names. -/
def validate (chart : Chart) : Except Fault Unit := do
  chart.states.values.forM chart.validateMember
  match chart.isolated with
  | [] => pure ()
  | states => .error (.chartInvalid (.isolated states))

end Chart

end Statechart
