import Statechart.Text.Outline
import Statechart.Transition.Basic

/-!
# `Statechart.State`: states

A state either delegates to one start substate or has transitions of its own. States refer
to each other by name. `State.adopt` links a state below another one; a state is adopted
once at most, and a start substate is the only way out of its parent.
-/

set_option autoImplicit false

namespace Statechart

/-- A state. -/
structure State where
  /-- The name. -/
  name : String
  /-- The state around it. -/
  parent : Option String
  /-- The substate that is entered right away. -/
  startSubstate : Option String
  /-- The ways out. -/
  transitions : List Transition

namespace State

/-- A state on its own. -/
def new (name : String) (transitions : List Transition) : State :=
  ⟨name, none, none, transitions⟩

/-- Whether a run ends in the state. -/
def isFinal (state : State) : Bool :=
  state.transitions.isEmpty

/-- The transition into a start substate. -/
def entry (parent child : String) : Transition :=
  .always ("Always " ++ parent ++ "->" ++ child) child none

/-- Links a state below another one and gives both back, the parent first. To become the
start substate, it needs a parent with neither a start substate nor transitions; the
transition into it is then the parent's only one. -/
def adopt (parent child : State) (isStart : Bool) : Except Fault (State × State) :=
  match child.parent, isStart, parent.startSubstate, parent.transitions with
  | some current, _, _, _ => .error (.stateInvalid child.name (.hasParent current))
  | none, true, some current, _ => .error (.stateInvalid parent.name (.hasStart current))
  | none, true, none, _ :: _ => .error (.stateInvalid parent.name .startBesideTransitions)
  | none, true, none, [] =>
    .ok ({ parent with
            startSubstate := some child.name
            transitions := [entry parent.name child.name] },
      { child with parent := some parent.name })
  | none, false, _, _ => .ok (parent, { child with parent := some parent.name })

/-- Whether the transitions are just the one into the start substate. -/
def delegates (start : String) : List Transition → Bool
  | [only] => only.target = start
  | _ => false

/-- Checks transitions one by one: each must be valid and have a name of its own. -/
def validateTransitions (owner : String) :
    (seen : List String) → List Transition → Except Fault Unit
  | _, [] => .ok ()
  | seen, transition :: rest => do
    transition.validate owner
    if transition.name ∈ seen then
      .error (.stateInvalid owner (.duplicateTransition transition.name))
    else validateTransitions owner (transition.name :: seen) rest

/-- Checks a state on its own: it needs a name, a start substate must be the only way out,
and the transitions must be valid and have different names. -/
def validate (state : State) : Except Fault Unit :=
  if state.name = "" then .error (.stateInvalid "" .unnamed)
  else
    match state.startSubstate with
    | some start =>
      if delegates start state.transitions then validateTransitions state.name [] state.transitions
      else .error (.stateInvalid state.name .customTransitions)
    | none => validateTransitions state.name [] state.transitions

/-- The dump of a state. -/
def outline (state : State) : Outline :=
  let parent := match state.parent with
    | some parent => "\"" ++ parent ++ "\""
    | none => "none"
  let start := match state.startSubstate with
    | some start => ", start substate: \"" ++ start ++ "\""
    | none => ""
  let transitions : Outline :=
    if state.transitions.isEmpty then [⟨1, "no transitions"⟩]
    else state.transitions.map fun transition => ⟨1, transition.summary⟩
  ⟨0, "> name: \"" ++ state.name ++ "\", parent: " ++ parent ++ start⟩
    :: ⟨0, "transitions:"⟩ :: transitions

end State

end Statechart
