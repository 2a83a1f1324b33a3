import Statechart.Transition.Basic

/-!
# `Statechart.Transition.Draft`: transitions in the making

A draft collects the parts of a transition in any order; a part that is given again
replaces the earlier one. Only the source state and the target are required.
-/

set_option autoImplicit false

namespace Statechart

/-- A transition in the making. -/
structure Draft where
  /-- The state that will own the transition, for its name and for faults. -/
  source : Option String := none
  /-- The name. -/
  name : Option String := none
  /-- The state that it leads to. -/
  target : Option String := none
  /-- When it is open. -/
  guard : Option Guard := none
  /-- What happens on entry. -/
  action : Option Action := none

namespace Draft

/-- Sets the source state. -/
def leaving (draft : Draft) (state : String) : Draft :=
  { draft with source := some state }

/-- Sets the target. -/
def entering (draft : Draft) (state : String) : Draft :=
  { draft with target := some state }

/-- Sets the name. -/
def named (draft : Draft) (name : String) : Draft :=
  { draft with name := some name }

/-- Sets the guard. -/
def withGuard (draft : Draft) (guard : Guard) : Draft :=
  { draft with guard := some guard }

/-- Sets the action. -/
def withAction (draft : Draft) (action : Action) : Draft :=
  { draft with action := some action }

/-- The transition of a draft. It is named after its ends if it was given no name, and is
always open if it was given no guard. -/
def build (draft : Draft) : Except Fault Transition := do
  let some source := draft.source | .error (.load .sourceNotSet)
  let some target := draft.target | .error (.stateInvalid source .destinationNotSet)
  let transition : Transition :=
    ⟨draft.name.getD (source ++ "-" ++ target), target, draft.guard.getD .always, draft.action⟩
  transition.validate source
  pure transition

end Draft

end Statechart
