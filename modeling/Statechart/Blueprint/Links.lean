import Statechart.Blueprint.Basic
import Statechart.Fault.Basic

/-!
# `Statechart.Blueprint.Links`: who belongs to whom

A declared state has a parent either because it names one or because another state claims
it as its start substate. Both may be given if they agree. A state can be put in place only
after the states that it depends on: its declared parent and its claimer.
-/

set_option autoImplicit false

namespace Statechart

/-- How a declared state is linked to others. -/
structure Link where
  /-- Its parent, declared or implied. -/
  parent : Option String
  /-- The state that claims it as start substate. -/
  claimer : Option String
  /-- The states that come before it. -/
  dependencies : List String
  deriving DecidableEq, Repr

namespace Blueprint

/-- Enters the claim of a state on its start substate. -/
def claim (blueprint : Blueprint) (claims : Dict String) (entry : String × StatePlan) :
    Except Fault (Dict String) :=
  match entry.2.startName? with
  | none => .ok claims
  | some start =>
    if ¬ entry.2.transitions.isEmpty then .error (.stateInvalid entry.1 .customTransitions)
    else if ¬ blueprint.states.contains start then
      .error (.load (.startNotDeclared start entry.1))
    else
      match claims.get? start with
      | some other => .error (.load (.claimedTwice start other entry.1))
      | none => .ok (claims.insert start entry.1)

/-- The states that are claimed as start substates, with their claimers. -/
def claims (blueprint : Blueprint) : Except Fault (Dict String) :=
  blueprint.states.entries.foldlM blueprint.claim Dict.empty

/-- The link of a state, given the claims. -/
def link (blueprint : Blueprint) (claims : Dict String) (name : String) (plan : StatePlan) :
    Except Fault Link :=
  let declared := plan.parentName?
  let claimer := claims.get? name
  match declared.filter fun parent => ¬ blueprint.states.contains parent with
  | some parent => .error (.load (.parentNotDeclared parent name))
  | none =>
    let mismatch := match declared, claimer with
      | some parent, some claimer => if parent = claimer then none else some (parent, claimer)
      | _, _ => none
    match mismatch with
    | some (parent, claimer) => .error (.load (.parentMismatch name claimer parent))
    | none =>
      let parent := declared.or claimer
      if plan.start ∧ parent.isSome then .error (.load (.startHasParent name))
      else .ok ⟨parent, claimer, (declared.toList ++ claimer.toList).eraseDups⟩

/-- The links of all states. -/
def links (blueprint : Blueprint) : Except Fault (Dict Link) := do
  let claims ← blueprint.claims
  blueprint.states.mapM (blueprint.link claims)

end Blueprint

end Statechart
