import Statechart.Json.Basic

/-!
# `Statechart.Blueprint.Basic`: declared machines

A blueprint describes the states of a machine by names alone, in no particular order. An
empty name for a parent or a start substate means that there is none.
-/

set_option autoImplicit false

namespace Statechart

/-- A name that is not empty. -/
def nonEmpty? (name : Option String) : Option String :=
  name.filter (· ≠ "")

/-- A declared guard. -/
structure GuardPlan where
  /-- The kind: empty or `always`, or `context`. -/
  kind : String := ""
  /-- The variable that a context guard compares. -/
  key : Option String := none
  /-- The literal that a context guard compares with. -/
  value : Option Json := none

/-- A declared action; an empty name means that there is none. -/
inductive ActionPlan where
  /-- A name alone. -/
  | bare (name : String)
  /-- A name with parameters. -/
  | packaged (name : String) (params : Dict Json)

/-- The name of a declared action. -/
def ActionPlan.name : ActionPlan → String
  | bare name => name
  | packaged name _ => name

/-- The parameters of a declared action. -/
def ActionPlan.params : ActionPlan → Dict Json
  | bare _ => Dict.empty
  | packaged _ params => params

/-- A declared transition. -/
structure TransitionPlan where
  /-- The state that it leads to. -/
  target : String
  /-- When it is open. -/
  guard : GuardPlan := {}
  /-- What happens on entry. -/
  action : Option ActionPlan := none

/-- A declared state. -/
structure StatePlan where
  /-- Whether runs begin here. -/
  start : Bool := false
  /-- The substate that is entered right away. -/
  startSubstate : Option String := none
  /-- The state around it. -/
  parent : Option String := none
  /-- The ways out by name. -/
  transitions : Dict TransitionPlan := Dict.empty

/-- The start substate, if one is named. -/
def StatePlan.startName? (plan : StatePlan) : Option String :=
  nonEmpty? plan.startSubstate

/-- The parent, if one is named. -/
def StatePlan.parentName? (plan : StatePlan) : Option String :=
  nonEmpty? plan.parent

/-- A declared machine. -/
structure Blueprint where
  /-- The states by name. -/
  states : Dict StatePlan

instance : Inhabited Blueprint := ⟨⟨Dict.empty⟩⟩

end Statechart
