import Statechart.Blueprint.Compile
import Statechart.Blueprint.Links
import Statechart.Blueprint.Order
import Statechart.Chart.Validation

/-!
# `Statechart.Blueprint.Assembly`: from blueprints to charts

The states of a blueprint are made one after the other, each behind the state that it
depends on, and are linked as they are made. Then they are put below the root of a new
chart, and the chart is checked as a whole.
-/

set_option autoImplicit false

namespace Statechart

/-- States that are made already. -/
structure Parts where
  /-- The states by name. -/
  built : Dict State
  /-- The state that is marked as start state. -/
  start : Option String

namespace Parts

/-- No states. -/
def empty : Parts := ⟨Dict.empty, none⟩

/-- Links a new state to its parent among the parts. -/
def attach (parts : Parts) (link : Option Link) (state : State) :
    Except Fault (Dict State × State) :=
  match link.bind (·.parent) with
  | none => .ok (parts.built, state)
  | some parent =>
    match parts.built.get? parent with
    | none => .error (.load (.parentMissing parent state.name))
    | some above => do
      let isStart := link.bind (·.claimer) = some parent
      let (above, state) ← above.adopt state isStart
      pure (parts.built.insert parent above, state)

/-- Marks a state as the start state, which must be the only one. -/
def mark (parts : Parts) (name : String) (isStart : Bool) : Except Fault (Option String) :=
  if isStart then
    match parts.start with
    | some first => .error (.load (.severalStarts first name))
    | none => .ok (some name)
  else .ok parts.start

end Parts

namespace Blueprint

/-- Makes the state of a name. -/
def make (blueprint : Blueprint) (registry : Registry) (links : Dict Link) (parts : Parts)
    (name : String) : Except Fault Parts :=
  match blueprint.states.get? name with
  | none => .ok parts
  | some plan => do
    let transitions ←
      if plan.startName?.isSome then pure []
      else (plan.compile registry name).mapError .load
    let (built, state) ← parts.attach (links.get? name) (State.new name transitions)
    let start ← parts.mark name plan.start
    pure ⟨built.insert name state, start⟩

/-- Makes all states. -/
def parts (blueprint : Blueprint) (registry : Registry) : Except Fault Parts := do
  let links ← blueprint.links
  let order ← (dependencyOrder (links.mapWithKey fun _ link => link.dependencies)).mapError
    .load
  order.foldlM (blueprint.make registry links) Parts.empty

/-- The start state and the other states. -/
def resolve (blueprint : Blueprint) (registry : Registry) :
    Except Fault (State × Dict State) := do
  let parts ← blueprint.parts registry
  match parts.start.bind fun name => (parts.built.get? name).map (name, ·) with
  | none => .error (.load .noStart)
  | some (name, start) => pure (start, parts.built.erase name)

/-- The chart of a blueprint. -/
def assemble (blueprint : Blueprint) (registry : Registry) : Except Fault Chart := do
  let (start, states) ← blueprint.resolve registry
  let chart ← Chart.new.append start states
  chart.validate
  pure chart

end Blueprint

end Statechart
