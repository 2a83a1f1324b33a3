import Statechart.Blueprint.Basic
import Statechart.Fault.Basic
import Statechart.Json.Decoder

/-!
# `Statechart.Blueprint.Decoder`: blueprints as JSON

A blueprint is a record of states by name, and states, transitions and guards are records
too. An action is a string or an object; unlike the other records it is never an array, and
everything in it must have a value, even what is passed over.
-/

set_option autoImplicit false

namespace Statechart

/-- A declared guard. -/
def GuardPlan.decode : Decoder GuardPlan :=
  .record ["type", "key", "value"] fun fields => do
    let kind ← fields.withDefault "type" .text ""
    let key ← fields.withDefault "key" (.nullable .text) none
    let value ← fields.withDefault "value" (.nullable .json) none
    pure ⟨kind, key, value⟩

/-- A declared action with its parameters. -/
def ActionPlan.decodePackaged : Decoder ActionPlan :=
  .object ["name", "params"] fun fields => do
    let name ← fields.required "name" .text
    let params ← fields.withDefault "params" (.dict .json) Dict.empty
    pure (.packaged name params)

/-- A declared action. -/
def ActionPlan.decode : Decoder ActionPlan := fun room document =>
  match document.value? room with
  | none => none
  | some (.str name) => some (.bare name)
  | some _ => ActionPlan.decodePackaged room document

/-- A declared transition. -/
def TransitionPlan.decode : Decoder TransitionPlan :=
  .record ["to", "guard", "action"] fun fields => do
    let target ← fields.required "to" .text
    let guard ← fields.withDefault "guard" GuardPlan.decode {}
    let action ← fields.withDefault "action" (.nullable ActionPlan.decode) none
    pure ⟨target, guard, action⟩

/-- A declared state. -/
def StatePlan.decode : Decoder StatePlan :=
  .record ["start", "startsub", "parent", "transitions"] fun fields => do
    let start ← fields.withDefault "start" .bool false
    let startSubstate ← fields.withDefault "startsub" (.nullable .text) none
    let parent ← fields.withDefault "parent" (.nullable .text) none
    let transitions ←
      fields.withDefault "transitions" (.dict TransitionPlan.decode) Dict.empty
    pure ⟨start, startSubstate, parent, transitions⟩

/-- A declared machine. -/
def Blueprint.decode : Decoder Blueprint :=
  .record ["states"] fun fields => do
    let states ← fields.withDefault "states" (.dict StatePlan.decode) Dict.empty
    pure ⟨states⟩

/-- The blueprint of a JSON text. -/
def Blueprint.ofJson (source : String) : Except Fault Blueprint :=
  match Blueprint.decode.run source with
  | some blueprint => .ok blueprint
  | none => .error (.load .malformed)

end Statechart
