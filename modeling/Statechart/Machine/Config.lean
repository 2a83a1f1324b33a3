import Statechart.Json.Decoder
import Statechart.Json.Printer

/-!
# `Statechart.Machine.Config`: the settings of machines

Settings can be read from JSON, where missing ones have their defaults, and be written as
JSON.
-/

set_option autoImplicit false

namespace Statechart

/-- The settings of a machine. -/
structure Config where
  /-- The number of moves that a history makes room for in advance. -/
  historyCapacity : Nat := 10
  /-- The number of transitions that one run may take, if there is a limit. -/
  maxSteps : Option Nat := none
  deriving DecidableEq, Repr, Inhabited

namespace Config

/-- The names of the settings. -/
def fields : List String := ["history_capacity", "max_steps"]

/-- Settings as a record. -/
def decode : Decoder Config :=
  .record fields fun fields => do
    let defaults : Config := {}
    let historyCapacity ←
      fields.withDefault "history_capacity" .natural defaults.historyCapacity
    let maxSteps ← fields.withDefault "max_steps" (.nullable .natural) defaults.maxSteps
    pure ⟨historyCapacity, maxSteps⟩

/-- The settings of a JSON text. -/
def ofJson? (source : String) : Option Config :=
  decode.run source

/-- The JSON text of settings. -/
def toJson (config : Config) : String :=
  let maxSteps : Json := match config.maxSteps with
    | some limit => .int limit
    | none => .null
  (Json.obj [("history_capacity", .int config.historyCapacity), ("max_steps", maxSteps)]).compact

end Config

end Statechart
