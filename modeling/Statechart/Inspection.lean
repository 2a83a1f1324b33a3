import Statechart.Registry
import Statechart.Transition.Basic

/-!
# `Statechart.Inspection`: texts that show how a thing is made

An inspection names the kind of a thing and its parts. Strings are quoted, floats keep the
mark of a float, and what cannot be looked into is left out.
-/

set_option autoImplicit false

namespace Statechart

/-- Number texts in inspections: a whole float keeps its point, and there is an exponent from
`10 ^ 16` on and below `10 ^ -4`. -/
def inspectionStyle : NumberStyle where
  usesExponent leading := leading < -4 || 16 ≤ leading
  marksWhole := true
  signsExponent := false
  tie := .up

/-- Shows a value. -/
def Value.inspect : Value → String
  | .bool value => "Bool(" ++ (if value then "true" else "false") ++ ")"
  | .int value => "Int(" ++ toString value.toInt ++ ")"
  | .float value => "Float(" ++ inspectionStyle.format value ++ ")"
  | .str value => "Str(" ++ quote value ++ ")"
  | .payload _ => "Opaque(Any \x7b .. \x7d)"

/-- Shows a guard. -/
def Guard.inspect : Guard → String
  | .always => "Always"
  | .contextEquals key expected =>
    "ContextEquals \x7b key: " ++ quote key ++ ", value: " ++ expected.inspect ++ " \x7d"
  | .custom _ => "Custom(..)"

/-- Shows an action. -/
def Action.inspect (action : Action) : String :=
  let params := action.params.entries.map fun entry =>
    quote entry.1 ++ ": " ++ entry.2.inspect
  "PackagedAction \x7b params: \x7b" ++ ", ".intercalate params ++ "\x7d, .. \x7d"

/-- Shows a transition. -/
def Transition.inspect (transition : Transition) : String :=
  let action := match transition.action with
    | none => "None"
    | some action => "Some(" ++ action.inspect ++ ")"
  "Transition \x7b name: " ++ quote transition.name ++ ", to_state: "
    ++ quote transition.target ++ ", guard: " ++ transition.guard.inspect ++ ", action: "
    ++ action ++ " \x7d"

/-- Shows a registry. -/
def Registry.inspect (registry : Registry) : String :=
  "ActionMap \x7b actions: [" ++ ", ".intercalate (registry.names.map quote) ++ "] \x7d"

end Statechart
