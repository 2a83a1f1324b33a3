import Statechart.Decimal.Style
import Statechart.Json.Basic
import Statechart.Text.Quoted

/-!
# `Statechart.Value`: the values of variables

A variable holds a truth value, a 64-bit integer, a float, a string or a payload. What a
payload holds does not count: two payloads are equal when they have the same identity.
Values of different types are never equal, but integers and floats both widen to floats
(`Value.toFloat?`).
-/

set_option autoImplicit false

namespace Statechart

/-- What tells payloads apart. -/
inductive Identity where
  /-- A payload with a name. -/
  | label (name : String)
  /-- A payload without a name, numbered. -/
  | occurrence (index : Nat)
  /-- The literal of a parameter that a transition of a state declares. -/
  | parameter (state transition key : String)
  deriving DecidableEq, Repr

/-- What a payload holds. -/
inductive Content where
  /-- A text. -/
  | text (value : String)
  /-- A JSON value that is no variable's value by itself. -/
  | literal (value : Json)

/-- A shared object that variables can hold but not look into. -/
structure Payload where
  /-- Which object it is. -/
  identity : Identity
  /-- What it holds. -/
  content : Content

/-- The value of a variable. -/
inductive Value where
  /-- A truth value. -/
  | bool (value : Bool)
  /-- A 64-bit integer. -/
  | int (value : Int64)
  /-- A float. -/
  | float (value : Float)
  /-- A string. -/
  | str (value : String)
  /-- Anything else. -/
  | payload (value : Payload)

/-- The types of values. -/
inductive ValueType where
  /-- Truth values. -/
  | bool
  /-- Integers. -/
  | int
  /-- Floats. -/
  | float
  /-- Strings. -/
  | str
  /-- Payloads. -/
  | payload
  deriving DecidableEq, Repr

/-- The name of a type in messages. -/
def ValueType.name : ValueType → String
  | bool => "bool"
  | int => "int"
  | float => "float"
  | str => "string"
  | payload => "opaque"

namespace Value

/-- The type of a value. -/
def type : Value → ValueType
  | .bool _ => .bool
  | .int _ => .int
  | .float _ => .float
  | .str _ => .str
  | .payload _ => .payload

/-- The number that a value stands for: integers and floats widen to floats. -/
def toFloat? : Value → Option Float
  | .int value => some value.toFloat
  | .float value => some value
  | _ => none

/-- Whether a value is compared as a number. -/
def isNumeric : Value → Bool
  | .int _ | .float _ => true
  | _ => false

/-- The text that a payload holds, if it holds one. -/
def payloadText? : Value → Option String
  | .payload ⟨_, .text value⟩ => some value
  | _ => none

/-- Whether two values are equal: they have one type, and payloads have one identity. Floats
compare as numbers, so a NaN is not even equal to itself. -/
def equals : Value → Value → Bool
  | .bool a, .bool b => a == b
  | .int a, .int b => a == b
  | .float a, .float b => a == b
  | .str a, .str b => a == b
  | .payload a, .payload b => a.identity == b.identity
  | _, _ => false

instance : BEq Value := ⟨equals⟩

/-- The text of a value in dumps and messages. -/
def display : Value → String
  | .bool value => if value then "true" else "false"
  | .int value => toString value.toInt
  | .float value => NumberStyle.plain.format value
  | .str value => quote value
  | .payload _ => "<opaque>"

/-- The first number beyond the integers of 64 bits with sign, `2 ^ 63`. -/
def intBound : Int := 9223372036854775808

/-- The value of a JSON literal that is a truth value, a number or a string. Whole numbers are
integers if they fit 64 bits with sign and floats otherwise. -/
def scalar? : Json → Option Value
  | .bool value => some (.bool value)
  | .int value =>
    if value < intBound then some (.int (Int64.ofInt value))
    else some (.float (UInt64.ofNat value.toNat).toFloat)
  | .float value => some (.float value)
  | .str value => some (.str value)
  | .null | .arr _ | .obj _ => none

/-- The value of a JSON literal. Null, arrays and objects are payloads, and `identity` is
theirs. -/
def ofJson (identity : Identity) (literal : Json) : Value :=
  (scalar? literal).getD (.payload ⟨identity, .literal literal⟩)

end Value

end Statechart
