import Statechart.Dict.Basic

/-!
# `Statechart.Json.Basic`: JSON values

The values of a JSON document. Whole numbers that fit 64 bits, signed or unsigned, are
kept exactly; all other numbers are doubles. The fields of an object are a list, and
`Json.ofFields` puts them in the order of their names with the last of several equal names
in force.
-/

set_option autoImplicit false

namespace Statechart

/-- A JSON value. -/
inductive Json where
  /-- The literal `null`. -/
  | null
  /-- A truth value. -/
  | bool (value : Bool)
  /-- A whole number. -/
  | int (value : Int)
  /-- Any other number. -/
  | float (value : Float)
  /-- A string. -/
  | str (value : String)
  /-- An array. -/
  | arr (items : List Json)
  /-- An object. -/
  | obj (fields : List (String × Json))
  deriving Inhabited

namespace Json

/-- The object with these fields: in the order of the names, and of several fields with one
name only the last. -/
def ofFields (fields : List (String × Json)) : Json :=
  .obj (Dict.ofList fields).entries

end Json

end Statechart
