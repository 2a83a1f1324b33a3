import Statechart.Decimal.Style
import Statechart.Json.Basic

/-!
# `Statechart.Json.Printer`: compact JSON texts

`Json.compact` writes a value without blanks, with the fields of objects in the order in
which they are listed. Numbers have the fewest digits that read back; from `10 ^ 16` on
and below `10 ^ -5` they have an exponent.
-/

set_option autoImplicit false

namespace Statechart

namespace Json

/-- Number texts in JSON: a whole double keeps its point, so that it reads back as a
double. -/
def numberStyle : NumberStyle where
  usesExponent leading := leading < -5 || 16 ≤ leading
  marksWhole := true
  signsExponent := true
  tie := .even

/-- The form of a character in a JSON string. -/
def escapeChar (c : Char) : List Char :=
  if c = '\"' then ['\\', '\"']
  else if c = '\\' then ['\\', '\\']
  else if c = '\x08' then ['\\', 'b']
  else if c = '\x0c' then ['\\', 'f']
  else if c = '\n' then ['\\', 'n']
  else if c = '\r' then ['\\', 'r']
  else if c = '\t' then ['\\', 't']
  else if c.toNat < 0x20 then
    ['\\', 'u', '0', '0', Nat.digitChar (c.toNat / 16), Nat.digitChar (c.toNat % 16)]
  else [c]

/-- A JSON string. -/
def string (text : String) : String :=
  String.ofList (['\"'] ++ text.toList.flatMap escapeChar ++ ['\"'])

mutual

/-- The text of a value without blanks. -/
def compact : Json → String
  | .null => "null"
  | .bool value => if value then "true" else "false"
  | .int value => toString value
  | .float value => numberStyle.format value
  | .str value => string value
  | .arr items => "[" ++ ",".intercalate (compactItems items) ++ "]"
  | .obj fields => "\x7b" ++ ",".intercalate (compactFields fields) ++ "\x7d"

/-- The texts of the items of an array. -/
def compactItems : List Json → List String
  | [] => []
  | item :: rest => compact item :: compactItems rest

/-- The texts of the fields of an object. -/
def compactFields : List (String × Json) → List String
  | [] => []
  | (name, value) :: rest => (string name ++ ":" ++ compact value) :: compactFields rest

end

end Json

end Statechart
