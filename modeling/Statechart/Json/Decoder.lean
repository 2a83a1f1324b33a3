import Statechart.Json.Written

/-!
# `Statechart.Json.Decoder`: from documents to records

A `Decoder α` turns a written document into an `α`, given how many arrays and objects may
still be opened. A record may be written as an object, whose known fields must not be
repeated and whose other members are passed over, or as an array of its fields in their
declared order, which may leave out fields at the end.
-/

set_option autoImplicit false

namespace Statechart

/-- Decodes a document in which at most `room` arrays and objects stand inside each other. -/
def Decoder (α : Type) := (room : Nat) → Written → Option α

/-- The fields of a record that are present. -/
structure Fields where
  /-- How deep the values of the fields may be nested. -/
  room : Nat
  /-- The fields by name. -/
  values : Dict Written

namespace Decoder

variable {α : Type}

/-- A truth value. -/
def bool : Decoder Bool
  | _, .bool value => some value
  | _, _ => none

/-- A string. -/
def text : Decoder String
  | _, .text pieces => Piece.text? pieces
  | _, _ => none

/-- Any value. -/
def json : Decoder Json := Written.value?

/-- A whole number of 64 bits without sign. -/
def natural : Decoder Nat
  | _, .number numeral =>
    match numeral.value? with
    | some (.int value) => if 0 ≤ value then some value.toNat else none
    | _ => none
  | _, _ => none

/-- A value or `null`. -/
def nullable (decode : Decoder α) : Decoder (Option α)
  | _, .null => some none
  | room, document => (decode room document).map some

/-- An array. -/
def list (decode : Decoder α) : Decoder (List α)
  | room + 1, .array items => items.mapM (decode room)
  | _, _ => none

/-- A member of an object with its name. -/
def member? (decode : Decoder α) (room : Nat) (member : List Piece × Written) :
    Option (String × α) := do
  let name ← Piece.text? member.1
  let value ← decode room member.2
  pure (name, value)

/-- An object as a map; of several members with one name the last counts. -/
def dict (decode : Decoder α) : Decoder (Dict α)
  | room + 1, .object members => (members.mapM (member? decode room)).map Dict.ofList
  | _, _ => none

/-- The members of an object that a record knows; a known name must not be repeated. -/
def knownMembers? (names : List String) (members : List (List Piece × Written)) :
    Option (Dict Written) :=
  members.foldlM (fun known member => do
    let name ← Piece.text? member.1
    if name ∈ names then
      if known.contains name then none else some (known.insert name member.2)
    else some known) Dict.empty

/-- A record written as an object. -/
def object (names : List String) (decode : Fields → Option α) : Decoder α
  | room + 1, .object members => do decode ⟨room, ← knownMembers? names members⟩
  | _, _ => none

/-- A record with the given fields, written as an object or as an array. -/
def record (names : List String) (decode : Fields → Option α) : Decoder α
  | room + 1, .array items =>
    if items.length ≤ names.length then decode ⟨room, Dict.ofList (names.zip items)⟩ else none
  | room, document => object names decode room document

/-- Decodes a text. -/
def run (decode : Decoder α) (source : String) : Option α :=
  (Written.read? source).bind (decode Written.nestingLimit)

end Decoder

namespace Fields

variable {α : Type}

/-- A field that must be present. -/
def required (fields : Fields) (name : String) (decode : Decoder α) : Option α :=
  (fields.values.get? name).bind (decode fields.room)

/-- A field that has a default. -/
def withDefault (fields : Fields) (name : String) (decode : Decoder α) (default : α) :
    Option α :=
  match fields.values.get? name with
  | some document => decode fields.room document
  | none => some default

end Fields

end Statechart
