import Statechart.Json.Numeral

/-!
# `Statechart.Json.Written`: JSON documents as they are written

`Written.read?` reads a document by the strict grammar of JSON: no comments, no trailing
commas, no leading zeros, no bare control characters in strings, and nothing but blanks
after the value. The result keeps number literals and escapes as they stand.
`Written.value?` then gives them their meaning. The two steps are apart because parts of a
document that nobody asks for need only be well written: a number too large for a double
or half of a surrogate pair is a fault only where the value is used.
-/

set_option autoImplicit false

namespace Statechart

/-- A piece of a string literal. -/
inductive Piece where
  /-- A character, written as itself or by a two-letter escape. -/
  | char (c : Char)
  /-- A 16-bit unit, written with four hexadecimal digits. -/
  | unit (code : Nat)
  deriving DecidableEq, Repr

/-- A JSON document as it is written. -/
inductive Written where
  /-- The literal `null`. -/
  | null
  /-- A truth value. -/
  | bool (value : Bool)
  /-- A number literal. -/
  | number (numeral : Numeral)
  /-- A string literal. -/
  | text (pieces : List Piece)
  /-- An array. -/
  | array (items : List Written)
  /-- An object, with its members in the order and number in which they are written. -/
  | object (members : List (List Piece × Written))
  deriving Inhabited

/-- The characters of a string literal. A high surrogate must be followed by a low one, and a
low one must follow a high one. -/
def Piece.chars? : List Piece → Option (List Char)
  | [] => some []
  | .char c :: rest => (Piece.chars? rest).map (c :: ·)
  | .unit code :: rest =>
    if 0xd800 ≤ code ∧ code < 0xdc00 then
      match rest with
      | .unit low :: rest =>
        if 0xdc00 ≤ low ∧ low < 0xe000 then
          let c := Char.ofNat (0x10000 + (code - 0xd800) * 0x400 + (low - 0xdc00))
          (Piece.chars? rest).map (c :: ·)
        else none
      | _ => none
    else if 0xdc00 ≤ code ∧ code < 0xe000 then none
    else (Piece.chars? rest).map (Char.ofNat code :: ·)

/-- The text of a string literal. -/
def Piece.text? (pieces : List Piece) : Option String :=
  (Piece.chars? pieces).map String.ofList

namespace Written

/-- The value of a document with at most `room` arrays and objects inside each other. -/
def value? : (room : Nat) → Written → Option Json
  | _, .null => some .null
  | _, .bool value => some (.bool value)
  | _, .number numeral => numeral.value?
  | _, .text pieces => (Piece.text? pieces).map .str
  | 0, .array _ => none
  | 0, .object _ => none
  | room + 1, .array items => (items.mapM (value? room)).map .arr
  | room + 1, .object members => do
    let fields ← members.mapM fun member => do
      let name ← Piece.text? member.1
      let value ← value? room member.2
      pure (name, value)
    pure (.ofFields fields)

/-- The blanks between the parts of a document. -/
def isBlank (c : Char) : Bool :=
  c = ' ' || c = '\t' || c = '\n' || c = '\r'

/-- The input without the blanks in front. -/
def skipBlanks (input : List Char) : List Char :=
  input.dropWhile isBlank

/-- The digits in front of the input, and the rest. -/
def digits (input : List Char) : List Nat × List Char :=
  ((input.takeWhile Char.isDigit).map fun c => c.toNat - '0'.toNat,
    input.dropWhile Char.isDigit)

/-- Reads the fraction of a number: a point and at least one digit, or nothing. -/
def fraction? : List Char → Option (Option (List Nat) × List Char)
  | '.' :: rest =>
    match digits rest with
    | ([], _) => none
    | (ds, rest) => some (some ds, rest)
  | input => some (none, input)

/-- Reads the digits of an exponent with the given sign. -/
def exponentDigits? (negative : Bool) (input : List Char) :
    Option (Option (Bool × List Nat) × List Char) :=
  match digits input with
  | ([], _) => none
  | (ds, rest) => some (some (negative, ds), rest)

/-- Reads the exponent of a number: a mark, a sign or none and at least one digit, or
nothing. -/
def exponent? : List Char → Option (Option (Bool × List Nat) × List Char)
  | mark :: rest =>
    if mark = 'e' ∨ mark = 'E' then
      match rest with
      | '+' :: rest => exponentDigits? false rest
      | '-' :: rest => exponentDigits? true rest
      | rest => exponentDigits? false rest
    else some (none, mark :: rest)
  | [] => some (none, [])

/-- Reads a number. Only the number zero starts with the digit zero. -/
def numeral? (input : List Char) : Option (Numeral × List Char) := do
  let (negative, input) := match input with
    | '-' :: rest => (true, rest)
    | input => (false, input)
  let (whole, input) := digits input
  match whole with
  | [] => none
  | 0 :: _ :: _ => none
  | _ =>
    let (fraction, input) ← fraction? input
    let (exponent, input) ← exponent? input
    pure (⟨negative, whole, fraction, exponent⟩, input)

/-- The value of a hexadecimal digit. -/
def hexDigit? (c : Char) : Option Nat :=
  if '0' ≤ c ∧ c ≤ '9' then some (c.toNat - '0'.toNat)
  else if 'a' ≤ c ∧ c ≤ 'f' then some (c.toNat - 'a'.toNat + 10)
  else if 'A' ≤ c ∧ c ≤ 'F' then some (c.toNat - 'A'.toNat + 10)
  else none

/-- The unit of four hexadecimal digits. -/
def unit? (a b c d : Char) : Option Nat := do
  let a ← hexDigit? a
  let b ← hexDigit? b
  let c ← hexDigit? c
  let d ← hexDigit? d
  pure (((a * 16 + b) * 16 + c) * 16 + d)

/-- The character that a letter after a backslash stands for. -/
def escaped? : Char → Option Char
  | '\"' => some '\"'
  | '\\' => some '\\'
  | '/' => some '/'
  | 'b' => some '\x08'
  | 'f' => some '\x0c'
  | 'n' => some '\n'
  | 'r' => some '\r'
  | 't' => some '\t'
  | _ => none

/-- Reads a string from behind its opening quote. -/
def pieces? : List Char → Option (List Piece × List Char)
  | [] => none
  | '\"' :: rest => some ([], rest)
  | '\\' :: 'u' :: a :: b :: c :: d :: rest => do
    let code ← unit? a b c d
    let (pieces, rest) ← pieces? rest
    pure (.unit code :: pieces, rest)
  | '\\' :: letter :: rest => do
    let c ← escaped? letter
    let (pieces, rest) ← pieces? rest
    pure (.char c :: pieces, rest)
  | c :: rest => do
    if c.toNat < 0x20 ∨ c = '\\' then none
    else
      let (pieces, rest) ← pieces? rest
      pure (.char c :: pieces, rest)

mutual

/-- Reads a value. Every call is given one unit of fuel less than its caller. -/
def readValue? : (fuel : Nat) → List Char → Option (Written × List Char)
  | 0, _ => none
  | fuel + 1, input =>
    match skipBlanks input with
    | 'n' :: 'u' :: 'l' :: 'l' :: rest => some (.null, rest)
    | 't' :: 'r' :: 'u' :: 'e' :: rest => some (.bool true, rest)
    | 'f' :: 'a' :: 'l' :: 's' :: 'e' :: rest => some (.bool false, rest)
    | '\"' :: rest => (pieces? rest).map fun (pieces, rest) => (.text pieces, rest)
    | '[' :: rest =>
      match skipBlanks rest with
      | ']' :: rest => some (.array [], rest)
      | rest => (readItems? fuel rest).map fun (items, rest) => (.array items, rest)
    | '\x7b' :: rest =>
      match skipBlanks rest with
      | '\x7d' :: rest => some (.object [], rest)
      | rest => (readMembers? fuel rest).map fun (members, rest) => (.object members, rest)
    | input => (numeral? input).map fun (numeral, rest) => (.number numeral, rest)

/-- Reads one or more items up to the end of their array. -/
def readItems? : (fuel : Nat) → List Char → Option (List Written × List Char)
  | 0, _ => none
  | fuel + 1, input => do
    let (item, rest) ← readValue? fuel input
    match skipBlanks rest with
    | ',' :: rest =>
      let (items, rest) ← readItems? fuel rest
      pure (item :: items, rest)
    | ']' :: rest => pure ([item], rest)
    | _ => none

/-- Reads one or more members up to the end of their object. -/
def readMembers? : (fuel : Nat) → List Char →
    Option (List (List Piece × Written) × List Char)
  | 0, _ => none
  | fuel + 1, input =>
    match skipBlanks input with
    | '\"' :: rest => do
      let (name, rest) ← pieces? rest
      match skipBlanks rest with
      | ':' :: rest =>
        let (value, rest) ← readValue? fuel rest
        match skipBlanks rest with
        | ',' :: rest =>
          let (members, rest) ← readMembers? fuel rest
          pure ((name, value) :: members, rest)
        | '\x7d' :: rest => pure ([(name, value)], rest)
        | _ => none
      | _ => none
    | _ => none

end

/-- Reads a document. Each step of the reader that does not take a character is followed by
one that does, so twice the length of the text is fuel enough. -/
def read? (text : String) : Option Written :=
  let input := text.toList
  match readValue? (2 * input.length + 2) input with
  | some (value, rest) => if (skipBlanks rest).isEmpty then some value else none
  | none => none

/-- The number of arrays and objects that may stand inside each other. -/
def nestingLimit : Nat := 127

end Written

/-- The value of a JSON document. -/
def Json.read? (text : String) : Option Json :=
  (Written.read? text).bind (Written.value? Written.nestingLimit)

end Statechart
