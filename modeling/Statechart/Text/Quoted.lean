import Statechart.Text.Unprintable

/-!
# `Statechart.Text.Quoted`: texts in double quotes

`quote` writes a text between double quotes so that it fills one line and can be read
back: the quote and the backslash are escaped, the usual control characters have their
two-letter forms, and every other unprintable character is written as its code point in
hexadecimal digits.
-/

set_option autoImplicit false

namespace Statechart

/-- The form of a character between double quotes. -/
def escapeChar (c : Char) : List Char :=
  if c = '\"' then ['\\', '\"']
  else if c = '\\' then ['\\', '\\']
  else if c = '\t' then ['\\', 't']
  else if c = '\r' then ['\\', 'r']
  else if c = '\n' then ['\\', 'n']
  else if c = '\x00' then ['\\', '0']
  else if isUnprintable c then
    ['\\', 'u', '\x7b'] ++ Nat.toDigits 16 c.toNat ++ ['\x7d']
  else [c]

/-- A text between double quotes, on one line. -/
def quote (text : String) : String :=
  String.ofList (['\"'] ++ text.toList.flatMap escapeChar ++ ['\"'])

end Statechart
