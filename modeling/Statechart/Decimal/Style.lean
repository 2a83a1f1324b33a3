import Statechart.Decimal.Shortest

/-!
# `Statechart.Decimal.Style`: how the digits of a number are laid out

`NumberStyle.format` writes a float with the fewest digits that read back. Where the decimal
point goes, when an exponent is used instead and whether a whole number keeps its point is
decided by a `NumberStyle`, so that each kind of text states its own conventions in one
record.
-/

set_option autoImplicit false

namespace Statechart

/-- The conventions of one kind of number text. -/
structure NumberStyle where
  /-- The powers of ten of the leading digit for which an exponent is written. -/
  usesExponent : Int → Bool
  /-- Whether a whole number without exponent ends in a point and a zero. -/
  marksWhole : Bool
  /-- Whether an exponent that is not negative has a plus sign. -/
  signsExponent : Bool
  /-- Which of two equally near decimals is taken. -/
  tie : Tie

namespace NumberStyle

/-- The digits of a number without its sign, `coefficient * 10 ^ power`. -/
def unsigned (style : NumberStyle) (coefficient : Nat) (power : Int) : String :=
  let digits := Nat.toDigits 10 coefficient
  let leading := power + digits.length - 1
  if style.usesExponent leading then
    let fraction := if digits.length = 1 then [] else '.' :: digits.drop 1
    let sign := if leading < 0 then ['-'] else if style.signsExponent then ['+'] else []
    String.ofList (digits.take 1 ++ fraction ++ ['e'] ++ sign
      ++ Nat.toDigits 10 leading.natAbs)
  else if 0 ≤ power then
    String.ofList (digits ++ List.replicate power.toNat '0'
      ++ if style.marksWhole then ['.', '0'] else [])
  else if 0 ≤ leading then
    let whole := leading.toNat + 1
    String.ofList (digits.take whole ++ ['.'] ++ digits.drop whole)
  else
    String.ofList (['0', '.'] ++ List.replicate (-leading - 1).toNat '0' ++ digits)

/-- The text of a float. -/
def format (style : NumberStyle) (x : Float) : String :=
  let signed (negative : Bool) (text : String) := if negative then "-" ++ text else text
  match Double.ofBits x.toBits with
  | .nan => "NaN"
  | .infinite negative => signed negative "inf"
  | .zero negative => signed negative (if style.marksWhole then "0.0" else "0")
  | .finite negative mantissa exponent =>
    let (coefficient, power) := (shortestDecimal? style.tie mantissa exponent).getD (0, 0)
    signed negative (style.unsigned coefficient power)

/-- Plain text: the point is always written out, and whole numbers have none. -/
def plain : NumberStyle where
  usesExponent _ := false
  marksWhole := false
  signsExponent := false
  tie := .up

end NumberStyle

end Statechart
