import Statechart.Json.Basic

/-!
# `Statechart.Json.Numeral`: numbers as they are written

A `Numeral` holds the digits of a number literal, and `Numeral.value?` says which number
they stand for. The digits are gathered in an unsigned 64-bit significand; digits that no
longer fit only count towards the power of ten. A literal without point and exponent is a
whole number if it fits 64 bits. Every other literal is a double: the significand, rounded,
and then multiplied or divided by the power of ten, which is one more rounding. A literal
beyond the range of doubles has no value.
-/

set_option autoImplicit false

namespace Statechart

/-- A number literal. -/
structure Numeral where
  /-- Whether it starts with a minus sign. -/
  negative : Bool
  /-- The digits before the point. -/
  whole : List Nat
  /-- The digits after the point, if there is one. -/
  fraction : Option (List Nat)
  /-- The sign of the exponent (`true` for minus) and its digits, if there is one. -/
  exponent : Option (Bool × List Nat)
  deriving DecidableEq, Repr

namespace Numeral

/-- The first number beyond 64 bits, `2 ^ 64`. -/
def wordBound : Nat := 18446744073709551616

/-- The magnitude of the least signed number of 64 bits, `2 ^ 63`. -/
def signedBound : Nat := 9223372036854775808

/-- The first exponent that does not fit 32 bits with sign, `2 ^ 31`. -/
def exponentBound : Nat := 2147483648

/-- Appends digits to a significand while it fits 64 bits; the digits left over are
returned. -/
def absorb (significand : Nat) : List Nat → Nat × List Nat
  | [] => (significand, [])
  | digit :: rest =>
    if significand * 10 + digit < wordBound then absorb (significand * 10 + digit) rest
    else (significand, digit :: rest)

/-- A power of ten as a double, for exponents up to 308. -/
def tenTo (exponent : Nat) : Float :=
  Float.ofScientific 1 false exponent

/-- Multiplies or divides by a power of ten; `none` beyond the range of doubles. Division by
more than `10 ^ 308` goes in steps of that power. -/
def scale? (x : Float) (exponent : Int) : Option Float :=
  if 0 ≤ exponent then
    if exponent ≤ 308 then
      let scaled := x * tenTo exponent.toNat
      if scaled.isInf then none else some scaled
    else if x == 0 then some x
    else none
  else if -308 ≤ exponent then some (x / tenTo (-exponent).toNat)
  else if x == 0 then some x
  else scale? (x / tenTo 308) (exponent + 308)
termination_by (-exponent).toNat
decreasing_by omega

/-- The number of a string of digits. -/
def ofDigits (digits : List Nat) : Nat :=
  digits.foldl (fun n digit => n * 10 + digit) 0

/-- The double `significand * 10 ^ power * 10 ^ exponent`. An exponent beyond 31 bits is
beyond the range of doubles or gives zero. -/
def magnitude? (significand : Nat) (power : Int) : Option (Bool × List Nat) → Option Float
  | none => scale? (UInt64.ofNat significand).toFloat power
  | some (negative, digits) =>
    let exponent := ofDigits digits
    if exponent < exponentBound then
      scale? (UInt64.ofNat significand).toFloat
        (if negative then power - exponent else power + exponent)
    else if negative || significand == 0 then some 0
    else none

/-- The number that a literal stands for. Minus zero is a double, because whole numbers have
only one zero. -/
def value? (n : Numeral) : Option Json :=
  let (significand, dropped) := absorb 0 n.whole
  let signed (x : Float) : Json := .float (if n.negative then -x else x)
  match n.fraction, n.exponent, dropped with
  | none, none, [] =>
    if n.negative then
      if significand = 0 ∨ signedBound < significand then
        some (signed (UInt64.ofNat significand).toFloat)
      else some (.int (-significand))
    else some (.int significand)
  | fraction, exponent, dropped =>
    let digits := fraction.getD []
    let (significand, unused) := absorb significand digits
    let power : Int := (dropped.length : Int) - (digits.length - unused.length : Nat)
    (magnitude? significand power exponent).map signed

end Numeral

end Statechart
