/-!
# `Statechart.Decimal.Shortest`: the shortest decimal of a binary fraction

A finite double is `mantissa * 2 ^ exponent`. All reals nearer to it than to its
neighbours read back as it, and so do the two half-way points when the mantissa is even.
`shortestDecimal?` looks for the coarsest grid of multiples of a power of ten that has a
point among these reals. On that grid only the two points beside the double can be the
nearest, so the search looks at no others. All comparisons are between natural numbers.
-/

set_option autoImplicit false

namespace Statechart

/-- What the 64 bits of a double say. -/
inductive Double where
  /-- Not a number. -/
  | nan
  /-- An infinity. -/
  | infinite (negative : Bool)
  /-- A zero, which has a sign too. -/
  | zero (negative : Bool)
  /-- The number `mantissa * 2 ^ exponent`, or its negative. -/
  | finite (negative : Bool) (mantissa : Nat) (exponent : Int)
  deriving DecidableEq, Repr

/-- The least mantissa of a double of full precision, `2 ^ 52`. -/
def leastMantissa : Nat := 4503599627370496

/-- The power of two of the last place of the smallest doubles. -/
def leastExponent : Int := -1074

/-- Reads a sign bit, eleven bits of exponent and 52 bits of fraction. -/
def Double.ofBits (bits : UInt64) : Double :=
  let n := bits.toNat
  let negative := 9223372036854775808 ≤ n
  let biased : Nat := n / leastMantissa % 2048
  let fraction := n % leastMantissa
  if biased = 2047 then
    if fraction = 0 then .infinite negative else .nan
  else if biased = 0 then
    if fraction = 0 then .zero negative else .finite negative fraction leastExponent
  else .finite negative (leastMantissa + fraction) (leastExponent - 1 + biased)

/-- Which of two equally near decimals is taken. -/
inductive Tie where
  /-- The greater one. -/
  | up
  /-- The one with an even last digit. -/
  | even
  deriving DecidableEq, Repr

/-- The reals that read back as a double, in quarters of its last place. The double itself
is at four times its mantissa; below a power of two the neighbour is twice as near. -/
structure RoundingInterval where
  /-- The lower end. -/
  low : Nat
  /-- The double. -/
  middle : Nat
  /-- The upper end. -/
  high : Nat
  /-- Whether the ends read back as the double. -/
  closed : Bool
  /-- The power of two of a quarter of the last place. -/
  exponent : Int

/-- The rounding interval of `mantissa * 2 ^ exponent`. -/
def RoundingInterval.of (mantissa : Nat) (exponent : Int) : RoundingInterval where
  low :=
    if mantissa = leastMantissa ∧ exponent ≠ leastExponent then 4 * mantissa - 1
    else 4 * mantissa - 2
  middle := 4 * mantissa
  high := 4 * mantissa + 2
  closed := mantissa % 2 = 0
  exponent := exponent - 2

/-- The multiple of `10 ^ power` that is nearest to the double, if it or the other
neighbour on that grid lies in the interval. -/
def RoundingInterval.nearest? (interval : RoundingInterval) (tie : Tie) (power : Int) :
    Option Nat :=
  let unit := Nat.pow 10 power.toNat * Nat.pow 2 (-interval.exponent).toNat
  let scale := Nat.pow 2 interval.exponent.toNat * Nat.pow 10 (-power).toNat
  let value := interval.middle * scale
  let inside (n : Nat) : Bool :=
    if interval.closed then
      interval.low * scale ≤ n * unit ∧ n * unit ≤ interval.high * scale
    else interval.low * scale < n * unit ∧ n * unit < interval.high * scale
  let below := value / unit
  let above := below + 1
  match inside below, inside above with
  | false, false => none
  | true, false => some below
  | false, true => some above
  | true, true =>
    match compare (2 * value) ((below + above) * unit) with
    | .lt => some below
    | .gt => some above
    | .eq =>
      match tie with
      | .up => some above
      | .even => some (if below % 2 = 0 then below else above)

/-- The fewest digits that read back as `mantissa * 2 ^ exponent`, as a number and the power
of ten of its last digit. The search starts at a power of ten above the double, and
seventeen digits always suffice, so it finds a grid for every double. -/
def shortestDecimal? (tie : Tie) (mantissa : Nat) (exponent : Int) : Option (Nat × Int) :=
  let interval := RoundingInterval.of mantissa exponent
  let start := (Nat.log2 mantissa + 1 + exponent) * 30103 / 100000 + 1
  (List.range 25).findSome? fun step : Nat =>
    let power := start - (step : Int)
    (interval.nearest? tie power).map (·, power)

end Statechart
