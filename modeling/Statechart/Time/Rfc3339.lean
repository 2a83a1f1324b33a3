import Statechart.Text.Blank
import Statechart.Time.Timestamp

/-!
# `Statechart.Time.Rfc3339`: points in time as texts

Timestamps are written as RFC 3339 texts in universal time, with no fraction or with the
fewest of three, six and nine digits that are exact. Reading is more lenient: white space
may stand between the parts, numbers may have fewer digits, a year may have a sign and any
number of digits, and the offset from universal time may be `Z`, `UTC` or hours and
minutes.
-/

set_option autoImplicit false

namespace Statechart

namespace Timestamp

/-- A number with at least `width` digits. -/
def padded (width : Nat) (n : Nat) : String :=
  let digits := Nat.toDigits 10 n
  String.ofList (List.replicate (width - digits.length) '0' ++ digits)

/-- A year: four digits, or a sign and at least four digits outside of them. -/
def yearText (year : Int) : String :=
  if year < 0 then "-" ++ padded 4 year.natAbs
  else if year ≤ 9999 then padded 4 year.natAbs
  else "+" ++ padded 4 year.natAbs

/-- The fraction of a second, with the fewest of no, three, six and nine digits. -/
def fractionText (nanos : Nat) : String :=
  if nanos = 0 then ""
  else if nanos % 1000000 = 0 then "." ++ padded 3 (nanos / 1000000)
  else if nanos % 1000 = 0 then "." ++ padded 6 (nanos / 1000)
  else "." ++ padded 9 nanos

/-- The text of a point in time. -/
def format (t : Timestamp) : String :=
  let date := t.date
  let second := t.secondOfDay.toNat
  let leap := t.inLeapSecond
  yearText date.year ++ "-" ++ padded 2 date.month ++ "-" ++ padded 2 date.day
    ++ "T" ++ padded 2 (second / 3600) ++ ":" ++ padded 2 (second / 60 % 60)
    ++ ":" ++ padded 2 (second % 60 + if leap then 1 else 0)
    ++ fractionText (if leap then t.nanos - nanosPerSecond.toNat else t.nanos) ++ "Z"

/-- Reads a number of at most `width` digits (any number of them for `none`) behind white
space. -/
def number? (width : Option Nat) (input : List Char) : Option (Nat × List Char) :=
  let digits := input.takeWhile Char.isDigit
  let digits := match width with
    | some width => digits.take width
    | none => digits
  if digits.isEmpty then none
  else some (digits.foldl (fun n c => n * 10 + (c.toNat - '0'.toNat)) 0,
    input.drop digits.length)

/-- Reads a number of one or two digits within bounds, white space in front. -/
def field? (least most : Nat) (input : List Char) : Option (Nat × List Char) := do
  let (n, rest) ← number? (some 2) (skipWhite input)
  if least ≤ n ∧ n ≤ most then some (n, rest) else none

/-- Reads a mark between two numbers, white space in front. -/
def mark? (mark : Char) (input : List Char) : Option (List Char) :=
  match skipWhite input with
  | c :: rest => if c = mark then some rest else none
  | [] => none

/-- Reads a year: four digits at most, or a sign and any number of them. -/
def year? (input : List Char) : Option (Int × List Char) :=
  match skipWhite input with
  | '-' :: rest => (number? none rest).map fun (n, rest) => (-(n : Int), rest)
  | '+' :: rest => (number? none rest).map fun (n, rest) => ((n : Int), rest)
  | input => (number? (some 4) input).map fun (n, rest) => ((n : Int), rest)

/-- Reads a date that exists. -/
def date? (input : List Char) : Option (Date × List Char) := do
  let (year, input) ← year? input
  let input ← mark? '-' input
  let (month, input) ← field? 1 12 input
  let input ← mark? '-' input
  let (day, input) ← field? 1 31 input
  let date : Date := ⟨year, month, day⟩
  if date.isValid then some (date, input) else none

/-- Reads the fraction of a second; digits past the ninth are dropped. -/
def nanos? : List Char → Option (Nat × List Char)
  | '.' :: rest => do
    let digits := (rest.takeWhile Char.isDigit).take 9
    let (n, _) ← number? (some 9) rest
    some (n * Nat.pow 10 (9 - digits.length), rest.dropWhile Char.isDigit)
  | input => some (0, input)

/-- Reads a time of day as seconds and nanoseconds. Second 60 is a leap second. -/
def time? (input : List Char) : Option (Nat × Nat × List Char) := do
  let (hour, input) ← field? 0 23 input
  let input ← mark? ':' input
  let (minute, input) ← field? 0 59 input
  let input ← mark? ':' input
  let (second, input) ← field? 0 60 input
  let (nanos, input) ← nanos? input
  let start := hour * 3600 + minute * 60
  if second = 60 then some (start + 59, nanosPerSecond.toNat + nanos, input)
  else some (start + second, nanos, input)

/-- Reads two digits. -/
def pair? : List Char → Option (Nat × List Char)
  | a :: b :: rest =>
    if a.isDigit ∧ b.isDigit then
      some ((a.toNat - '0'.toNat) * 10 + (b.toNat - '0'.toNat), rest)
    else none
  | _ => none

/-- Reads the hours and minutes of an offset of less than a day, as seconds. -/
def offsetSize? (input : List Char) : Option (Int × List Char) := do
  let (hours, input) ← pair? input
  let (minutes, input) ← pair? (input.dropWhile fun c => c = ':' || isWhite c)
  if minutes < 60 ∧ hours < 24 then some (((hours * 3600 + minutes * 60 : Nat) : Int), input)
  else none

/-- Reads an offset from universal time. The minus sign may be a hyphen or U+2212. -/
def offset? (input : List Char) : Option (Int × List Char) :=
  match skipWhite input with
  | [] => none
  | c :: rest =>
    if (c = 'u' ∨ c = 'U') then
      match rest with
      | t :: u :: rest =>
        if (t = 't' ∨ t = 'T') ∧ (u = 'c' ∨ u = 'C') then some (0, rest) else none
      | _ => none
    else if c = 'z' ∨ c = 'Z' then some (0, rest)
    else if c = '+' then offsetSize? rest
    else if c = '-' ∨ c = '\u2212' then
      (offsetSize? rest).map fun (size, rest) => (-size, rest)
    else none

/-- Reads a point in time. -/
def parse? (text : String) : Option Timestamp := do
  let (date, input) ← date? text.toList
  match input with
  | separator :: input =>
    if separator = 't' ∨ separator = 'T' ∨ separator = ' ' then
      let (second, nanos, input) ← time? input
      let (offset, input) ← offset? input
      let t : Timestamp := ⟨date.toDays * secondsPerDay + second - offset, nanos⟩
      if (skipWhite input).isEmpty ∧ Date.firstYear ≤ t.date.year
          ∧ t.date.year ≤ Date.lastYear then some t
      else none
    else none
  | [] => none

end Timestamp

end Statechart
