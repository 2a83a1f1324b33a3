import Statechart.Time.Calendar

/-!
# `Statechart.Time.Timestamp`: points in time

A point in universal time to the nanosecond. A leap second is the second before it with a
thousand million nanoseconds or more.
-/

set_option autoImplicit false

namespace Statechart

/-- A point in universal time. -/
structure Timestamp where
  /-- Whole seconds since the start of 1970, leap seconds not counted. -/
  seconds : Int
  /-- Nanoseconds since that second began; `10 ^ 9` and more within a leap second. -/
  nanos : Nat
  deriving DecidableEq, Repr

namespace Timestamp

/-- The seconds of a day. -/
def secondsPerDay : Int := 86400

/-- The nanoseconds of a second. -/
def nanosPerSecond : Int := 1000000000

/-- Whole seconds since midnight. -/
def secondOfDay (t : Timestamp) : Int :=
  t.seconds % secondsPerDay

/-- The date. -/
def date (t : Timestamp) : Date :=
  Date.ofDays (t.seconds / secondsPerDay)

/-- Whether the point lies in a leap second. -/
def inLeapSecond (t : Timestamp) : Bool :=
  nanosPerSecond ≤ t.nanos

/-- The nanoseconds from `start` to `t`. A leap second counts when the later time of day is
past it. -/
def nanosSince (t start : Timestamp) : Int :=
  let leap : Int :=
    if start.secondOfDay < t.secondOfDay ∧ start.inLeapSecond then 1
    else if t.secondOfDay < start.secondOfDay ∧ t.inLeapSecond then -1
    else 0
  (t.seconds - start.seconds + leap) * nanosPerSecond + (t.nanos - start.nanos)

/-- The time from `start` to `t` in seconds and nanoseconds, unless `t` comes first. -/
def since? (t start : Timestamp) : Option (Nat × Nat) :=
  let nanos := t.nanosSince start
  if nanos < 0 then none
  else some ((nanos / nanosPerSecond).toNat, (nanos % nanosPerSecond).toNat)

end Timestamp

end Statechart
