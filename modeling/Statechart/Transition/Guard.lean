import Statechart.Callback.Condition

/-!
# `Statechart.Transition.Guard`: when transitions are open

A guard looks at the variables in view and says whether its transition is open. It may
fail, which is not the same as being closed.
-/

set_option autoImplicit false

namespace Statechart

/-- When a transition is open. -/
inductive Guard where
  /-- Always. -/
  | always
  /-- When a variable has a value; numbers compare as floats. -/
  | contextEquals (key : String) (expected : Value)
  /-- When a test of the user says so. -/
  | custom (test : View → Outcome Bool)

namespace Guard

/-- Whether a variable has a value. If a number is expected, the variable must hold one, and
integers and floats are compared as floats. Anything else must equal the expected value,
which a value of another type never does. -/
def compare (view : View) (key : String) (expected : Value) : Except Fault Bool := do
  let stored ← view.raw key
  if expected.isNumeric then
    match stored.toFloat? with
    | some actual => pure (expected.toFloat? == some actual)
    | none => .error (.runtime (.notNumeric key stored.type))
  else pure (stored == expected)

/-- Whether the guard is open for the variables in view. -/
def check : Guard → View → Outcome Bool
  | always, _ => ⟨[], .ok true⟩
  | contextEquals key expected, view =>
    ⟨[], Condition.reading (compare view key expected)⟩
  | custom test, view => test view

/-- The guard of a ready-made condition; it leaves a note when it is asked. -/
def ofCondition (line : String) (condition : Condition) : Guard :=
  custom fun view => ⟨[line], condition.holds view⟩

/-- The text of a guard in dumps. -/
def display : Guard → String
  | always => "always"
  | contextEquals key expected => "context " ++ key ++ " == " ++ expected.display
  | custom _ => "custom"

end Guard

end Statechart
