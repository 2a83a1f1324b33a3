import Statechart.Callback.Script

/-!
# `Statechart.Callback.Condition`: ready-made guards

Conditions on variables, put together from tests. A test of a variable with the wrong type
or of one that does not exist fails, and so does every condition that comes to evaluate it.
-/

set_option autoImplicit false

namespace Statechart

/-- A condition on the variables. -/
inductive Condition where
  /-- Always or never holds. -/
  | const (value : Bool)
  /-- Fails. -/
  | fail (failure : Failure)
  /-- A variable exists. -/
  | has (key : String)
  /-- A truth value is true. -/
  | isTrue (key : String)
  /-- An integer is greater than a bound. -/
  | intAbove (key : String) (bound : Int64)
  /-- A float is greater than a bound. -/
  | floatAbove (key : String) (bound : Float)
  /-- A string is a given text. -/
  | strIs (key text : String)
  /-- A value equals a given value. -/
  | equals (key : String) (value : Value)
  /-- A condition does not hold. -/
  | not (condition : Condition)
  /-- Both conditions hold; the second one counts only if the first one holds. -/
  | and (first second : Condition)
  /-- One of two conditions holds; the second one counts only if the first one does not. -/
  | or (first second : Condition)

namespace Condition

/-- A result of reading variables as the result of a callback. -/
def reading {α : Type} (result : Except Fault α) : Except Failure α :=
  result.mapError .fault

/-- Whether a condition holds for the variables in view. -/
def holds (view : View) : Condition → Except Failure Bool
  | const value => .ok value
  | fail failure => .error failure
  | has key => .ok (view.has key)
  | isTrue key => reading (view.bool key)
  | intAbove key bound => reading ((view.int key).map fun n => decide (bound < n))
  | floatAbove key bound => reading ((view.float key).map fun x => decide (bound < x))
  | strIs key text => reading ((view.str key).map fun s => s == text)
  | equals key value => reading ((view.raw key).map fun stored => stored == value)
  | not condition => (condition.holds view).map Bool.not
  | and first second => do
    if ← first.holds view then second.holds view else pure false
  | or first second => do
    if ← first.holds view then pure true else second.holds view

end Condition

end Statechart
