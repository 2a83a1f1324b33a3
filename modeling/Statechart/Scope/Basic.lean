import Statechart.Dict.Basic
import Statechart.Fault.Message
import Statechart.Text.Outline

/-!
# `Statechart.Scope.Basic`: variables and access to them

A `Scope` is a finite map of variables. Guards read variables through a `View`, which is
all that they can observe; actions also write, to one of three places (`Target`), and a
`Store` is whatever can be read and written in this way.
-/

set_option autoImplicit false

namespace Statechart

/-- The variables of one state. -/
abbrev Scope := Dict Value

/-- The name of the variable that holds the result of a run. -/
def resultKey : String := "result"

/-- What can be read of the variables at one moment: the value that each name shows. -/
abbrev View := String → Option Value

namespace Value

/-- The fault of a value that was asked for as another type. -/
def mismatch (requested : ValueType) (value : Value) : Fault :=
  .invalidType requested value.type

/-- The truth value that a value is. -/
def asBool : Value → Except Fault Bool
  | .bool value => .ok value
  | other => .error (mismatch .bool other)

/-- The integer that a value is. -/
def asInt : Value → Except Fault Int64
  | .int value => .ok value
  | other => .error (mismatch .int other)

/-- The float that a value is; integers do not count. -/
def asFloat : Value → Except Fault Float
  | .float value => .ok value
  | other => .error (mismatch .float other)

/-- The string that a value is. -/
def asStr : Value → Except Fault String
  | .str value => .ok value
  | other => .error (mismatch .str other)

end Value

namespace View

/-- The value of a variable. -/
def raw (view : View) (key : String) : Except Fault Value :=
  match view key with
  | some value => .ok value
  | none => .error (.keyNotFound key)

/-- Whether a variable exists. -/
def has (view : View) (key : String) : Bool :=
  (view key).isSome

/-- The truth value of a variable. -/
def bool (view : View) (key : String) : Except Fault Bool :=
  view.raw key >>= Value.asBool

/-- The integer of a variable. -/
def int (view : View) (key : String) : Except Fault Int64 :=
  view.raw key >>= Value.asInt

/-- The float of a variable. -/
def float (view : View) (key : String) : Except Fault Float :=
  view.raw key >>= Value.asFloat

/-- The string of a variable. -/
def str (view : View) (key : String) : Except Fault String :=
  view.raw key >>= Value.asStr

end View

/-- The places that an action can write to. -/
inductive Target where
  /-- A variable of the innermost scope. -/
  | head (key : String)
  /-- A variable of the scope around the innermost one. -/
  | parent (key : String)
  /-- The result of the run, in the outermost scope. -/
  | result
  deriving DecidableEq, Repr

/-- Variables that can be read and written. -/
class Store (σ : Type) where
  /-- What can be read. -/
  view : σ → View
  /-- Puts a value in a place. -/
  write : σ → Target → Value → Except Fault σ

namespace Scope

/-- What can be read of a scope on its own. -/
def view (scope : Scope) : View := fun key => scope.get? key

/-- A scope on its own is both the innermost and the outermost one. -/
def write (scope : Scope) : Target → Value → Except Fault Scope
  | .head key, value => .ok (scope.insert key value)
  | .parent _, _ => .error (.runtime .noEnclosingScope)
  | .result, value => .ok (scope.insert resultKey value)

instance : Store Scope where
  view := Scope.view
  write := Scope.write

/-- The dump of a scope: its variables in the order of their names. -/
def outline (scope : Scope) : Outline :=
  if scope.isEmpty then [⟨0, "(empty)"⟩]
  else scope.entries.map fun entry => ⟨0, entry.1 ++ ": " ++ entry.2.display⟩

end Scope

end Statechart
