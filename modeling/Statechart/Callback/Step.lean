import Statechart.Callback.Script

/-!
# `Statechart.Callback.Step`: ready-made actions

Simple things that actions do, and the script that does a list of them until one fails.
-/

set_option autoImplicit false

namespace Statechart

/-- A simple thing that an action does. -/
inductive Step where
  /-- Writes a value. -/
  | put (value : Value) (target : Target)
  /-- Writes the value of a variable. -/
  | copy (key : String) (target : Target)
  /-- Writes the sum of an integer variable and a number, modulo `2 ^ 64`. -/
  | add (key : String) (amount : Int64) (target : Target)
  /-- Writes a string variable with a text behind it. -/
  | append (key text : String) (target : Target)
  /-- Reads a variable of a given type. -/
  | need (type : ValueType) (key : String)
  /-- Leaves a note that says what a variable shows. -/
  | probe (key : String)
  /-- Fails. -/
  | fail (failure : Failure)

namespace Step

/-- The value of a type, or why it is none. -/
def typed (type : ValueType) (value : Value) : Except Fault Unit :=
  if value.type = type then .ok () else .error (value.mismatch type)

/-- Does a step and goes on if it succeeds. -/
def andThen (next : Script) : Step → Script
  | put value target => .put target value next
  | copy key target => .get key fun value => .put target value next
  | add key amount target =>
    .get key fun value => .expect value.asInt fun n => .put target (.int (n + amount)) next
  | append key text target =>
    .get key fun value => .expect value.asStr fun s => .put target (.str (s ++ text)) next
  | need type key => .get key fun value => .expect (typed type value) fun _ => next
  | probe key =>
    .look key fun found =>
      let shown := match found with
        | some value => value.display
        | none => "absent"
      .note ("probe " ++ key ++ " " ++ shown) next
  | fail failure => .fail failure

/-- The script that does steps in order until one fails. -/
def script (steps : List Step) : Script :=
  steps.foldr (fun step next => step.andThen next) .done

end Step

end Statechart
