import Statechart.Scope.Basic

/-!
# `Statechart.Callback.Script`: what actions do

An action is a `Script`: a tree of reads and writes, where what follows may depend on what
was read and on whether a write succeeded. A script can leave notes for an observer. It
knows nothing of the store that it runs on but the answers it gets, so the same script runs
on a scope and on a stack of scopes (`Script.run`).
-/

set_option autoImplicit false

namespace Statechart

/-- What a callback came to, and the notes that it left. -/
structure Outcome (α : Type) where
  /-- The notes, in order. -/
  notes : List String
  /-- The result. -/
  result : Except Failure α

/-- What an action does. -/
inductive Script where
  /-- Ends well. -/
  | done
  /-- Ends with a failure. -/
  | fail (failure : Failure)
  /-- Leaves a note. -/
  | note (line : String) (next : Script)
  /-- Reads a variable. -/
  | look (key : String) (next : Option Value → Script)
  /-- Writes a value and learns whether that succeeded. -/
  | write (target : Target) (value : Value) (next : Except Fault Unit → Script)

namespace Script

instance : Inhabited Script := ⟨done⟩

/-- Goes on with a result, or ends with its fault. -/
def expect {α : Type} (result : Except Fault α) (next : α → Script) : Script :=
  match result with
  | .ok value => next value
  | .error fault => fail (.fault fault)

/-- Reads a variable that must exist. -/
def get (key : String) (next : Value → Script) : Script :=
  look key fun found =>
    match found with
    | some value => next value
    | none => fail (.fault (.keyNotFound key))

/-- Writes a value, which must succeed. -/
def put (target : Target) (value : Value) (next : Script) : Script :=
  write target value fun result => expect result fun _ => next

/-- Runs a script on a store. What was written before a failure stays written. -/
def run {σ : Type} [Store σ] : Script → σ → σ × Outcome Unit
  | done, store => (store, ⟨[], .ok ()⟩)
  | fail failure, store => (store, ⟨[], .error failure⟩)
  | note line next, store =>
    let (store, outcome) := next.run store
    (store, ⟨line :: outcome.notes, outcome.result⟩)
  | look key next, store => (next (Store.view store key)).run store
  | write target value next, store =>
    match Store.write store target value with
    | .ok store => (next (.ok ())).run store
    | .error fault => (next (.error fault)).run store

end Script

end Statechart
