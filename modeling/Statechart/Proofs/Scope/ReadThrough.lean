import Statechart.Proofs.Writes
import Statechart.Transition.Guard

/-!
# `Statechart.Proofs.Scope.ReadThrough`: reading through a stack of scopes

A stack of scopes reads like one scope. `ScopeStack.flattened` is that scope: it has the variables
of all scopes, put together from the outermost scope inwards, so that inner variables hide outer
ones. `view_flattened` proves that nothing else can be seen of a stack.

Writes go to one scope of the stack each. What they do to the flattened scope depends on whether a
scope further in has a variable of the same name (`Hides`). If one has, the write is not seen, and
otherwise it is seen as a write of that variable (`flattened_write`). The innermost scope is never
hidden. `read_through_law` puts reading and writing together.
-/

set_option autoImplicit false

namespace Statechart

namespace Dict

variable {α : Type}

/-- A map that is overlaid by all entries of another one shows the values of the other one, where
it has any. -/
theorem get?_overlaid_entries (d e : Dict α) (key : String) :
    (d.overlaid e.entries).get? key = (e.get? key).or (d.get? key) := by
  -- Over the empty map the entries are the other map itself.
  have hentries : e.entries.reverse.lookup key = e.get? key := by
    have hself := get?_overlaid empty e.entries key
    rw [empty_overlaid, get?_empty, Option.or_none] at hself
    exact hself.symm
  rw [get?_overlaid, hentries]

end Dict

/-- The number of scopes that a stack needs to have a place. -/
def Target.scopes : Target → Nat
  | .head _ | .result => 1
  | .parent _ => 2

/-- Everything that can be asked of one view is answered in the same way by the other one: the
variables, as they are or of a type, and the guards. -/
structure View.ReadsAs (view view' : View) : Prop where
  /-- The values, or the missing name. -/
  raw : ∀ key, view.raw key = view'.raw key
  /-- Which variables exist. -/
  has : ∀ key, view.has key = view'.has key
  /-- The truth values, or what is there instead. -/
  bool : ∀ key, view.bool key = view'.bool key
  /-- The integers, or what is there instead. -/
  int : ∀ key, view.int key = view'.int key
  /-- The floats, or what is there instead. -/
  float : ∀ key, view.float key = view'.float key
  /-- The strings, or what is there instead. -/
  str : ∀ key, view.str key = view'.str key
  /-- The guards, with their notes and failures. -/
  guard : ∀ guard : Guard, guard.check view = guard.check view'

namespace ScopeStack

variable {stack after : ScopeStack} {target : Target} {value : Value} {key : String}

/-- One scope with the variables of all scopes of a stack. Inner scopes overlay outer ones. -/
def flattened (stack : ScopeStack) : Scope :=
  stack.frames.foldr (fun frame scope => scope.overlaid frame.scope.entries) Dict.empty

/-- The innermost scope that has a variable holds the value. -/
def Shows (stack : ScopeStack) (key : String) (value : Value) : Prop :=
  ∃ inner frame outer, stack.frames = inner ++ frame :: outer
    ∧ frame.scope.get? key = some value ∧ ∀ other ∈ inner, other.scope.get? key = none

/-- A scope further in than the one that a place is in has a variable of the same name. -/
def Hides (stack : ScopeStack) : Target → Prop
  | .head _ => False
  | .parent key => ∃ frame, stack.head? = some frame ∧ (frame.scope.get? key).isSome
  | .result => ∃ frame ∈ stack.frames.dropLast, (frame.scope.get? resultKey).isSome

/-! ### Reading -/

/-- What a look-up on a stack finds is the value of the innermost scope that has the variable. -/
theorem view_eq_some_iff : stack.view key = some value ↔ stack.Shows key value :=
  List.findSome?_eq_some_iff

/-- A variable is looked up in the innermost scope first, and then on the rest of the stack. -/
theorem view_cons (frame : Frame) (outer : List Frame) (key : String) :
    (ScopeStack.mk (frame :: outer)).view key
      = (frame.scope.get? key).or ((ScopeStack.mk outer).view key) := by
  unfold view
  rw [List.findSome?_cons]
  cases frame.scope.get? key <;> rfl

/-- A variable is looked up in the inner scopes first, and then in the outer ones. -/
theorem view_append (inner outer : List Frame) (key : String) :
    (ScopeStack.mk (inner ++ outer)).view key
      = ((ScopeStack.mk inner).view key).or ((ScopeStack.mk outer).view key) :=
  List.findSome?_append

/-- The flattened scope has what is seen of the stack. -/
theorem get?_flattened (stack : ScopeStack) (key : String) :
    stack.flattened.get? key = stack.view key := by
  obtain ⟨frames⟩ := stack
  induction frames with
  | nil => rfl
  | cons frame rest ih =>
    show ((ScopeStack.mk rest).flattened.overlaid frame.scope.entries).get? key = _
    rw [Dict.get?_overlaid_entries, ih, view_cons]

/-- A stack looks like its flattened scope. -/
theorem view_flattened (stack : ScopeStack) : stack.flattened.view = stack.view :=
  funext stack.get?_flattened

/-! ### Writing -/

/-- A write to a scope is seen as a write of the variable, unless a scope further in has one of
the same name. -/
theorem flattened_put (inner outer : List Frame) (frame : Frame) (key : String) (value : Value) :
    (ScopeStack.mk (inner ++ frame.put key value :: outer)).flattened
      = if ((ScopeStack.mk inner).view key).isSome
        then (ScopeStack.mk (inner ++ frame :: outer)).flattened
        else (ScopeStack.mk (inner ++ frame :: outer)).flattened.insert key value := by
  have hframe : ∀ other, (ScopeStack.mk (frame.put key value :: outer)).view other
      = if other = key then some value else (ScopeStack.mk (frame :: outer)).view other := by
    intro other
    rw [view_cons, view_cons]
    show ((frame.scope.insert key value).get? other).or _ = _
    rw [Dict.get?_insert]
    by_cases hother : other = key
    · rw [if_pos hother, if_pos hother, Option.some_or]
    · rw [if_neg hother, if_neg hother]
  -- Scopes are equal if they show the same variables, and the other ones are seen as before.
  refine Dict.ext_get? fun other => ?_
  rw [get?_flattened, view_append, hframe]
  cases hinner : (ScopeStack.mk inner).view key with
  | some found =>
    rw [Option.isSome_some, if_pos rfl, get?_flattened, view_append]
    by_cases hother : other = key
    · rw [hother, hinner, Option.some_or, Option.some_or]
    · rw [if_neg hother]
  | none =>
    rw [Option.isSome_none, if_neg Bool.false_ne_true, Dict.get?_insert, get?_flattened,
      view_append]
    by_cases hother : other = key
    · rw [hother, hinner, if_pos rfl, if_pos rfl, Option.none_or]
    · rw [if_neg hother, if_neg hother]

/-- A write is hidden exactly if the frames further in show its variable. -/
theorem hides_iff {inner outer : List Frame} {frame : Frame}
    (hframes : stack.frames = inner ++ frame :: outer) (hplace : target.IsBetween inner outer) :
    stack.Hides target ↔ ((ScopeStack.mk inner).view target.key).isSome := by
  obtain ⟨frames⟩ := stack
  cases hframes
  cases target with
  | head key =>
    cases hplace
    simp [Hides, view]
  | parent key =>
    obtain ⟨first, rfl⟩ := List.length_eq_one_iff.1 hplace
    simp [Hides, head?, view, Target.key]
  | result =>
    cases hplace
    simp [Hides, view, Target.key]

/-- What a write does to the flattened scope. -/
theorem flattened_write (h : stack.write target value = .ok after) :
    (stack.Hides target → after.flattened = stack.flattened)
      ∧ (¬ stack.Hides target → after.flattened = stack.flattened.insert target.key value) := by
  obtain ⟨inner, frame, outer, hbefore, hafter, hplace⟩ := exists_of_write h
  have hput := flattened_put inner outer frame target.key value
  rw [← hbefore, ← hafter] at hput
  rw [hides_iff hbefore hplace]
  refine ⟨fun hhidden => ?_, fun hseen => ?_⟩
  · rw [if_pos hhidden] at hput
    exact hput
  · rw [if_neg hseen] at hput
    exact hput

/-- A write needs as many scopes as its place, and nothing else. -/
theorem exists_write_iff (stack : ScopeStack) (target : Target) (value : Value) :
    (∃ after, stack.write target value = .ok after) ↔ target.scopes ≤ stack.depth := by
  obtain ⟨frames⟩ := stack
  cases frames with
  | nil => cases target <;> simp [write, Target.scopes, depth]
  | cons frame rest =>
    cases rest with
    | nil => cases target <;> simp [write, Target.scopes, depth]
    | cons around rest => cases target <;> simp [write, Target.scopes, depth]

/-- The flattened scope of a stack has each variable with the value that the innermost scope with
such a variable holds, and all that is read of the stack is read of it. A write that finds its
scope is a write of the same variable to the flattened scope if the variable is not hidden, and
changes nothing there if it is. -/
theorem read_through_law (stack : ScopeStack) :
    (∀ key value, stack.flattened.get? key = some value ↔ stack.Shows key value)
      ∧ stack.view.ReadsAs stack.flattened.view
      ∧ ∀ target value,
        ((∃ after, stack.write target value = .ok after) ↔ target.scopes ≤ stack.depth)
          ∧ ∀ after, stack.write target value = .ok after →
            (stack.Hides target → after.flattened = stack.flattened)
              ∧ (¬ stack.Hides target →
                after.flattened = stack.flattened.insert target.key value) := by
  refine ⟨fun key value => ?_, ?_, fun target value => ⟨?_, fun after h => flattened_write h⟩⟩
  · rw [get?_flattened]
    exact view_eq_some_iff
  · rw [view_flattened]
    exact ⟨fun _ => rfl, fun _ => rfl, fun _ => rfl, fun _ => rfl, fun _ => rfl, fun _ => rfl,
      fun _ => rfl⟩
  · exact exists_write_iff stack target value

/-- The scope of a lamp in the one of a room, which both have a colour. -/
def lampInRoom : ScopeStack :=
  ⟨[⟨"lamp", Dict.empty.insert "colour" (.str "red")⟩,
    ⟨"room", (Dict.empty.insert "colour" (.str "white")).insert "light" (.bool true)⟩]⟩

/-- A new colour of the room is hidden by that of the lamp, while a result of the run is seen. -/
theorem lampInRoom_read_through :
    lampInRoom.flattened.get? "colour" = some (.str "red")
      ∧ (∃ after, lampInRoom.write (.parent "colour") (.str "grey") = .ok after
        ∧ after.flattened = lampInRoom.flattened)
      ∧ ∃ after, lampInRoom.write .result (.bool true) = .ok after
        ∧ after.flattened = lampInRoom.flattened.insert "result" (.bool true) := by
  obtain ⟨hshows, -, hwrites⟩ := read_through_law lampInRoom
  have hcolour : lampInRoom.Shows "colour" (.str "red") := ⟨[], _, _, rfl, rfl, by simp⟩
  have hhidden : lampInRoom.Hides (.parent "colour") := ⟨_, rfl, rfl⟩
  have hseen : ¬ lampInRoom.Hides .result := by
    rintro ⟨frame, hframe, hsome⟩
    cases List.mem_singleton.1 hframe
    cases hsome
  refine ⟨(hshows _ _).2 hcolour, ?_, ?_⟩
  · exact ⟨_, rfl, ((hwrites (.parent "colour") (.str "grey")).2 _ rfl).1 hhidden⟩
  · exact ⟨_, rfl, ((hwrites .result (.bool true)).2 _ rfl).2 hseen⟩

end ScopeStack

end Statechart
