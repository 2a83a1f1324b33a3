import Statechart.Scope.Basic

/-!
# `Statechart.Scope.Stack`: scopes inside scopes

Every state that is entered opens a scope inside the scope of its parent. A `ScopeStack`
lists these scopes from the innermost one outwards. Reading goes through the stack in this
order, so that inner variables hide outer ones. Writing goes to one scope only: the
innermost one, the one around it, or the outermost one for the result of the run.
-/

set_option autoImplicit false

namespace Statechart

/-- The scope of a state. -/
structure Frame where
  /-- The state that opened the scope. -/
  state : String
  /-- Its variables. -/
  scope : Scope

/-- The frame with a variable put to a value. -/
def Frame.put (frame : Frame) (key : String) (value : Value) : Frame :=
  ⟨frame.state, frame.scope.insert key value⟩

/-- The scopes of the active states, the innermost first. -/
structure ScopeStack where
  /-- The frames. -/
  frames : List Frame

namespace ScopeStack

/-- The stack without scopes. -/
def empty : ScopeStack := ⟨[]⟩

instance : Inhabited ScopeStack := ⟨empty⟩

/-- The number of scopes. -/
def depth (stack : ScopeStack) : Nat :=
  stack.frames.length

/-- The innermost frame. -/
def head? (stack : ScopeStack) : Option Frame :=
  stack.frames.head?

/-- The frame around the innermost one. -/
def parent? (stack : ScopeStack) : Option Frame :=
  stack.frames[1]?

/-- The outermost frame. -/
def outermost? (stack : ScopeStack) : Option Frame :=
  stack.frames.getLast?

/-- The innermost frame of a state. -/
def byState? (stack : ScopeStack) (state : String) : Option Frame :=
  stack.frames.find? (·.state = state)

/-- The states on the stack, the outermost first. -/
def states (stack : ScopeStack) : List String :=
  (stack.frames.map (·.state)).reverse

/-- Opens an empty scope for a state. A state without name, or the one whose scope is the
innermost already, cannot open one. -/
def push? (stack : ScopeStack) (state : String) : Option ScopeStack :=
  if state = "" ∨ stack.head?.map (·.state) = some state then none
  else some ⟨⟨state, Dict.empty⟩ :: stack.frames⟩

/-- Closes the innermost scope. -/
def pop? (stack : ScopeStack) : Option (Frame × ScopeStack) :=
  match stack.frames with
  | [] => none
  | frame :: rest => some (frame, ⟨rest⟩)

/-- Closes scopes until at most `depth` are left. -/
def truncate (stack : ScopeStack) (depth : Nat) : ScopeStack :=
  ⟨stack.frames.drop (stack.depth - depth)⟩

/-- What can be read: the innermost scope that has a variable shows its value. -/
def view (stack : ScopeStack) : View := fun key =>
  stack.frames.findSome? fun frame => frame.scope.get? key

/-- The frames with the result of the run put to a value in the last one. -/
def putOutermost (value : Value) : List Frame → List Frame
  | [] => []
  | [frame] => [frame.put resultKey value]
  | frame :: rest => frame :: putOutermost value rest

/-- Puts a value in a place, if the stack has the scope for it. -/
def write (stack : ScopeStack) : Target → Value → Except Fault ScopeStack
  | .head key, value =>
    match stack.frames with
    | [] => .error (.runtime .emptyStack)
    | frame :: rest => .ok ⟨frame.put key value :: rest⟩
  | .parent key, value =>
    match stack.frames with
    | frame :: around :: rest => .ok ⟨frame :: around.put key value :: rest⟩
    | _ => .error (.runtime .noParentScope)
  | .result, value =>
    match stack.frames with
    | [] => .error (.runtime .emptyStack)
    | frames => .ok ⟨putOutermost value frames⟩

instance : Store ScopeStack where
  view := ScopeStack.view
  write := ScopeStack.write

/-- The dump of a stack, the outermost scope first. -/
def outline (stack : ScopeStack) : Outline :=
  if stack.frames.isEmpty then [⟨0, "(empty)"⟩]
  else stack.frames.reverse.flatMap fun frame =>
    ⟨0, "> state: \"" ++ frame.state ++ "\""⟩ :: frame.scope.outline.nested

end ScopeStack

end Statechart
