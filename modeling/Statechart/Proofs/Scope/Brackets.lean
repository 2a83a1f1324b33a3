import Mathlib.Data.List.Chain
import Mathlib.Data.List.Infix
import Statechart.Proofs.Writes

/-!
# `Statechart.Proofs.Scope.Brackets`: scopes that are opened and closed again

A stack of scopes changes by operations: a scope is opened, a scope is closed, or a variable is
written. An operation that cannot be performed leaves the stack as it is.

Scopes keep their numbers, counted from the outermost one, as long as the stack does not get
shorter than that. So what an operation does to a scope that is there before and after it is to
overlay the entries that are written to it (`frames_perform`), and the same holds of any number
of operations during which the scope stays (`frames_performAll`).

A `Bracket` opens a scope at first and closes it at last, and does not close it in between.
`bracket_law` says what is left of a bracket, and which stacks there can be at all. That a
bracket is closed has to be asked for, as a scope that is not opened leaves nothing to close but
the scope around it.
-/

set_option autoImplicit false

namespace Statechart

/-- Without entries nothing changes. -/
theorem Frame.map_overlaid_nil (found : Option Frame) : found.map (·.overlaid []) = found := by
  cases found <;> rfl

/-- Two rows of writes put their entries into a scope in a row. -/
theorem Write.entriesAt_append (position : Nat) (first second : List Write) :
    entriesAt position (first ++ second) = entriesAt position first ++ entriesAt position second :=
  List.filterMap_append

namespace ScopeStack

/-- What can be done to a stack. -/
inductive Operation where
  /-- A scope is opened for a state. -/
  | push (state : String)
  /-- The innermost scope is closed. -/
  | pop
  /-- A value is put in a place. -/
  | write (target : Target) (value : Value)

/-- The stack after an operation. -/
def perform (stack : ScopeStack) : Operation → ScopeStack
  | .push state => (stack.push? state).getD stack
  | .pop =>
    match stack.pop? with
    | some (_, rest) => rest
    | none => stack
  | .write target value =>
    match stack.write target value with
    | .ok after => after
    | .error _ => stack

/-- The stack after several operations. -/
def performAll (stack : ScopeStack) (operations : List Operation) : ScopeStack :=
  operations.foldl perform stack

/-- Opening a scope as it is programmed: the stack is checked first, and extended in place
then. -/
def pushInPlace (state : String) : StateM ScopeStack (Option Frame) := do
  let stack ← get
  if state = "" ∨ stack.head?.map (·.state) = some state then
    return none
  modify fun stack => ⟨⟨state, Dict.empty⟩ :: stack.frames⟩
  return (← get).head?

/-- The write that an operation makes, if it makes one. -/
def made (stack : ScopeStack) : Operation → List Write
  | .push _ | .pop => []
  | .write target value =>
    match stack.write target value with
    | .ok _ => [⟨target, value, stack.depth⟩]
    | .error _ => []

/-- The writes that operations make, in order. -/
def writes (stack : ScopeStack) : List Operation → List Write
  | [] => []
  | operation :: rest => stack.made operation ++ (stack.perform operation).writes rest

/-- Operations that follow the opening of a scope, up to those that close it. -/
structure Bracket (stack : ScopeStack) (state : String) (inner : List Operation) : Prop where
  /-- A scope is opened. -/
  opens : (stack.push? state).isSome
  /-- This scope stays. -/
  stays : ∀ before, before <+: inner →
    stack.depth + 1 ≤ (stack.performAll (.push state :: before)).depth
  /-- It is closed. -/
  closes : (stack.performAll (.push state :: inner ++ [.pop])).depth = stack.depth

/-- What is left of the writes in a bracket, when a stack is closed to what it was. -/
structure Restored (stack closed : ScopeStack) (writes : List Write) : Prop where
  /-- The states are the same. -/
  states : closed.states = stack.states
  /-- Each scope is what it was, overlaid by the writes that went there. -/
  scopes : ∀ position : Nat, closed.frames.reverse[position]?
    = (stack.frames.reverse[position]?).map (·.overlaid (Write.entriesAt position writes))
  /-- A variable only differs in the innermost scope, if it was written from the scope of the
  bracket, or in the outermost one, if it is the result of the run. -/
  exposed : ∀ (position : Nat) (before after : Frame) (key : String),
    stack.frames.reverse[position]? = some before →
    closed.frames.reverse[position]? = some after →
    after.scope.get? key ≠ before.scope.get? key →
      position + 1 = stack.depth
          ∧ (∃ write ∈ writes, write.target = .parent key ∧ write.depth = stack.depth + 1)
        ∨ position = 0 ∧ key = resultKey ∧ ∃ write ∈ writes, write.target = .result

/-- Scopes have names, and those of neighbours differ. -/
structure Proper (stack : ScopeStack) : Prop where
  /-- No state is without a name. -/
  named : "" ∉ stack.states
  /-- No two neighbours have the same state. -/
  neighbours : stack.states.IsChain (· ≠ ·)

variable {stack : ScopeStack} {operations inner : List Operation} {operation : Operation}
  {state : String} {position floor : Nat}

/-! ### One operation -/

/-- No scope is opened for a state without a name, nor for the innermost state again. -/
theorem push?_eq_none_iff :
    stack.push? state = none ↔ state = "" ∨ stack.head?.map (·.state) = some state := by
  unfold push?
  split
  · next h => exact ⟨fun _ => h, fun _ => rfl⟩
  · next h =>
    refine ⟨fun hnone => absurd hnone (Option.some_ne_none _), ?_⟩
    exact fun hrefused => absurd hrefused h

/-- In place, a scope is opened as it is opened. -/
theorem run_pushInPlace (stack : ScopeStack) (state : String) :
    (pushInPlace state).run stack
      = ((stack.push? state).bind head?, stack.perform (.push state)) := by
  simp only [pushInPlace, StateT.run_bind, StateT.run_get, pure_bind]
  by_cases h : state = "" ∨ stack.head?.map (·.state) = some state
  · rw [if_pos h]
    simp only [perform, push?_eq_none_iff.2 h]
    rfl
  · rw [if_neg h]
    simp only [perform, push?, if_neg h]
    rfl

/-- What the scopes that are there before and after an operation hold. -/
theorem frames_perform (hbefore : position < stack.depth)
    (hafter : position < (stack.perform operation).depth) :
    (stack.perform operation).frames.reverse[position]?
      = (stack.frames.reverse[position]?).map
          (·.overlaid (Write.entriesAt position (stack.made operation))) := by
  cases operation with
  | push state =>
    show _ = (stack.frames.reverse[position]?).map (·.overlaid [])
    rw [Frame.map_overlaid_nil]
    cases hpush : stack.push? state with
    | none => simp only [perform, hpush, Option.getD_none]
    | some opened =>
      obtain ⟨-, -, rfl⟩ := push?_eq_some_iff.1 hpush
      have hthere : position < stack.frames.reverse.length := by
        rw [List.length_reverse]
        exact hbefore
      simp only [perform, hpush, Option.getD_some]
      rw [List.reverse_cons, List.getElem?_append_left hthere]
  | pop =>
    show _ = (stack.frames.reverse[position]?).map (·.overlaid [])
    rw [Frame.map_overlaid_nil]
    obtain ⟨frames⟩ := stack
    cases frames with
    | nil => rfl
    | cons frame rest =>
      show rest.reverse[position]? = (frame :: rest).reverse[position]?
      have hrest : position < rest.reverse.length := by
        rw [List.length_reverse]
        exact hafter
      rw [List.reverse_cons, List.getElem?_append_left hrest]
  | write target value =>
    cases hwrite : stack.write target value with
    | ok after =>
      have hmade : stack.made (.write target value) = [⟨target, value, stack.depth⟩] := by
        simp only [made, hwrite]
      have hperform : stack.perform (.write target value) = after := by
        simp only [perform, hwrite]
      rw [hmade, hperform, frames_write hwrite, Write.entriesAt_cons, Write.entriesAt_nil,
        List.append_nil]
    | error fault =>
      simp only [made, perform, hwrite, Write.entriesAt_nil]
      rw [Frame.map_overlaid_nil]

/-- The writes of an operation are made on the stack that it finds. -/
theorem depth_of_mem_made {write : Write} (h : write ∈ stack.made operation) :
    write.depth = stack.depth := by
  cases operation with
  | push => cases h
  | pop => cases h
  | write target value =>
    simp only [made] at h
    split at h
    · rw [List.mem_singleton.1 h]
    · cases h

/-- Every operation keeps a stack proper. -/
theorem Proper.perform (hproper : stack.Proper) (operation : Operation) :
    (stack.perform operation).Proper := by
  cases operation with
  | push state =>
    cases hpush : stack.push? state with
    | none =>
      simp only [ScopeStack.perform, hpush, Option.getD_none]
      exact hproper
    | some opened =>
      obtain ⟨hname, hhead, rfl⟩ := push?_eq_some_iff.1 hpush
      simp only [ScopeStack.perform, hpush, Option.getD_some]
      -- The new name stands behind the others, and is not the last of them.
      have hstates : (ScopeStack.mk (⟨state, Dict.empty⟩ :: stack.frames)).states
          = stack.states ++ [state] := by
        simp [states]
      constructor
      · rw [hstates, List.mem_append, List.mem_singleton]
        exact not_or.2 ⟨hproper.named, Ne.symm hname⟩
      · rw [hstates, List.isChain_append]
        refine ⟨hproper.neighbours, List.isChain_singleton _, ?_⟩
        intro last hlast first hfirst heq
        cases hfirst
        exact hhead (heq ▸ hlast)
  | pop =>
    obtain ⟨frames⟩ := stack
    cases frames with
    | nil => exact hproper
    | cons frame rest =>
      have hstates : (ScopeStack.mk rest).states <+: (ScopeStack.mk (frame :: rest)).states := by
        simp [states]
      exact ⟨fun hmem => hproper.named (hstates.mem hmem), hproper.neighbours.prefix hstates⟩
  | write target value =>
    cases hwrite : stack.write target value with
    | ok after =>
      simp only [ScopeStack.perform, hwrite]
      have hstates := states_write hwrite
      exact ⟨hstates ▸ hproper.named, hstates ▸ hproper.neighbours⟩
    | error fault =>
      simp only [ScopeStack.perform, hwrite]
      exact hproper

/-! ### Several operations -/

/-- What the scopes that stay during some operations hold. -/
theorem frames_performAll
    (hstays : ∀ before, before <+: operations → position < (stack.performAll before).depth) :
    (stack.performAll operations).frames.reverse[position]?
      = (stack.frames.reverse[position]?).map
          (·.overlaid (Write.entriesAt position (stack.writes operations))) := by
  induction operations generalizing stack with
  | nil => exact (Frame.map_overlaid_nil _).symm
  | cons operation rest ih =>
    have hstart : position < stack.depth := hstays [] List.nil_prefix
    have hnext : position < (stack.perform operation).depth := hstays [operation] (by simp)
    have hrest : ∀ before, before <+: rest →
        position < ((stack.perform operation).performAll before).depth := fun before hbefore =>
      hstays (operation :: before) (List.cons_prefix_cons.2 ⟨rfl, hbefore⟩)
    show ((stack.perform operation).performAll rest).frames.reverse[position]? = _
    rw [ih hrest, frames_perform hstart hnext, Option.map_map]
    refine congrArg (fun change => Option.map change _) (funext fun frame => ?_)
    show (frame.overlaid _).overlaid _ = frame.overlaid (Write.entriesAt position (_ ++ _))
    rw [Write.entriesAt_append, Frame.overlaid_append]

/-- If so many scopes stay, then no write finds fewer. -/
theorem le_depth_of_mem_writes {write : Write}
    (hstays : ∀ before, before <+: operations → floor ≤ (stack.performAll before).depth)
    (hwrite : write ∈ stack.writes operations) : floor ≤ write.depth := by
  induction operations generalizing stack with
  | nil => cases hwrite
  | cons operation rest ih =>
    rcases List.mem_append.1 hwrite with hfirst | hlater
    · rw [depth_of_mem_made hfirst]
      exact hstays [] List.nil_prefix
    · exact ih (fun before hbefore =>
        hstays (operation :: before) (List.cons_prefix_cons.2 ⟨rfl, hbefore⟩)) hlater

/-- Whatever is done to the empty stack, it is proper. -/
theorem proper_performAll (operations : List Operation) : (empty.performAll operations).Proper := by
  have hkeep : ∀ stack : ScopeStack, stack.Proper → (stack.performAll operations).Proper := by
    induction operations with
    | nil => exact fun _ hproper => hproper
    | cons operation rest ih => exact fun stack hproper => ih _ (hproper.perform operation)
  exact hkeep empty ⟨List.not_mem_nil, List.isChain_nil⟩

/-! ### Brackets -/

/-- What the scopes around a bracket hold. -/
theorem Bracket.scopes (hbracket : stack.Bracket state inner) (position : Nat) :
    (stack.performAll (.push state :: inner ++ [.pop])).frames.reverse[position]?
      = (stack.frames.reverse[position]?).map (·.overlaid
          (Write.entriesAt position ((stack.perform (.push state)).writes inner))) := by
  obtain ⟨-, hstays, hcloses⟩ := hbracket
  have hsplit : stack.performAll (.push state :: inner ++ [.pop])
      = ((stack.perform (.push state)).performAll inner).perform .pop := by
    simp [performAll]
  rw [hsplit] at hcloses ⊢
  by_cases hposition : position < stack.depth
  · have hfloor : ∀ before, before <+: inner →
        position < ((stack.perform (.push state)).performAll before).depth := by
      intro before hbefore
      have hdepth : stack.depth + 1 ≤ ((stack.perform (.push state)).performAll before).depth :=
        hstays before hbefore
      omega
    -- The first and the last operation of the bracket write nothing.
    have hopened : position < (stack.perform (.push state)).depth := hfloor [] List.nil_prefix
    have hclosed := hcloses ▸ hposition
    have hpush := frames_perform hposition hopened
    have hinner := frames_performAll hfloor
    have hpop := frames_perform (hfloor inner List.prefix_rfl) hclosed
    simp only [made, Write.entriesAt_nil, Frame.map_overlaid_nil] at hpush hpop
    rw [hpop, hinner, hpush]
  · -- Neither stack has a scope there.
    have hbefore : stack.frames.reverse[position]? = none := by
      rw [List.getElem?_eq_none_iff, List.length_reverse]
      exact not_lt.1 hposition
    rw [hbefore, Option.map_none, List.getElem?_eq_none_iff, List.length_reverse]
    show ScopeStack.depth _ ≤ position
    omega

/-- A bracket leaves the stack as it was, up to the writes that leave the bracket. -/
theorem Bracket.restored (hbracket : stack.Bracket state inner) :
    stack.Restored (stack.performAll (.push state :: inner ++ [.pop]))
      ((stack.perform (.push state)).writes inner) := by
  have hscopes := hbracket.scopes
  refine ⟨?_, hscopes, ?_⟩
  · refine List.ext_getElem? fun position => ?_
    unfold states
    rw [← List.map_reverse, ← List.map_reverse, List.getElem?_map, List.getElem?_map,
      hscopes, Option.map_map]
    rfl
  · intro position before after key hbefore hafter hdiffers
    rw [hscopes, hbefore, Option.map_some, Option.some.injEq] at hafter
    subst hafter
    have hposition : position < stack.depth := by
      have hlength := (List.getElem?_eq_some_iff.1 hbefore).1
      rwa [List.length_reverse] at hlength
    -- If nothing was written to the variable, then it would be the same.
    obtain ⟨entry, hentry, rfl⟩ : ∃ entry ∈ Write.entriesAt position
        ((stack.perform (.push state)).writes inner), entry.1 = key := by
      by_contra hnone
      push Not at hnone
      exact hdiffers (Dict.get?_overlaid_of_forall_ne _ hnone)
    obtain ⟨write, hwrite, hplace, -⟩ := Write.exists_of_mem_entriesAt hentry
    have hdepth : stack.depth + 1 ≤ write.depth :=
      le_depth_of_mem_writes (fun before hprefix => hbracket.stays before hprefix) hwrite
    cases htarget : write.target with
    | head key =>
      -- Such a write goes to the scope of the bracket or further in.
      simp only [Write.place, htarget, Prod.mk.injEq] at hplace
      omega
    | parent key =>
      simp only [Write.place, htarget, Prod.mk.injEq] at hplace
      refine .inl ⟨by omega, write, hwrite, ?_, by omega⟩
      rw [htarget, hplace.2]
    | result =>
      simp only [Write.place, htarget, Prod.mk.injEq] at hplace
      exact .inr ⟨hplace.1.symm, hplace.2.symm, write, hwrite, htarget⟩

/-- After a bracket the stack has the scopes from before it. They hold what they held, but for
variables that were written from the scope of the bracket to the scope around it, and for the
result of the run. On a stack that operations lead to, no state is without a name, and no two
neighbours are the same. A scope is not opened if this would not be so, and then the stack is not
touched. -/
theorem bracket_law :
    (∀ (stack : ScopeStack) (state : String) (inner : List Operation), stack.Bracket state inner →
        stack.Restored (stack.performAll (.push state :: inner ++ [.pop]))
          ((stack.perform (.push state)).writes inner))
      ∧ (∀ operations, (empty.performAll operations).Proper)
      ∧ ∀ (stack : ScopeStack) (state : String),
        (((pushInPlace state).run stack).1 = none
            ↔ state = "" ∨ stack.head?.map (·.state) = some state)
          ∧ (((pushInPlace state).run stack).1 = none →
            ((pushInPlace state).run stack).2 = stack) := by
  refine ⟨fun stack state inner hbracket => hbracket.restored, proper_performAll, ?_⟩
  intro stack state
  rw [run_pushInPlace]
  have hnone : (stack.push? state).bind head? = none ↔ stack.push? state = none := by
    cases hpush : stack.push? state with
    | none => simp
    | some opened =>
      obtain ⟨-, -, rfl⟩ := push?_eq_some_iff.1 hpush
      simp [head?]
  refine ⟨hnone.trans push?_eq_none_iff, fun h => ?_⟩
  show (stack.push? state).getD stack = stack
  rw [hnone.1 h, Option.getD_none]

/-- The scope of a book in the one of a shelf. -/
def bookOnShelf : ScopeStack :=
  ⟨[⟨"book", Dict.empty.insert "title" (.str "Atlas")⟩, ⟨"shelf", Dict.empty⟩]⟩

/-- What may be done while a chapter of the book is open: a second scope for it is not opened,
the one of a section is opened and closed, and both write around themselves. -/
def reading : List Operation :=
  [.push "chapter", .write (.parent "page") (.int 3), .push "section",
    .write (.parent "line") (.int 7), .write .result (.bool true), .pop]

/-- Once the chapter is closed, the page and the result are left, and the line is not. -/
theorem bookOnShelf_reading :
    bookOnShelf.Restored (bookOnShelf.performAll (.push "chapter" :: reading ++ [.pop]))
        ((bookOnShelf.perform (.push "chapter")).writes reading)
      ∧ (bookOnShelf.performAll (.push "chapter" :: reading ++ [.pop])).view "page"
        = some (.int 3)
      ∧ (bookOnShelf.performAll (.push "chapter" :: reading ++ [.pop])).view "line" = none
      ∧ (bookOnShelf.performAll (.push "chapter" :: reading ++ [.pop])).view resultKey
        = some (.bool true) := by
  have hstays : ∀ before ∈ reading.inits,
      3 ≤ (bookOnShelf.performAll (.push "chapter" :: before)).depth := by decide
  refine ⟨bracket_law.1 bookOnShelf "chapter" reading ⟨rfl, ?_, rfl⟩, rfl, rfl, rfl⟩
  exact fun before hbefore => hstays before ((List.mem_inits before reading).2 hbefore)

end ScopeStack

end Statechart
