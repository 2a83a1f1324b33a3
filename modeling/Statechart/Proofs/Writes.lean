import Statechart.Proofs.ScopeStack
import Statechart.Proofs.Success

/-!
# `Statechart.Proofs.Writes`: what scripts write

`Script.writes` lists the writes that a script makes when it runs on a stack, in order, up to
its end or its failure. A write goes to one variable of one scope (`Write.place`), and scopes are
counted from the outermost one, as they keep these numbers when others are opened and closed.

`Script.frames_run` is the law that everything else rests on: after a script, each scope is what
it was, overlaid by the writes that went there. So a scope without writes is unchanged
(`Script.frames_run_of_forall_ne`), and a variable shows the value of the last write that went
to it (`Dict.get?_overlaid`).

An action writes its parameters first, to the innermost scope (`Action.writes_program`).
-/

set_option autoImplicit false

namespace Statechart

namespace Dict

variable {α : Type}

/-- The map with entries put in one after the other. -/
def overlaid (d : Dict α) (entries : List (String × α)) : Dict α :=
  entries.foldl (fun d entry => d.insert entry.1 entry.2) d

/-- Without entries a map stays what it is. -/
@[simp] theorem overlaid_nil (d : Dict α) : d.overlaid [] = d := rfl

/-- The first entry is put in before the others. -/
@[simp] theorem overlaid_cons (d : Dict α) (entry : String × α) (rest : List (String × α)) :
    d.overlaid (entry :: rest) = (d.insert entry.1 entry.2).overlaid rest := rfl

/-- Entries may be put in part by part. -/
theorem overlaid_append (d : Dict α) (first second : List (String × α)) :
    d.overlaid (first ++ second) = (d.overlaid first).overlaid second := by
  simp [overlaid, List.foldl_append]

/-- The last entry of a name counts. -/
theorem get?_overlaid (d : Dict α) (entries : List (String × α)) (key : String) :
    (d.overlaid entries).get? key = (entries.reverse.lookup key).or (d.get? key) := by
  induction entries generalizing d with
  | nil => rfl
  | cons entry rest ih =>
    obtain ⟨name, value⟩ := entry
    rw [overlaid_cons, ih, get?_insert, List.reverse_cons, List.lookup_append]
    by_cases h : key = name
    · subst h
      cases rest.reverse.lookup key <;> simp
    · have hbeq : (key == name) = false := by simpa using h
      simp [List.lookup_cons, h, hbeq]

/-- A name that no entry has keeps its value. -/
theorem get?_overlaid_of_forall_ne (d : Dict α) {entries : List (String × α)} {key : String}
    (h : ∀ entry ∈ entries, entry.1 ≠ key) : (d.overlaid entries).get? key = d.get? key := by
  induction entries generalizing d with
  | nil => rfl
  | cons entry rest ih =>
    obtain ⟨hfirst, hrest⟩ := List.forall_mem_cons.1 h
    rw [overlaid_cons, ih _ hrest, get?_insert_of_ne _ _ (Ne.symm hfirst)]

/-- A map is put together by its entries. -/
theorem empty_overlaid (d : Dict α) : (empty : Dict α).overlaid d.entries = d := by
  refine ext_get? fun key => ?_
  show (ofList d.entries).get? key = d.get? key
  exact get?_ofList d.nodup_keys key

end Dict

/-- The frame with variables put to values one after the other. -/
def Frame.overlaid (frame : Frame) (entries : List (String × Value)) : Frame :=
  ⟨frame.state, frame.scope.overlaid entries⟩

/-- Variables may be put to values part by part. -/
theorem Frame.overlaid_append (frame : Frame) (first second : List (String × Value)) :
    frame.overlaid (first ++ second) = (frame.overlaid first).overlaid second :=
  congrArg (Frame.mk frame.state) (Dict.overlaid_append _ _ _)

/-- A write that was made. -/
structure Write where
  /-- Where it was meant to go. -/
  target : Target
  /-- The value. -/
  value : Value
  /-- The number of scopes at that moment. -/
  depth : Nat

namespace Write

/-- The number of the scope that a write goes to, counted from the outermost one, and the
variable. -/
def place (write : Write) : Nat × String :=
  match write.target with
  | .head key => (write.depth - 1, key)
  | .parent key => (write.depth - 2, key)
  | .result => (0, resultKey)

/-- What a write puts into the scope of a number. -/
def entryAt? (position : Nat) (write : Write) : Option (String × Value) :=
  if write.place.1 = position then some (write.place.2, write.value) else none

/-- What writes put into the scope of a number, in order. -/
def entriesAt (position : Nat) (writes : List Write) : List (String × Value) :=
  writes.filterMap (entryAt? position)

/-- No writes put nothing into any scope. -/
@[simp] theorem entriesAt_nil (position : Nat) : entriesAt position [] = [] := rfl

/-- The first write puts its value in front of the others, if it goes to this scope. -/
theorem entriesAt_cons (position : Nat) (write : Write) (rest : List Write) :
    entriesAt position (write :: rest)
      = (write.entryAt? position).toList ++ entriesAt position rest := by
  unfold entriesAt
  cases h : write.entryAt? position <;> simp [h]

/-- The variables that writes to the innermost scope put to values, in order. -/
def puts (writes : List Write) : List (String × Value) :=
  writes.filterMap fun write =>
    match write.target with
    | .head key => some (key, write.value)
    | .parent _ | .result => none

/-- The innermost of several scopes holds what was put to its variables. -/
theorem entriesAt_head {writes : List Write} {depth : Nat} (hdepth : 2 ≤ depth)
    (hwrites : ∀ write ∈ writes, write.depth = depth) :
    entriesAt (depth - 1) writes = puts writes := by
  refine List.filterMap_congr fun write hwrite => ?_
  have hsame := hwrites write hwrite
  cases htarget : write.target with
  | head key => simp [entryAt?, place, htarget, hsame]
  | parent key =>
    have hne : depth - 2 ≠ depth - 1 := by omega
    simp [entryAt?, place, htarget, hsame, hne]
  | result =>
    have hne : 0 ≠ depth - 1 := by omega
    simp [entryAt?, place, htarget, hne]

/-- What is put into a scope comes from a write that goes there. -/
theorem exists_of_mem_entriesAt {position : Nat} {writes : List Write} {entry : String × Value}
    (h : entry ∈ entriesAt position writes) :
    ∃ write ∈ writes, write.place = (position, entry.1) ∧ write.value = entry.2 := by
  obtain ⟨write, hwrite, hentry⟩ := List.mem_filterMap.1 h
  refine ⟨write, hwrite, ?_⟩
  unfold entryAt? at hentry
  split at hentry
  · next hposition =>
    cases hentry
    exact ⟨Prod.ext hposition rfl, rfl⟩
  · cases hentry

end Write

/-- The variable of a place. -/
def Target.key : Target → String
  | .head key => key
  | .parent key => key
  | .result => resultKey

/-- Whether the scope of a place is the one between these frames. -/
def Target.IsBetween (inner outer : List Frame) : Target → Prop
  | .head _ => inner = []
  | .parent _ => inner.length = 1
  | .result => outer = []

namespace ScopeStack

variable {stack after : ScopeStack} {target : Target} {value : Value}

/-- On a stack with a last frame, the outermost one, the result is put there. -/
theorem putOutermost_concat (value : Value) (frames : List Frame) (last : Frame) :
    putOutermost value (frames ++ [last]) = frames ++ [last.put resultKey value] := by
  induction frames with
  | nil => rfl
  | cons frame rest ih =>
    cases rest with
    | nil => rfl
    | cons next rest => exact congrArg (frame :: ·) ih

/-- Changing one frame changes what stands at the number of frames further out. -/
theorem getElem?_reverse_change (change : Frame → Frame) (inner outer : List Frame)
    (frame : Frame) (position : Nat) :
    (inner ++ change frame :: outer).reverse[position]?
      = ((inner ++ frame :: outer).reverse[position]?).map fun other =>
          if outer.length = position then change other else other := by
  simp only [List.reverse_append, List.reverse_cons, List.append_assoc, List.singleton_append]
  -- Frames further out stand before the changed one when they are counted from outside, and frames
  -- further in stand behind it.
  rcases Nat.lt_trichotomy position outer.length with hlt | heq | hgt
  · have hout : position < outer.reverse.length := by simpa using hlt
    have hne : outer.length ≠ position := by omega
    simp [List.getElem?_append_left hout, hne]
  · subst heq
    simp
  · have hin : outer.reverse.length ≤ position := by simp; omega
    have hne : outer.length ≠ position := by omega
    obtain ⟨rest, hrest⟩ : ∃ rest, position - outer.length = rest + 1 :=
      ⟨position - outer.length - 1, by omega⟩
    simp [List.getElem?_append_right hin, hrest, hne]

/-- Writing changes one variable of one frame, and the place says which frame this is. -/
theorem exists_of_write (h : stack.write target value = .ok after) :
    ∃ inner frame outer, stack.frames = inner ++ frame :: outer
      ∧ after.frames = inner ++ frame.put target.key value :: outer
      ∧ target.IsBetween inner outer := by
  obtain ⟨frames⟩ := stack
  cases target with
  | head key =>
    cases frames with
    | nil => cases h
    | cons frame rest =>
      cases h
      exact ⟨[], frame, rest, rfl, rfl, rfl⟩
  | parent key =>
    cases frames with
    | nil => cases h
    | cons frame rest =>
      cases rest with
      | nil => cases h
      | cons around rest =>
        cases h
        exact ⟨[frame], around, rest, rfl, rfl, rfl⟩
  | result =>
    rcases List.eq_nil_or_concat frames with rfl | ⟨rest, last, rfl⟩
    · cases h
    · rw [List.concat_eq_append] at h ⊢
      have hafter : after = ⟨putOutermost value (rest ++ [last])⟩ := by
        cases rest with
        | nil =>
          cases h
          rfl
        | cons =>
          cases h
          rfl
      rw [hafter, putOutermost_concat]
      exact ⟨rest, last, [], rfl, rfl, rfl⟩

/-- What a write does to the scope of a number. -/
theorem frames_write (h : stack.write target value = .ok after) (position : Nat) :
    after.frames.reverse[position]? = (stack.frames.reverse[position]?).map fun frame =>
      frame.overlaid ((Write.mk target value stack.depth).entryAt? position).toList := by
  obtain ⟨inner, frame, outer, hbefore, hafter, hplace⟩ := exists_of_write h
  -- The number of a scope is the number of frames further out.
  have hdepth : stack.depth = inner.length + (outer.length + 1) := by
    show stack.frames.length = _
    rw [hbefore, List.length_append, List.length_cons]
  have hnumber : (Write.mk target value stack.depth).place = (outer.length, target.key) := by
    cases target with
    | head key =>
      have hinner : inner.length = 0 := congrArg List.length hplace
      refine Prod.ext ?_ rfl
      show stack.depth - 1 = outer.length
      omega
    | parent key =>
      have hinner : inner.length = 1 := hplace
      refine Prod.ext ?_ rfl
      show stack.depth - 2 = outer.length
      omega
    | result =>
      have houter : outer.length = 0 := congrArg List.length hplace
      exact Prod.ext houter.symm rfl
  have hchange : ∀ frame : Frame,
      frame.overlaid ((Write.mk target value stack.depth).entryAt? position).toList
        = if outer.length = position then frame.put target.key value else frame := by
    intro frame
    unfold Write.entryAt?
    rw [hnumber]
    split <;> rfl
  simp only [hchange]
  rw [hbefore, hafter]
  exact getElem?_reverse_change (·.put target.key value) inner outer frame position

end ScopeStack

namespace Script

/-- The writes that a script makes when it runs on a stack. -/
def writes : Script → ScopeStack → List Write
  | done, _ => []
  | fail _, _ => []
  | note _ next, stack => next.writes stack
  | look key next, stack => (next (stack.view key)).writes stack
  | write target value next, stack =>
    match stack.write target value with
    | .ok after => ⟨target, value, stack.depth⟩ :: (next (.ok ())).writes after
    | .error fault => (next (.error fault)).writes stack

/-- After a script each scope is what it was, overlaid by the writes that went there. -/
theorem frames_run (script : Script) (stack : ScopeStack) (position : Nat) :
    (script.run stack).1.frames.reverse[position]?
      = (stack.frames.reverse[position]?).map fun frame =>
          frame.overlaid (Write.entriesAt position (script.writes stack)) := by
  induction script generalizing stack with
  | done => simp [Script.run, writes, Frame.overlaid]
  | fail => simp [Script.run, writes, Frame.overlaid]
  | note line next ih => exact ih stack
  | look key next ih => exact ih _ stack
  | write target value next ih =>
    cases hwrite : stack.write target value with
    -- A write that succeeds comes first, and the rest overlays what it leaves.
    | ok after =>
      have hrun : (Script.write target value next).run stack = (next (.ok ())).run after := by
        simp only [Script.run, Store.write, hwrite]
      rw [hrun, ih, ScopeStack.frames_write hwrite, Option.map_map]
      simp only [writes, hwrite, Write.entriesAt_cons]
      refine congrArg (fun change => Option.map change _) (funext fun frame => ?_)
      exact (Frame.overlaid_append _ _ _).symm
    -- A write that fails writes nothing, and the script goes on with the fault.
    | error fault =>
      have hrun : (Script.write target value next).run stack = (next (.error fault)).run stack := by
        simp only [Script.run, Store.write, hwrite]
      rw [hrun, ih]
      simp only [writes, hwrite]

/-- All writes of a script are made on as many scopes. -/
theorem depth_of_mem_writes (script : Script) {stack : ScopeStack} {write : Write}
    (h : write ∈ script.writes stack) : write.depth = stack.depth := by
  induction script generalizing stack with
  | done => cases h
  | fail => cases h
  | note line next ih => exact ih h
  | look key next ih => exact ih _ h
  | write target value next ih =>
    cases hwrite : stack.write target value with
    | ok after =>
      simp only [writes, hwrite, List.mem_cons] at h
      rcases h with hfirst | hlater
      · rw [hfirst]
      · -- Writing opens and closes no scope.
        rw [ih _ hlater, ← ScopeStack.length_states, ScopeStack.states_write hwrite,
          ScopeStack.length_states]
    | error fault =>
      simp only [writes, hwrite] at h
      exact ih _ h

end Script

namespace Action

/-- The writes of the parameters, which go to the innermost of so many scopes. -/
def paramWrites (action : Action) (depth : Nat) : List Write :=
  action.params.entries.map fun entry => ⟨.head entry.1, entry.2, depth⟩

/-- The stack that the script of an action finds: the parameters are written. -/
def stored (action : Action) (stack : ScopeStack) : ScopeStack :=
  (Action.run ⟨action.params, .done⟩ stack).1

/-- Scripts that write entries and then go on. -/
theorem writes_foldr_put (entries : List (String × Value)) (script : Script) {stack : ScopeStack}
    (hdepth : 1 ≤ stack.depth) :
    (entries.foldr (fun entry next => Script.put (.head entry.1) entry.2 next) script).writes stack
      = entries.map (fun entry => ⟨.head entry.1, entry.2, stack.depth⟩)
        ++ script.writes ((entries.foldr
            (fun entry next => Script.put (.head entry.1) entry.2 next) .done).run stack).1 := by
  induction entries generalizing stack with
  | nil => rfl
  | cons entry rest ih =>
    obtain ⟨frames⟩ := stack
    cases frames with
    | nil => simp [ScopeStack.depth] at hdepth
    | cons frame others =>
      -- The scope that the entry is put into is still there for the rest.
      have hkeep : 1 ≤ (ScopeStack.mk (frame.put entry.1 entry.2 :: others)).depth := by
        simp [ScopeStack.depth]
      exact congrArg (_ :: ·) (ih hkeep)

/-- An action writes its parameters, and then its script writes. -/
theorem writes_program (action : Action) {stack : ScopeStack} (hdepth : 1 ≤ stack.depth) :
    action.program.writes stack
      = action.paramWrites stack.depth ++ action.script.writes (action.stored stack) :=
  writes_foldr_put action.params.entries action.script hdepth

end Action

end Statechart
