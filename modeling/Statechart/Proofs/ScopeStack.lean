import Mathlib.Data.List.Nodup
import Statechart.Callback.Script
import Statechart.Scope.Stack
import Statechart.Transition.Action

/-!
# `Statechart.Proofs.ScopeStack`: the states on a stack

`ScopeStack.states` lists the states on a stack, the outermost first. Opening a scope puts
a name behind the list, closing scopes shortens it, and writing leaves it alone. So an
action, which can only read and write, never changes which states are on the stack
(`Action.states_run`).

As long as no state comes twice, a frame is found by its state. So two stacks of the same
states that agree on some of the outer ones are equal when the others are closed
(`truncate_eq_truncate`).

Writing fails only for want of a scope. With two scopes there is one for every place, and
they stay, so every write of a script succeeds (`Script.succeeding`).
-/

set_option autoImplicit false

namespace Statechart

namespace ScopeStack

variable {stack after : ScopeStack}

/-- There are as many states on a stack as scopes. -/
@[simp] theorem length_states (stack : ScopeStack) : stack.states.length = stack.depth := by
  simp [states, depth]

/-- Closing scopes leaves the outer states. If there are fewer scopes than may stay, all of them
stay. -/
theorem states_truncate (stack : ScopeStack) (depth : Nat) :
    (stack.truncate depth).states = stack.states.take depth := by
  unfold truncate states ScopeStack.depth
  -- The frames are listed innermost first, so closing scopes drops from the front.
  rw [List.map_drop, List.reverse_drop, List.length_map]
  by_cases h : depth ≤ stack.frames.length
  · rw [Nat.sub_sub_self h]
  · have hall : stack.frames.length - (stack.frames.length - depth) = stack.frames.length := by
      omega
    have hlength : (stack.frames.map (·.state)).reverse.length ≤ stack.frames.length := by simp
    rw [hall, List.take_of_length_le hlength, List.take_of_length_le (by omega)]

/-- The frames that are left, the outermost first. -/
theorem reverse_frames_truncate (stack : ScopeStack) (depth : Nat) :
    (stack.truncate depth).frames.reverse = stack.frames.reverse.take depth := by
  unfold truncate ScopeStack.depth
  rw [List.reverse_drop]
  by_cases h : depth ≤ stack.frames.length
  · rw [Nat.sub_sub_self h]
  · have hall : stack.frames.length - (stack.frames.length - depth) = stack.frames.length := by
      omega
    rw [hall, List.take_of_length_le (by simp), List.take_of_length_le (by simp; omega)]

/-- The innermost scope is that of the last state. -/
theorem map_state_head? (stack : ScopeStack) :
    stack.head?.map (·.state) = stack.states.getLast? := by
  unfold head? states
  rw [List.getLast?_reverse, List.head?_map]

/-- The outermost scope is that of the first state. -/
theorem map_state_outermost? (stack : ScopeStack) :
    stack.outermost?.map (·.state) = stack.states.head? := by
  unfold outermost? states
  rw [List.head?_reverse, List.getLast?_map]

/-- On a stack without repetitions, every frame is found by its state. -/
theorem byState?_eq_some (hnodup : stack.states.Nodup) {frame : Frame}
    (hframe : frame ∈ stack.frames) : stack.byState? frame.state = some frame := by
  have hstates : (stack.frames.map (·.state)).Nodup := List.nodup_reverse.1 hnodup
  unfold byState?
  rw [List.find?_eq_some_iff_append]
  obtain ⟨inner, outer, hsplit⟩ := List.append_of_mem hframe
  refine ⟨by simp, inner, outer, hsplit, ?_⟩
  -- A frame further in is that of another state.
  intro other hother
  rw [hsplit, List.map_append, List.map_cons] at hstates
  have hdisjoint := (List.nodup_append.1 hstates).2.2 other.state
    (List.mem_map_of_mem hother) frame.state List.mem_cons_self
  simpa using hdisjoint

/-- On a stack without repetitions, the frames that are left are found by the first states. -/
theorem map_byState?_take (hnodup : stack.states.Nodup) (depth : Nat) :
    (stack.states.take depth).map stack.byState?
      = (stack.truncate depth).frames.reverse.map some := by
  have hstates : stack.states.take depth
      = (stack.truncate depth).frames.reverse.map (·.state) := by
    rw [reverse_frames_truncate, List.map_take, List.map_reverse]
    rfl
  rw [hstates, List.map_map]
  refine List.map_congr_left fun frame hframe => ?_
  refine byState?_eq_some hnodup ?_
  rw [reverse_frames_truncate] at hframe
  exact List.mem_reverse.1 (List.mem_of_mem_take hframe)

/-- Two stacks of the same states that agree on the first ones have the same frames left. -/
theorem truncate_eq_truncate {stack' : ScopeStack} (hstates : stack.states = stack'.states)
    (hnodup : stack.states.Nodup) {depth : Nat}
    (hagree : ∀ name ∈ stack.states.take depth, stack.byState? name = stack'.byState? name) :
    stack.truncate depth = stack'.truncate depth := by
  have hnodup' : stack'.states.Nodup := by
    rw [← hstates]
    exact hnodup
  have hframes : (stack.truncate depth).frames.reverse.map some
      = (stack'.truncate depth).frames.reverse.map some := by
    rw [← map_byState?_take hnodup, ← map_byState?_take hnodup', ← hstates]
    exact List.map_congr_left hagree
  have hsame := List.map_injective_iff.2 (fun _ _ => Option.some.inj) hframes
  exact congrArg ScopeStack.mk (List.reverse_injective hsame)

/-- A scope is opened exactly for a state with a name that is not the innermost one. -/
theorem push?_eq_some_iff {name : String} :
    stack.push? name = some after
      ↔ name ≠ "" ∧ stack.states.getLast? ≠ some name
        ∧ after = ⟨⟨name, Dict.empty⟩ :: stack.frames⟩ := by
  unfold push?
  rw [map_state_head?]
  split
  · next h =>
    simp only [reduceCtorEq, false_iff]
    rintro ⟨hname, hhead, -⟩
    rcases h with h | h
    · exact hname h
    · exact hhead h
  · next h =>
    obtain ⟨hname, hhead⟩ := not_or.1 h
    rw [Option.some.injEq]
    exact ⟨fun heq => ⟨hname, hhead, heq.symm⟩, fun ⟨_, _, heq⟩ => heq.symm⟩

/-- Writing to the outermost scope changes no state on the stack. -/
theorem map_state_putOutermost (value : Value) (frames : List Frame) :
    (putOutermost value frames).map (·.state) = frames.map (·.state) := by
  induction frames with
  | nil => rfl
  | cons frame rest ih =>
    cases rest with
    | nil => rfl
    | cons next rest => exact congrArg (frame.state :: ·) ih

/-- Writing changes no state on the stack. -/
theorem states_write {target : Target} {value : Value}
    (h : stack.write target value = .ok after) : after.states = stack.states := by
  obtain ⟨frames⟩ := stack
  cases target with
  | head key =>
    cases frames with
    | nil => cases h
    | cons frame rest =>
      cases h
      rfl
  | parent key =>
    cases frames with
    | nil => cases h
    | cons frame rest =>
      cases rest with
      | nil => cases h
      | cons around rest =>
        cases h
        rfl
  | result =>
    cases frames with
    | nil => cases h
    | cons frame rest =>
      cases h
      unfold states
      rw [map_state_putOutermost]

/-- With two scopes, everything can be written everywhere, and as many scopes are left. -/
theorem exists_write (hdepth : 2 ≤ stack.depth) (target : Target) (value : Value) :
    ∃ after, stack.write target value = .ok after ∧ 2 ≤ after.depth := by
  have hkeep : ∀ after, stack.write target value = .ok after → 2 ≤ after.depth := by
    intro after hwrite
    rw [← length_states, states_write hwrite, length_states]
    exact hdepth
  suffices h : ∃ after, stack.write target value = .ok after from
    h.imp fun after hwrite => ⟨hwrite, hkeep after hwrite⟩
  obtain ⟨frames⟩ := stack
  cases frames with
  | nil => simp [depth] at hdepth
  | cons frame rest =>
    cases rest with
    | nil => simp [depth] at hdepth
    | cons around rest =>
      cases target with
      | head key => exact ⟨_, rfl⟩
      | parent key => exact ⟨_, rfl⟩
      | result => exact ⟨_, rfl⟩

end ScopeStack

/-- Every write that a script makes when it runs on a store succeeds. -/
inductive Script.Succeeding {σ : Type} [Store σ] : Script → σ → Prop where
  /-- The script has ended well. -/
  | done {store : σ} : Succeeding .done store
  /-- The script has ended with a failure of its own. -/
  | fail {store : σ} {failure : Failure} : Succeeding (.fail failure) store
  /-- A note is left. -/
  | note {store : σ} {line : String} {next : Script} (hnext : Succeeding next store) :
      Succeeding (.note line next) store
  /-- A variable is read. -/
  | look {store : σ} {key : String} {next : Option Value → Script}
      (hnext : Succeeding (next (Store.view store key)) store) :
      Succeeding (.look key next) store
  /-- A value is written. -/
  | write {store after : σ} {target : Target} {value : Value}
      {next : Except Fault Unit → Script} (hwrite : Store.write store target value = .ok after)
      (hnext : Succeeding (next (.ok ())) after) :
      Succeeding (.write target value next) store

/-- On two scopes every write of a script succeeds. -/
theorem Script.succeeding (script : Script) {stack : ScopeStack} (hdepth : 2 ≤ stack.depth) :
    script.Succeeding stack := by
  induction script generalizing stack with
  | done => exact .done
  | fail => exact .fail
  | note line next ih => exact .note (ih hdepth)
  | look key next ih => exact .look (ih _ hdepth)
  | write target value next ih =>
    obtain ⟨after, hwrite, hafter⟩ := ScopeStack.exists_write hdepth target value
    exact .write hwrite (ih _ hafter)

/-- A script changes no state on the stack. -/
theorem Script.states_run (script : Script) (stack : ScopeStack) :
    (script.run stack).1.states = stack.states := by
  induction script generalizing stack with
  | done => rfl
  | fail => rfl
  | note line next ih => exact ih stack
  | look key next ih => exact ih _ stack
  | write target value next ih =>
    unfold Script.run
    split
    · next after hafter => rw [ih, ScopeStack.states_write hafter]
    · next fault hfault => exact ih _ stack

/-- An action changes no state on the stack. -/
theorem Action.states_run (action : Action) (stack : ScopeStack) :
    (action.run stack).1.states = stack.states :=
  Script.states_run _ _

end Statechart
