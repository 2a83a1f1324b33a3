import Mathlib.Data.List.Nodup
import Statechart.Proofs.Success
import Statechart.State

/-!
# `Statechart.Proofs.State`: well-formed states and adoption

`State.Sound` says what `State.validate` checks: a name, a start substate that is the only
way out, and ways out with names of their own and with targets. `State.adopt` leaves the
parent either as it was or as one that delegates to its new child (`State.adopting`), and
the child only gets its parent (`State.under`). A sound parent stays sound.
-/

set_option autoImplicit false

namespace Statechart

namespace State

variable {state parent child : State} {isStart : Bool}

/-- A well-formed state. -/
structure Sound (state : State) : Prop where
  /-- It has a name. -/
  named : state.name ≠ ""
  /-- The way into the start substate is the only way out. -/
  delegating : ∀ start, state.startSubstate = some start →
    ∃ only, state.transitions = [only] ∧ only.target = start
  /-- The ways out have names and targets. -/
  ways : ∀ way ∈ state.transitions, way.name ≠ "" ∧ way.target ≠ ""
  /-- The ways out have different names. -/
  distinct : (state.transitions.map (·.name)).Nodup

/-- The check of transitions that follow others with the names in `seen`. -/
theorem validateTransitions_eq_ok_iff (owner : String) (seen : List String)
    (transitions : List Transition) :
    validateTransitions owner seen transitions = .ok ()
      ↔ (∀ way ∈ transitions, way.name ≠ "" ∧ way.target ≠ "")
        ∧ (transitions.map (·.name)).Nodup ∧ ∀ way ∈ transitions, way.name ∉ seen := by
  -- The names that came before are in `seen`, which grows by one name at each step.
  induction transitions generalizing seen with
  | nil => simp [validateTransitions]
  | cons way rest ih =>
    have hway : way.validate owner = .ok () ↔ way.name ≠ "" ∧ way.target ≠ "" := by
      unfold Transition.validate
      split
      · next h => simp [h]
      · next hname =>
        split
        · next h => simp [h]
        · next htarget => simp [hname, htarget]
    rw [validateTransitions, bind_eq_ok]
    constructor
    · rintro ⟨⟨⟩, hvalid, hrest⟩
      split at hrest
      · cases hrest
      · next hfresh =>
        obtain ⟨hways, hnodup, hseen⟩ := (ih _).1 hrest
        refine ⟨?_, ?_, ?_⟩
        · exact List.forall_mem_cons.2 ⟨hway.1 hvalid, hways⟩
        · rw [List.map_cons]
          refine List.nodup_cons.2 ⟨fun hmem => ?_, hnodup⟩
          obtain ⟨other, hother, hname⟩ := List.mem_map.1 hmem
          exact hseen other hother (by simp [hname])
        · exact List.forall_mem_cons.2
            ⟨hfresh, fun other hother hmem => hseen other hother (by simp [hmem])⟩
    · rintro ⟨hways, hnodup, hseen⟩
      rw [List.map_cons] at hnodup
      obtain ⟨hname, hnodup⟩ := List.nodup_cons.1 hnodup
      have hfresh : way.name ∉ seen := hseen way (by simp)
      refine ⟨(), hway.2 (hways way (by simp)), ?_⟩
      rw [if_neg hfresh]
      refine (ih _).2 ⟨fun other hother => hways other (by simp [hother]), hnodup, ?_⟩
      intro other hother hmem
      rcases List.mem_cons.1 hmem with heq | hmem
      · exact hname (List.mem_map.2 ⟨other, hother, heq⟩)
      · exact hseen other (by simp [hother]) hmem

/-- Validation accepts exactly the well-formed states. -/
theorem validate_eq_ok_iff : state.validate = .ok () ↔ state.Sound := by
  have hdelegates : ∀ start, delegates start state.transitions = true
      ↔ ∃ only, state.transitions = [only] ∧ only.target = start := by
    intro start
    cases htransitions : state.transitions with
    | nil => simp [delegates]
    | cons only rest =>
      cases rest with
      | nil => simp [delegates]
      | cons => simp [delegates]
  -- The check looks at the name, then at the start substate, then at the ways out.
  unfold validate
  split
  · next hname =>
    simp only [reduceCtorEq, false_iff]
    exact fun h => h.named hname
  · next hname =>
    split
    · next start hstart =>
      split
      · next hd =>
        rw [validateTransitions_eq_ok_iff]
        constructor
        · rintro ⟨hways, hnodup, -⟩
          refine ⟨hname, fun other hother => ?_, hways, hnodup⟩
          rw [hstart] at hother
          cases hother
          exact (hdelegates start).1 hd
        · exact fun h => ⟨h.ways, h.distinct, by simp⟩
      · next hd =>
        simp only [reduceCtorEq, false_iff]
        exact fun h => hd ((hdelegates start).2 (h.delegating start hstart))
    · next hstart =>
      rw [validateTransitions_eq_ok_iff]
      constructor
      · rintro ⟨hways, hnodup, -⟩
        refine ⟨hname, fun other hother => ?_, hways, hnodup⟩
        rw [hstart] at hother
        cases hother
      · exact fun h => ⟨h.ways, h.distinct, by simp⟩

/-- The check of transitions reports nothing but faults of their owner. -/
theorem kind_of_validateTransitions {owner : String} {seen : List String}
    {transitions : List Transition} {fault : Fault}
    (h : validateTransitions owner seen transitions = .error fault) :
    fault.kind = .stateInvalid := by
  induction transitions generalizing seen with
  | nil => cases h
  | cons way rest ih =>
    rw [validateTransitions] at h
    rcases bind_eq_error.1 h with hway | ⟨_, -, hrest⟩
    · unfold Transition.validate at hway
      split at hway
      · cases hway
        rfl
      · split at hway
        · cases hway
          rfl
        · cases hway
    · split at hrest
      · cases hrest
        rfl
      · exact ih hrest

/-- The check of a state reports nothing but faults of a state. -/
theorem kind_of_validate {fault : Fault} (h : state.validate = .error fault) :
    fault.kind = .stateInvalid := by
  unfold validate at h
  split at h
  · cases h
    rfl
  · split at h
    · split at h
      · exact kind_of_validateTransitions h
      · cases h
        rfl
    · exact kind_of_validateTransitions h

/-- A state after it has adopted another one of the given name. -/
def adopting (parent : State) (child : String) (isStart : Bool) : State :=
  if isStart then
    { parent with
        startSubstate := some child
        transitions := [entry parent.name child] }
  else parent

/-- A state below another one. -/
def under (child : State) (parent : String) : State :=
  { child with parent := some parent }

/-- Adopting another state leaves the name of the parent alone. -/
@[simp] theorem adopting_name (parent : State) (child : String) (isStart : Bool) :
    (parent.adopting child isStart).name = parent.name := by
  cases isStart <;> rfl

/-- Adopting another state leaves alone who its own parent is. -/
@[simp] theorem adopting_parent (parent : State) (child : String) (isStart : Bool) :
    (parent.adopting child isStart).parent = parent.parent := by
  cases isStart <;> rfl

/-- A parent is not changed by a child that is no start substate. -/
@[simp] theorem adopting_false (parent : State) (child : String) :
    parent.adopting child false = parent := rfl

/-- Adoption succeeds if the child has no parent, and for a start substate if its parent
delegates to no other state and has no ways out. -/
theorem adopt_eq_ok_iff {linked : State × State} :
    parent.adopt child isStart = .ok linked
      ↔ child.parent = none
        ∧ (isStart = true → parent.startSubstate = none ∧ parent.transitions = [])
        ∧ linked = (parent.adopting child.name isStart, child.under parent.name) := by
  -- Three refusals, a start substate that is adopted, and a plain one.
  unfold adopt
  split
  · next h => simp [h]
  · next h => simp [h]
  · next h => simp [h]
  · next hchild hstart hways =>
    simp only [hchild, hstart, hways, true_and, forall_const, and_self, Except.ok.injEq]
    exact eq_comm
  · next hchild =>
    simp only [hchild, true_and, Bool.false_eq_true, false_implies, Except.ok.injEq]
    exact eq_comm

/-- The way into a start substate has a name, even if the two states have none. -/
theorem entry_name_ne_empty (parent child : String) : (entry parent child).name ≠ "" := by
  intro h
  have hlength := congrArg String.length h
  simp [entry, Transition.always] at hlength

/-- A well-formed parent stays so. -/
theorem Sound.adopting {name : String} (h : parent.Sound) (hname : name ≠ "") :
    (parent.adopting name isStart).Sound := by
  cases isStart with
  | false => exact h
  | true =>
    refine ⟨h.named, fun start hstart => ?_, ?_, ?_⟩
    · cases hstart
      exact ⟨entry parent.name name, rfl, rfl⟩
    · intro way hway
      have heq : way = entry parent.name name := List.mem_singleton.1 hway
      subst heq
      exact ⟨entry_name_ne_empty _ _, hname⟩
    · exact List.nodup_singleton _

/-- A well-formed state stays so below any parent. -/
theorem Sound.under {name : String} (h : child.Sound) : (child.under name).Sound :=
  ⟨h.named, h.delegating, h.ways, h.distinct⟩

end State

end Statechart
