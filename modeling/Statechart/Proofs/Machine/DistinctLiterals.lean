import Statechart.Proofs.Machine.Callbacks
import Statechart.Proofs.Machine.Causes
import Statechart.Proofs.Scope.ReadThrough

/-!
# `Statechart.Proofs.Machine.DistinctLiterals`: states that branch on one variable

A state may compare one variable with a literal in each of its guards. If the literals are truth
values and strings, and all of them are different (`State.BranchesOn`), then the value that the
variable shows decides which transition is open.

* `Value.beq_iff_eq_of_discrete`: such a literal is matched by itself only. For numbers this is
  not so: an integer and a float can match the same literals.
* `Decided`: what the guards answer if the variable shows a value. None of them fails, whatever
  the type of the value is, since only numbers are converted.
* `Aligned.allClosed_iff`, `Aligned.several_of_severalOpen`, `Aligned.result_of_failsFirst`: how
  the answer of a step shows what the guards answered.
* `branching_law`: what a step of a running machine comes to from such a state. Its chart is
  consistent, or it would not run, so nothing but the variable matters to the choice.
-/

set_option autoImplicit false

namespace Statechart

/-- A truth value or a string. -/
def Value.Discrete (value : Value) : Prop :=
  value.type = .bool ∨ value.type = .str

/-- A state all of whose guards compare one variable with different truth values and strings. -/
structure State.BranchesOn (state : State) (key : String) (literals : List Value) : Prop where
  /-- The guards, in the order of the transitions. -/
  guards : state.transitions.map (·.guard) = literals.map (Guard.contextEquals key)
  /-- The literals are truth values and strings. -/
  discrete : ∀ literal ∈ literals, literal.Discrete
  /-- No literal comes twice. -/
  distinct : literals.Nodup

/-! ### Guards -/

/-- A truth value or a string is equal to itself and to no other value. -/
theorem Value.beq_iff_eq_of_discrete {stored literal : Value} (hdiscrete : literal.Discrete) :
    (stored == literal) = true ↔ stored = literal := by
  show stored.equals literal = true ↔ _
  cases literal with
  | bool => cases stored <;> simp [equals]
  | str => cases stored <;> simp [equals]
  | int => simp [Discrete, type] at hdiscrete
  | float => simp [Discrete, type] at hdiscrete
  | payload => simp [Discrete, type] at hdiscrete

namespace Guard

variable {view : View} {key : String} {literal value : Value}

/-- A value of any type can be compared with a truth value or a string. -/
theorem check_of_shown (hview : view key = some value) (hdiscrete : literal.Discrete) :
    ((contextEquals key literal).check view).result = .ok (value == literal) := by
  -- Only numbers are converted before they are compared.
  have hplain : literal.isNumeric = false := by
    cases literal with
    | int => simp [Value.Discrete, Value.type] at hdiscrete
    | float => simp [Value.Discrete, Value.type] at hdiscrete
    | _ => rfl
  have hcompare : compare view key literal = .ok (value == literal) := by
    simp only [compare, View.raw, hview, hplain]
    rfl
  simp only [check, hcompare]
  rfl

/-- A variable that does not exist cannot be compared. -/
theorem check_of_absent (hview : view key = none) :
    ((contextEquals key literal).check view).result = .error (.fault (.keyNotFound key)) := by
  have hcompare : compare view key literal = .error (.keyNotFound key) := by
    simp only [compare, View.raw, hview]
    rfl
  simp only [check, hcompare]
  rfl

end Guard

namespace State.BranchesOn

variable {state : State} {key : String} {literals : List Value} {way : Transition}
  {literal : Value}

/-- Each transition has a literal. -/
theorem exists_literal (h : state.BranchesOn key literals) (hway : way ∈ state.transitions) :
    ∃ literal ∈ literals, literal.Discrete ∧ way.guard = .contextEquals key literal := by
  have hguard : way.guard ∈ state.transitions.map (·.guard) := List.mem_map_of_mem hway
  rw [h.guards] at hguard
  obtain ⟨literal, hliteral, heq⟩ := List.mem_map.1 hguard
  exact ⟨literal, hliteral, h.discrete literal hliteral, heq.symm⟩

/-- Each literal has a transition. -/
theorem exists_way (h : state.BranchesOn key literals) (hliteral : literal ∈ literals) :
    ∃ way ∈ state.transitions, way.guard = .contextEquals key literal := by
  have hguard : Guard.contextEquals key literal ∈ literals.map (Guard.contextEquals key) :=
    List.mem_map_of_mem hliteral
  rw [← h.guards] at hguard
  exact List.mem_map.1 hguard

/-- The guards are different. -/
theorem nodup_guards (h : state.BranchesOn key literals) :
    (state.transitions.map (·.guard)).Nodup := by
  rw [h.guards]
  refine h.distinct.map ?_
  intro first second heq
  exact (Guard.contextEquals.inj heq).2

end State.BranchesOn

namespace Machine

variable {chart : Chart} {config : Config} {machine : Machine} {state : State} {key : String}
  {literals : List Value} {value : Value} {way : Transition}

/-- What comes of a value of the variable that a state branches on. -/
structure Decided (machine : Machine) (state : State) (key : String) (literals : List Value)
    (value : Value) : Prop where
  /-- No guard fails. -/
  answered : machine.Answered state.transitions
  /-- The value is the literal of a transition that is open, and of no other one. -/
  opens : ∀ way ∈ state.transitions,
    machine.opens way = true ↔ way.guard = .contextEquals key value
  /-- If it is the literal of a transition, then this is the one that is open. -/
  only : value ∈ literals → ∃ way ∈ state.transitions,
    way.guard = .contextEquals key value ∧ state.transitions.filter machine.opens = [way]
  /-- If not, then none is open. -/
  none : value ∉ literals → state.transitions.filter machine.opens = []

/-- If the open transitions are those with one guard, and guards are different, then one is
open. -/
theorem filter_opens_eq_singleton {transitions : List Transition}
    (hdistinct : (transitions.map (·.guard)).Nodup) (hway : way ∈ transitions)
    (hopens : ∀ other ∈ transitions, machine.opens other = true ↔ other.guard = way.guard) :
    transitions.filter machine.opens = [way] := by
  obtain ⟨before, after, rfl⟩ := List.append_of_mem hway
  rw [List.map_append, List.map_cons, List.nodup_append] at hdistinct
  obtain ⟨-, hafter, hbefore⟩ := hdistinct
  -- Every other transition has another guard.
  have hfirst : before.filter machine.opens = [] := by
    refine List.filter_eq_nil_iff.2 fun other hother hopen => ?_
    refine hbefore other.guard (List.mem_map_of_mem hother) way.guard List.mem_cons_self ?_
    exact (hopens other (by simp [hother])).1 hopen
  have hlast : after.filter machine.opens = [] := by
    refine List.filter_eq_nil_iff.2 fun other hother hopen => ?_
    refine (List.nodup_cons.1 hafter).1 ?_
    rw [← (hopens other (by simp [hother])).1 hopen]
    exact List.mem_map_of_mem hother
  rw [List.filter_append, hfirst, List.filter_cons_of_pos ((hopens way hway).2 rfl), hlast,
    List.nil_append]

/-- The value that the variable shows decides which transition is open. -/
theorem decided (hbranches : state.BranchesOn key literals)
    (hview : machine.stack.view key = some value) : machine.Decided state key literals value := by
  have hopens : ∀ way ∈ state.transitions,
      machine.opens way = true ↔ way.guard = .contextEquals key value := by
    intro way hway
    obtain ⟨literal, -, hdiscrete, hguard⟩ := hbranches.exists_literal hway
    have hopen : machine.opens way = (value == literal) := by
      simp only [Machine.opens, hguard, Guard.check_of_shown hview hdiscrete]
    rw [hopen, Value.beq_iff_eq_of_discrete hdiscrete, hguard, Guard.contextEquals.injEq]
    exact ⟨fun heq => ⟨rfl, heq.symm⟩, fun heq => heq.2.symm⟩
  refine ⟨?_, hopens, ?_, ?_⟩
  · intro way hway
    obtain ⟨literal, -, hdiscrete, hguard⟩ := hbranches.exists_literal hway
    exact ⟨_, hguard ▸ Guard.check_of_shown hview hdiscrete⟩
  · intro hliteral
    obtain ⟨way, hway, hguard⟩ := hbranches.exists_way hliteral
    refine ⟨way, hway, hguard, filter_opens_eq_singleton hbranches.nodup_guards hway ?_⟩
    rw [hguard]
    exact hopens
  · -- An open transition would have the value as its literal.
    intro hother
    refine List.filter_eq_nil_iff.2 fun way hway hopen => hother ?_
    obtain ⟨literal, hliteral, -, hguard⟩ := hbranches.exists_literal hway
    rw [(hopens way hway).1 hopen, Guard.contextEquals.injEq] at hguard
    exact hguard.2 ▸ hliteral

/-- Without the variable the first guard fails. -/
theorem failsFirst_of_absent (hbranches : state.BranchesOn key literals)
    (hview : machine.stack.view key = none) (hways : ∃ way, way ∈ state.transitions) :
    ∃ way, machine.FailsFirst state.transitions [] way (.fault (.keyNotFound key)) := by
  cases htransitions : state.transitions with
  | nil => simp [htransitions] at hways
  | cons way rest =>
    have hway : way ∈ state.transitions := by simp [htransitions]
    obtain ⟨literal, -, -, hguard⟩ := hbranches.exists_literal hway
    exact ⟨way, ⟨rest, rfl⟩, by simp [Answered], hguard ▸ Guard.check_of_absent hview⟩

/-- Where no guard fails, at most one transition is open. -/
theorem length_filter_opens_le_one (hbranches : state.BranchesOn key literals)
    (hanswered : machine.Answered state.transitions) :
    (state.transitions.filter machine.opens).length ≤ 1 := by
  cases hview : machine.stack.view key with
  | none =>
    -- The first guard would fail, so there is none.
    by_cases hways : ∃ way, way ∈ state.transitions
    · obtain ⟨way, ⟨after, hsplit⟩, -, hfails⟩ := failsFirst_of_absent hbranches hview hways
      obtain ⟨isOpen, hopen⟩ := hanswered way (by simp [hsplit])
      rw [hfails] at hopen
      cases hopen
    · have hnone : state.transitions = [] := by
        rw [List.eq_nil_iff_forall_not_mem]
        exact not_exists.1 hways
      simp [hnone]
  | some value =>
    -- A value opens the transition of its literal, or none.
    have hdecided := decided hbranches hview
    by_cases hliteral : value ∈ literals
    · obtain ⟨way, -, -, honly⟩ := hdecided.only hliteral
      simp [honly]
    · simp [hdecided.none hliteral]

/-- No transition is open exactly if the value is not a literal. -/
theorem Decided.filter_opens_eq_nil_iff (h : machine.Decided state key literals value) :
    state.transitions.filter machine.opens = [] ↔ value ∉ literals := by
  refine ⟨fun hnone hliteral => ?_, h.none⟩
  obtain ⟨way, -, -, honly⟩ := h.only hliteral
  rw [hnone] at honly
  cases honly

/-! ### Steps -/

namespace Aligned

/-- A step of a running machine fails because all transitions are closed exactly if this is what
the guards answer. -/
theorem allClosed_iff (haligned : machine.Aligned) (hchecked : machine.Checked)
    (hrunning : machine.status = .running) (hcurrent : machine.current? = some state)
    (source : String) :
    machine.advance.result = .error (.runtime (.allClosed source))
      ↔ source = state.name ∧ machine.Answered state.transitions
        ∧ state.transitions.filter machine.opens = [] := by
  constructor
  · intro hclosed
    cases (haligned.stops_advance hchecked (isActive_iff.2 (Or.inr hrunning)) hclosed).1 with
    | invalid hidle => simp [hrunning] at hidle
    | closed hcurrent' hanswered hnone =>
      cases hcurrent.symm.trans hcurrent'
      exact ⟨rfl, hanswered, hnone⟩
  · rintro ⟨rfl, hanswered, hnone⟩
    rw [haligned.advance_eq_leave hcurrent (Or.inl hrunning)]
    unfold leave
    rw [askGuards_eq_ok hanswered, hnone]
    rfl

/-- A step of a running machine fails for several open transitions only if there are several. -/
theorem several_of_severalOpen (haligned : machine.Aligned) (hchecked : machine.Checked)
    (hrunning : machine.status = .running) (hcurrent : machine.current? = some state)
    {source : String} {names : List String}
    (hseveral : machine.advance.result = .error (.runtime (.severalOpen source names))) :
    machine.Answered state.transitions
      ∧ 1 < (state.transitions.filter machine.opens).length := by
  cases (haligned.stops_advance hchecked (isActive_iff.2 (Or.inr hrunning)) hseveral).1 with
  | invalid hidle => simp [hrunning] at hidle
  | several hcurrent' hanswered hmore =>
    cases hcurrent.symm.trans hcurrent'
    exact ⟨hanswered, hmore⟩

/-- A step of a running machine answers with the first failure of a guard. -/
theorem result_of_failsFirst (haligned : machine.Aligned) (hrunning : machine.status = .running)
    (hcurrent : machine.current? = some state) {before : List Transition} {failure : Failure}
    (hfirst : machine.FailsFirst state.transitions before way failure) :
    machine.advance.result = .error (.callbackFailed .guard failure) := by
  rw [haligned.advance_eq_leave hcurrent (Or.inl hrunning)]
  unfold leave
  rw [askGuards_eq_error hfirst]
  rfl

end Aligned

/-- Take a machine that is running on a built chart, and whose active state compares one variable
with different truth values and strings. Its next step never finds several open transitions. If
the variable shows a value, of whatever type, then no guard fails, the transition whose literal is
the value is the open one, and the step fails because all are closed exactly if there is no such
transition. If no scope has the variable, then the step fails because a guard did not find it. -/
theorem branching_law (hbuilt : chart.Built) (hreached : Reached chart config machine)
    (hrunning : machine.status = .running) (hcurrent : machine.current? = some state)
    (hbranches : state.BranchesOn key literals) :
    (∀ source names, machine.advance.result ≠ .error (.runtime (.severalOpen source names)))
      ∧ (∀ value, machine.stack.Shows key value →
        machine.Decided state key literals value
          ∧ ∀ source, machine.advance.result = .error (.runtime (.allClosed source))
            ↔ source = state.name ∧ value ∉ literals)
      ∧ ((∀ frame ∈ machine.stack.frames, frame.scope.get? key = none) →
        machine.advance.result
          = .error (.callbackFailed .guard (.fault (.keyNotFound key)))) := by
  obtain ⟨rfl, haligned⟩ := hreached.aligned hbuilt.tree
  have hchecked := hreached.checked hbuilt.tree
  refine ⟨?_, ?_, ?_⟩
  · intro source names hseveral
    obtain ⟨hanswered, hmore⟩ :=
      haligned.several_of_severalOpen hchecked hrunning hcurrent hseveral
    exact absurd hmore (not_lt.2 (length_filter_opens_le_one hbranches hanswered))
  · intro value hshows
    have hdecided := decided hbranches (ScopeStack.view_eq_some_iff.2 hshows)
    refine ⟨hdecided, fun source => ?_⟩
    rw [haligned.allClosed_iff hchecked hrunning hcurrent, hdecided.filter_opens_eq_nil_iff]
    exact and_congr_right fun _ => and_iff_right hdecided.answered
  · intro habsent
    have hview : machine.stack.view key = none := List.findSome?_eq_none_iff.2 habsent
    obtain ⟨way, hfirst⟩ :=
      failsFirst_of_absent hbranches hview (exists_way_of_running hrunning hcurrent)
    exact haligned.result_of_failsFirst hrunning hcurrent hfirst

/-- A switch with two settings, one for a text and one for a truth value. -/
def settings : State :=
  State.new "switch" [⟨"dim", "night", .contextEquals "mode" (.str "true"), none⟩,
    ⟨"full", "day", .contextEquals "mode" (.bool true), none⟩]

/-- A lamp that is plugged in first, which sets the switch. -/
def lamp : Chart :=
  [Chart.Addition.start (State.new "plug" [.always "on" "switch"
      (some ⟨Dict.empty.insert "mode" (.bool true), .done⟩)]) none,
    .plain settings none, .plain (State.new "night" []) none,
    .plain (State.new "day" []) none].foldl Chart.perform Chart.new

/-- The switch is set to a truth value, so the text with the same letters does not match. -/
theorem lamp_branching :
    ∃ machine, Reached lamp {} machine
      ∧ machine.Decided (settings.under rootName) "mode" [.str "true", .bool true] (.bool true)
      ∧ ∀ source, machine.advance.result ≠ .error (.runtime (.allClosed source)) := by
  have hreached : Reached lamp {} (Machine.new lamp {}).advance.machine.advance.machine :=
    .advance (.advance .new)
  have hcurrent : (Machine.new lamp {}).advance.machine.advance.machine.current?
      = some (settings.under rootName) := rfl
  have hbranches : (settings.under rootName).BranchesOn "mode" [.str "true", .bool true] :=
    ⟨rfl, by simp [Value.Discrete, Value.type], by simp⟩
  obtain ⟨-, hshown, -⟩ :=
    branching_law (Or.inl ⟨_, rfl⟩) hreached (by decide) hcurrent hbranches
  obtain ⟨hdecided, hclosed⟩ := hshown (.bool true) ⟨[], _, _, rfl, rfl, by simp⟩
  refine ⟨_, hreached, hdecided, fun source hresult => ?_⟩
  exact ((hclosed source).1 hresult).2 (by simp)

end Machine

end Statechart
