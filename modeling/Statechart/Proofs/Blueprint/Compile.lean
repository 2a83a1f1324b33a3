import Statechart.Blueprint.Compile
import Statechart.Proofs.State

/-!
# `Statechart.Proofs.Blueprint.Compile`: which plans can be compiled

A guard is `Fit` if it is of a known kind and, where it compares, has a key and a scalar
literal; an action must be `Registered` unless its name is empty. A transition with such a
guard and such an action is compiled, and no other (`TransitionPlan.exists_compile_iff`). What is
reported of one that is refused says whether this is for its guard or for its action
(`TransitionPlan.compile_eq_error_cases`).

The transitions of a state come out in the order of their names with the targets that are
planned for them (`StatePlan.ends_of_compile`).
-/

set_option autoImplicit false

namespace Statechart

variable {registry : Registry} {name state : String} {ways : List Transition}

/-- A truth value, a number or a string. -/
def Json.IsScalar : Json → Prop
  | .bool _ | .int _ | .float _ | .str _ => True
  | .null | .arr _ | .obj _ => False

/-- A scalar is what a guard can compare with. -/
theorem Value.isSome_scalar?_iff (literal : Json) :
    (Value.scalar? literal).isSome ↔ literal.IsScalar := by
  cases literal with
  | int value => by_cases h : value < intBound <;> simp [scalar?, Json.IsScalar, h]
  | _ => simp [scalar?, Json.IsScalar]

/-- A name that is left out or empty names nothing. -/
theorem nonEmpty?_eq_some_iff {given : Option String} :
    nonEmpty? given = some name ↔ given = some name ∧ name ≠ "" := by
  cases given with
  | none => simp [nonEmpty?]
  | some other =>
    by_cases h : other = ""
    · subst h
      simp only [nonEmpty?, Option.filter_some, ne_eq, not_true_eq_false, decide_false,
        Bool.false_eq_true, if_false, reduceCtorEq, Option.some.injEq, false_iff, not_and,
        not_not]
      exact fun h => h.symm
    · simp only [nonEmpty?, Option.filter_some, ne_eq, h, not_false_eq_true, decide_true,
        if_true, Option.some.injEq]
      exact ⟨fun heq => ⟨heq, heq ▸ h⟩, fun heq => heq.1⟩

/-- A guard of a known kind; one that compares has a key and a scalar literal. -/
def GuardPlan.Fit (plan : GuardPlan) : Prop :=
  plan.kind = "" ∨ plan.kind = "always"
    ∨ plan.kind = "context" ∧ (∃ key, plan.key = some key ∧ key ≠ "")
      ∧ ∃ literal, plan.value = some literal ∧ literal.IsScalar

/-- A guard compiles if it is fit. Of one that is always open nothing else is asked. -/
theorem GuardPlan.exists_compile_iff {plan : GuardPlan} :
    (∃ guard, plan.compile = .ok guard) ↔ plan.Fit := by
  unfold GuardPlan.compile GuardPlan.Fit
  by_cases halways : plan.kind = "" ∨ plan.kind = "always"
  · rw [if_pos halways, ← or_assoc]
    exact ⟨fun _ => Or.inl halways, fun _ => ⟨_, rfl⟩⟩
  · rw [if_neg halways, ← or_assoc, or_iff_right halways]
    -- The key and then the literal have to be there, and the literal has to be a scalar.
    by_cases hcontext : plan.kind = "context"
    · simp only [hcontext, if_true, true_and, ← nonEmpty?_eq_some_iff]
      cases hkey : nonEmpty? plan.key with
      | none => simp
      | some key =>
        cases hvalue : plan.value with
        | none => simp
        | some literal =>
          simp only [Option.some.injEq, exists_eq', exists_eq_left', true_and,
            ← Value.isSome_scalar?_iff]
          cases Value.scalar? literal <;> simp
    · simp [hcontext]

/-- A guard that is refused is not fit. -/
theorem GuardPlan.not_fit_of_compile {plan : GuardPlan} {cause : LoadFault}
    (h : plan.compile = .error cause) : ¬ plan.Fit := by
  intro hfit
  obtain ⟨guard, hguard⟩ := GuardPlan.exists_compile_iff.2 hfit
  rw [h] at hguard
  cases hguard

/-- The action is registered, unless its name is empty. -/
def ActionPlan.Registered (plan : ActionPlan) (registry : Registry) : Prop :=
  plan.name ≠ "" → registry.contains plan.name

/-- An action compiles if the registry has its name; one without a name compiles to no action. -/
theorem ActionPlan.exists_compile_iff {plan : ActionPlan} {transition : String} :
    (∃ action, plan.compile registry state transition = .ok action)
      ↔ plan.Registered registry := by
  unfold ActionPlan.compile ActionPlan.Registered
  by_cases hname : plan.name = ""
  · simp [hname]
  · have hcontains : registry.contains plan.name = (registry.get? plan.name).isSome := rfl
    rw [if_neg hname, hcontains]
    cases registry.get? plan.name with
    | none => simp [hname]
    | some script => simp

/-- An action is refused because its name is not registered. -/
theorem ActionPlan.compile_eq_error {plan : ActionPlan} {transition : String} {cause : LoadFault}
    (h : plan.compile registry state transition = .error cause) :
    ¬ plan.Registered registry ∧ cause = .actionNotFound plan.name registry.names := by
  constructor
  · intro hregistered
    obtain ⟨action, haction⟩ := ActionPlan.exists_compile_iff.2 hregistered
    rw [h] at haction
    cases haction
  · unfold ActionPlan.compile at h
    split at h
    · cases h
    · split at h
      · cases h
        rfl
      · cases h

/-- A transition with a guard and an action that can be compiled. -/
structure TransitionPlan.Fit (plan : TransitionPlan) (registry : Registry) : Prop where
  /-- The guard can be compiled. -/
  guard : plan.guard.Fit
  /-- The action, if there is one, can be compiled. -/
  action : ∀ action, plan.action = some action → action.Registered registry

/-- A compiled transition is made of the compiled guard and the compiled action. -/
theorem TransitionPlan.compile_eq_ok_iff {plan : TransitionPlan} {way : Transition} :
    plan.compile registry state name = .ok way
      ↔ ∃ guard action, plan.guard.compile = .ok guard
        ∧ (match plan.action with
          | none => action = none
          | some planned => planned.compile registry state name = .ok action)
        ∧ way = ⟨name, plan.target, guard, action⟩ := by
  unfold TransitionPlan.compile
  rw [bind_eq_ok]
  simp only [mapError_eq_ok]
  constructor
  · rintro ⟨guard, hguard, hrest⟩
    cases hplanned : plan.action with
    | none =>
      rw [hplanned] at hrest
      cases hrest
      exact ⟨guard, none, hguard, rfl, rfl⟩
    | some planned =>
      rw [hplanned] at hrest
      obtain ⟨action, haction, hway⟩ := bind_eq_ok.1 hrest
      cases hway
      exact ⟨guard, action, hguard, haction, rfl⟩
  · rintro ⟨guard, action, hguard, haction, rfl⟩
    refine ⟨guard, hguard, ?_⟩
    cases hplanned : plan.action with
    | none =>
      rw [hplanned] at haction
      rw [haction]
      rfl
    | some planned =>
      rw [hplanned] at haction
      exact bind_eq_ok.2 ⟨action, haction, rfl⟩

/-- A transition compiles if its guard and its action do. -/
theorem TransitionPlan.exists_compile_iff {plan : TransitionPlan} :
    (∃ way, plan.compile registry state name = .ok way) ↔ plan.Fit registry := by
  simp only [TransitionPlan.compile_eq_ok_iff]
  constructor
  · rintro ⟨-, guard, action, hguard, haction, -⟩
    refine ⟨GuardPlan.exists_compile_iff.1 ⟨guard, hguard⟩, fun planned hplanned => ?_⟩
    rw [hplanned] at haction
    exact ActionPlan.exists_compile_iff.1 ⟨action, haction⟩
  · rintro ⟨hguard, haction⟩
    obtain ⟨guard, hguard⟩ := GuardPlan.exists_compile_iff.2 hguard
    cases hplanned : plan.action with
    | none => exact ⟨_, guard, none, hguard, rfl, rfl⟩
    | some planned =>
      obtain ⟨action, hcompiled⟩ : ∃ action, planned.compile registry state name = .ok action :=
        ActionPlan.exists_compile_iff.2 (haction planned hplanned)
      exact ⟨_, guard, action, hguard, hcompiled, rfl⟩

/-- A transition is refused for its guard, which is compiled first, or for its action. -/
theorem TransitionPlan.compile_eq_error_cases {plan : TransitionPlan} {cause : LoadFault}
    (h : plan.compile registry state name = .error cause) :
    (∃ flaw, plan.guard.compile = .error flaw ∧ cause = .inTransition name flaw)
      ∨ ∃ action, plan.action = some action ∧ ¬ action.Registered registry
        ∧ cause = .actionNotFound action.name registry.names := by
  unfold TransitionPlan.compile at h
  rcases bind_eq_error.1 h with hguard | ⟨guard, -, hrest⟩
  · -- The guard comes first; once it is compiled, only the name of the action can be wrong.
    obtain ⟨flaw, hflaw, rfl⟩ := mapError_eq_error.1 hguard
    exact Or.inl ⟨flaw, hflaw, rfl⟩
  · cases hplanned : plan.action with
    | none =>
      rw [hplanned] at hrest
      cases hrest
    | some planned =>
      rw [hplanned] at hrest
      rcases bind_eq_error.1 hrest with haction | ⟨action, -, hpure⟩
      · obtain ⟨hunknown, hcause⟩ := ActionPlan.compile_eq_error haction
        exact Or.inr ⟨planned, rfl, hunknown, hcause⟩
      · cases hpure

namespace StatePlan

variable {plan : StatePlan}

/-- The transitions of a state are compiled if each of them is. -/
theorem exists_compile_iff :
    (∃ ways, plan.compile registry name = .ok ways)
      ↔ ∀ way transition, plan.transitions.get? way = some transition →
        transition.Fit registry := by
  unfold compile
  simp only [mapError_eq_ok, exists_mapM_iff, TransitionPlan.exists_compile_iff]
  constructor
  · exact fun h way transition hget =>
      h (way, transition) ((Dict.mem_entries _ _ _).2 hget)
  · exact fun h entry hmem => h entry.1 entry.2 ((Dict.mem_entries _ _ _).1 hmem)

/-- The transitions of a state are refused for one of them. -/
theorem exists_of_compile_eq_error {cause : LoadFault}
    (h : plan.compile registry name = .error cause) :
    ∃ key transition flaw, plan.transitions.get? key = some transition
      ∧ transition.compile registry name key = .error flaw ∧ cause = .inState name flaw := by
  obtain ⟨flaw, hflaw, rfl⟩ := mapError_eq_error.1 h
  obtain ⟨⟨key, transition⟩, hmem, herror⟩ := exists_of_mapM_eq_error hflaw
  exact ⟨key, transition, flaw, (Dict.mem_entries _ _ _).1 hmem, herror, rfl⟩

/-- The compiled transitions have the names and targets of the planned ones, in the order of
the names. -/
theorem ends_of_compile (h : plan.compile registry name = .ok ways) :
    ways.map (fun way => (way.name, way.target))
      = plan.transitions.entries.map fun entry => (entry.1, entry.2.target) := by
  have hall := mapM_eq_ok.1 (mapError_eq_ok.1 h)
  -- The two lists are compared entry by entry.
  generalize plan.transitions.entries = entries at hall
  clear h
  induction hall with
  | nil => rfl
  | cons hway _ ih =>
    obtain ⟨guard, action, -, -, rfl⟩ := TransitionPlan.compile_eq_ok_iff.1 hway
    rw [List.map_cons, List.map_cons, ih]

/-- A compiled transition is planned under its name, with its target. -/
theorem exists_plan_of_mem (h : plan.compile registry name = .ok ways) {way : Transition}
    (hway : way ∈ ways) :
    ∃ transition, plan.transitions.get? way.name = some transition
      ∧ transition.target = way.target := by
  have hmem : (way.name, way.target) ∈ ways.map (fun way => (way.name, way.target)) :=
    List.mem_map.2 ⟨way, hway, rfl⟩
  rw [ends_of_compile h] at hmem
  obtain ⟨⟨key, transition⟩, hentry, hends⟩ := List.mem_map.1 hmem
  obtain ⟨hname, htarget⟩ := Prod.mk.inj hends
  refine ⟨transition, ?_, htarget⟩
  rw [← hname]
  exact (Dict.mem_entries _ _ _).1 hentry

/-- A planned transition is compiled under its name, with its target. -/
theorem exists_mem_of_plan (h : plan.compile registry name = .ok ways) {key : String}
    {transition : TransitionPlan} (hget : plan.transitions.get? key = some transition) :
    ∃ way ∈ ways, way.name = key ∧ way.target = transition.target := by
  have hmem : (key, transition.target)
      ∈ plan.transitions.entries.map fun entry => (entry.1, entry.2.target) :=
    List.mem_map.2 ⟨(key, transition), (Dict.mem_entries _ _ _).2 hget, rfl⟩
  rw [← ends_of_compile h] at hmem
  obtain ⟨way, hway, hends⟩ := List.mem_map.1 hmem
  exact ⟨way, hway, (Prod.mk.inj hends).1, (Prod.mk.inj hends).2⟩

/-- The compiled transitions have different names. -/
theorem nodup_of_compile (h : plan.compile registry name = .ok ways) :
    (ways.map (·.name)).Nodup := by
  -- The names are the keys of a table, which has each of them once.
  have hnames : ways.map (·.name) = plan.transitions.keys := by
    have hends := congrArg (List.map Prod.fst) (ends_of_compile h)
    simpa [List.map_map, Function.comp_def, Dict.keys] using hends
  rw [hnames]
  exact plan.transitions.nodup_keys

/-- The ways out of a state that does not delegate; one that does has none. -/
def ownWays (plan : StatePlan) (registry : Registry) (name : String) :
    Except Fault (List Transition) :=
  if plan.startName?.isSome then pure [] else (plan.compile registry name).mapError .load

/-- The own ways out are compiled, unless the state delegates. -/
theorem ownWays_eq_ok_iff :
    plan.ownWays registry name = .ok ways
      ↔ if plan.startName?.isSome then ways = [] else plan.compile registry name = .ok ways := by
  unfold ownWays
  split
  · exact ⟨fun h => by cases h; rfl, fun h => by rw [h]; rfl⟩
  · exact mapError_eq_ok

end StatePlan

end Statechart
