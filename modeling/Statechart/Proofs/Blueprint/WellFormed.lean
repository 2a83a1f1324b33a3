import Mathlib.Logic.Relation
import Statechart.Chart.Basic
import Statechart.Proofs.Blueprint.Compile
import Statechart.Proofs.Blueprint.Layout
import Statechart.Proofs.Blueprint.Links

/-!
# `Statechart.Proofs.Blueprint.WellFormed`: blueprints that describe charts

`Blueprint.WellFormed` lists what a blueprint and a registry need so that the declared states
make up one hierarchy: the states can be linked without a cycle, one of them is the start
state, guards and actions can be compiled, and all names are in order. A well-formed
blueprint may still declare states that nothing leads to; in a `Referenced` one there are
none.

`Blueprint.layout` is the hierarchy that a blueprint describes. The states on top have no
parent in it.
-/

set_option autoImplicit false

namespace Statechart

namespace Blueprint

variable {blueprint : Blueprint} {registry : Registry} {name other : String} {plan : StatePlan}

/-- A declared state is marked as start state. -/
def Starts (blueprint : Blueprint) (name : String) : Prop :=
  ∃ plan, blueprint.states.get? name = some plan ∧ plan.start

/-- Whether a declared state is marked as start state is read off its plan. -/
theorem starts_iff (hget : blueprint.states.get? name = some plan) :
    blueprint.Starts name ↔ plan.start := by
  refine ⟨fun hstarts => ?_, fun hstart => ⟨plan, hget, hstart⟩⟩
  obtain ⟨other, hother, hstart⟩ := hstarts
  rw [hget, Option.some.injEq] at hother
  rw [hother]
  exact hstart

/-- The states can be made and linked, and one of them is the start state. -/
structure Resolvable (blueprint : Blueprint) (registry : Registry) : Prop
    extends Linkable blueprint where
  /-- No state is its own parent over any number of levels. -/
  acyclic : ∀ name, ¬ Relation.TransGen blueprint.Under name name
  /-- There is a start state. -/
  started : ∃ name, blueprint.Starts name
  /-- There is no other start state. -/
  only : ∀ name other, blueprint.Starts name → blueprint.Starts other → name = other
  /-- Guards and actions can be compiled. -/
  fit : ∀ name plan, blueprint.states.get? name = some plan → ∀ key transition,
    plan.transitions.get? key = some transition → transition.Fit registry

/-- The states make up one hierarchy of well-formed states. -/
structure WellFormed (blueprint : Blueprint) (registry : Registry) : Prop
    extends Resolvable blueprint registry where
  /-- Names of states are neither empty nor the name of the root. -/
  named : ∀ name, (blueprint.states.get? name).isSome → name ≠ "" ∧ name ≠ rootName
  /-- Names and targets of transitions are not empty. -/
  ends : ∀ name plan, blueprint.states.get? name = some plan → ∀ key transition,
    plan.transitions.get? key = some transition → key ≠ "" ∧ transition.target ≠ ""
  /-- Transitions lead to declared states or to the root. -/
  known : ∀ name plan, blueprint.states.get? name = some plan → ∀ key transition,
    plan.transitions.get? key = some transition →
    (blueprint.states.get? transition.target).isSome ∨ transition.target = rootName

/-- Every declared state is the start state, a start substate, or the target of a transition
of another state. -/
def Referenced (blueprint : Blueprint) : Prop :=
  ∀ name, (blueprint.states.get? name).isSome →
    blueprint.Starts name ∨ (∃ other, blueprint.Delegates other name)
      ∨ ∃ other plan, blueprint.states.get? other = some plan ∧ name ≠ other
        ∧ ∃ key transition, plan.transitions.get? key = some transition
          ∧ transition.target = name

/-! ### The hierarchy of a blueprint -/

/-- The start substate of a declared state. -/
def startOf? (blueprint : Blueprint) (name : String) : Option String :=
  (blueprint.states.get? name).bind StatePlan.startName?

/-- A state delegates to the start substate that is found for it. -/
theorem startOf?_eq_some_iff {start : String} :
    blueprint.startOf? name = some start ↔ blueprint.Delegates name start :=
  Option.bind_eq_some_iff

/-- The start substate of a declared state is read off its plan. -/
theorem startOf?_eq (hget : blueprint.states.get? name = some plan) :
    blueprint.startOf? name = plan.startName? := by
  simp [startOf?, hget]

/-- The own ways out of a declared state; none if they cannot be compiled. -/
def ways (blueprint : Blueprint) (registry : Registry) (name : String) : List Transition :=
  ((blueprint.states.get? name).bind fun plan =>
    (plan.ownWays registry name).toOption).getD []

/-- A state has the ways out that are compiled for it, if this succeeds. -/
theorem ways_eq (hget : blueprint.states.get? name = some plan) {ways : List Transition}
    (hways : plan.ownWays registry name = .ok ways) : blueprint.ways registry name = ways := by
  simp [Blueprint.ways, hget, hways, Except.toOption]

/-- A state that delegates has no ways out of its own. -/
theorem ways_eq_nil (hstart : (blueprint.startOf? name).isSome) :
    blueprint.ways registry name = [] := by
  obtain ⟨start, hstart⟩ := Option.isSome_iff_exists.1 hstart
  obtain ⟨plan, hget, hname⟩ := startOf?_eq_some_iff.1 hstart
  refine ways_eq hget (StatePlan.ownWays_eq_ok_iff.2 ?_)
  simp [hname]

/-- The hierarchy that a blueprint describes. -/
def layout (blueprint : Blueprint) (registry : Registry) : Layout :=
  ⟨blueprint.effectiveParent?, blueprint.startOf?, blueprint.ways registry⟩

/-- In linkable blueprints, a state with an own way out does not delegate, so its ways out are
the compiled ones. -/
theorem Linkable.compile_eq (h : blueprint.Linkable)
    (hget : blueprint.states.get? name = some plan) {ways : List Transition}
    (hways : plan.ownWays registry name = .ok ways) :
    plan.compile registry name = .ok ways := by
  rw [StatePlan.ownWays_eq_ok_iff] at hways
  split at hways
  · next hstart =>
    obtain ⟨start, hstart⟩ := Option.isSome_iff_exists.1 hstart
    -- There are no transitions to compile, and so nothing that could be refused.
    have hempty := h.undecided name plan start hget hstart
    have hentries : plan.transitions.entries = [] := List.isEmpty_iff.1 hempty
    rw [hways]
    refine mapError_eq_ok.2 ?_
    rw [hentries]
    rfl
  · exact hways

/-- The own ways out of every declared state are compiled. -/
theorem Resolvable.ownWays_eq (h : blueprint.Resolvable registry)
    (hget : blueprint.states.get? name = some plan) :
    plan.ownWays registry name = .ok (blueprint.ways registry name) := by
  obtain ⟨ways, hways⟩ : ∃ ways, plan.ownWays registry name = .ok ways := by
    cases hstart : plan.startName? with
    | some start => exact ⟨[], StatePlan.ownWays_eq_ok_iff.2 (by simp [hstart])⟩
    | none =>
      obtain ⟨ways, hways⟩ := StatePlan.exists_compile_iff.2 (h.fit name plan hget)
      exact ⟨ways, StatePlan.ownWays_eq_ok_iff.2 (by simpa [hstart] using hways)⟩
  rw [ways_eq hget hways, hways]

/-- The start state has no parent. -/
theorem Linkable.parent_of_starts (h : blueprint.Linkable) (hstarts : blueprint.Starts name) :
    blueprint.effectiveParent? name = none := by
  obtain ⟨plan, hget, hstart⟩ := hstarts
  exact h.free name plan hget hstart

/-- A declared state is well formed before it is linked. -/
theorem WellFormed.sound_new (h : blueprint.WellFormed registry)
    (hget : blueprint.states.get? name = some plan) :
    (State.new name (blueprint.ways registry name)).Sound := by
  have hcompile := h.compile_eq hget (h.ownWays_eq hget)
  refine ⟨(h.named name (by simp [hget])).1, ?_, ?_, StatePlan.nodup_of_compile hcompile⟩
  · intro start hstart
    cases hstart
  · intro way hway
    obtain ⟨transition, htransition, htarget⟩ := StatePlan.exists_plan_of_mem hcompile hway
    rw [← htarget]
    exact h.ends name plan hget way.name transition htransition

end Blueprint

end Statechart
