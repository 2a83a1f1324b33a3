import Statechart.Proofs.Blueprint.Making
import Statechart.Proofs.Blueprint.Placement
import Statechart.Proofs.Chart.Consistency

/-!
# `Statechart.Proofs.Blueprint.Finished`: the chart that a blueprint describes

`Blueprint.finished?` says what a chart looks up under each name once all declared states are
in place: the root with the start state, and every declared state with its parent, its start
substate and its ways out. A table that shows the layout of the blueprint below the root
looks up just this (`get?_of_shown`).

Such a chart is consistent exactly if transitions lead to declared states or to the root and
no declared state is left out (`Resolvable.consistent_iff`).
-/

set_option autoImplicit false

namespace Statechart

namespace Blueprint

variable {blueprint : Blueprint} {registry : Registry} {order : List String}
  {name start : String} {plan : StatePlan} {chart : Chart} {state : State}

/-- The state of a name in the finished chart. -/
def finished? (blueprint : Blueprint) (registry : Registry) (start name : String) :
    Option State :=
  if name = rootName then some ⟨rootName, none, some start, [State.entry rootName start]⟩
  else (blueprint.states.get? name).map fun plan =>
    ⟨name, some ((blueprint.effectiveParent? name).getD rootName), plan.startName?,
      match plan.startName? with
      | some child => [State.entry name child]
      | none => blueprint.ways registry name⟩

/-- The root of the finished chart delegates to the start state. -/
theorem finished?_root :
    blueprint.finished? registry start rootName
      = some ⟨rootName, none, some start, [State.entry rootName start]⟩ :=
  if_pos rfl

/-- A declared state has its effective parent, or the root if there is none. It delegates to its
start substate, or has its own ways out. -/
theorem finished?_eq (hne : name ≠ rootName) (hget : blueprint.states.get? name = some plan) :
    blueprint.finished? registry start name
      = some ⟨name, some ((blueprint.effectiveParent? name).getD rootName), plan.startName?,
          match plan.startName? with
          | some child => [State.entry name child]
          | none => blueprint.ways registry name⟩ := by
  rw [finished?, if_neg hne, hget]
  rfl

/-- Every state of the finished chart is the root or declared. -/
theorem eq_root_or_exists_plan (h : blueprint.finished? registry start name = some state) :
    name = rootName ∨ name ≠ rootName ∧ ∃ plan, blueprint.states.get? name = some plan := by
  by_cases hroot : name = rootName
  · exact Or.inl hroot
  · rw [finished?, if_neg hroot] at h
    obtain ⟨plan, hget, -⟩ := Option.map_eq_some_iff.1 h
    exact Or.inr ⟨hroot, plan, hget⟩

/-- Every state of the finished chart has the name that it is stored under. -/
theorem finished?_name (h : blueprint.finished? registry start name = some state) :
    state.name = name := by
  rcases eq_root_or_exists_plan h with rfl | ⟨hne, plan, hget⟩
  · rw [finished?_root] at h
    cases h
    rfl
  · rw [finished?_eq hne hget] at h
    cases h
    rfl

/-- A chart that shows all of the layout is finished. -/
theorem get?_of_shown (hlinkable : blueprint.Linkable) (harranged : blueprint.Arranged order)
    (hstart : blueprint.Starts start)
    (hshown : ((blueprint.layout registry).rooted start).Shown (rootName :: order)
      chart.states) (name : String) :
    chart.get? name = blueprint.finished? registry start name := by
  show chart.states.get? name = _
  -- By now all states are made, so each delegates to its start substate if it has one.
  by_cases hroot : name = rootName
  · subst hroot
    have hmem : start ∈ rootName :: order :=
      List.mem_cons_of_mem _ (harranged.mem_of_starts hstart)
    rw [hshown.get?_eq (by simp), Layout.state_of_mem (Layout.rooted_start_root _) hmem,
      finished?_root]
    simp [Layout.rooted]
  · cases hget : blueprint.states.get? name with
    | none =>
      have hmem : name ∉ order := fun hmem => by
        have hdeclared := (harranged.declared name).1 hmem
        simp [hget] at hdeclared
      rw [hshown.get?_eq_none (by simp [hroot, hmem]), finished?, if_neg hroot, hget]
      rfl
    | some plan =>
      have hmem : name ∈ order := (harranged.declared name).2 (by simp [hget])
      rw [hshown.get?_eq (by simp [hmem]), finished?_eq hroot hget]
      cases hchild : plan.startName? with
      | some child =>
        have hdeclared := hlinkable.declared name child ⟨plan, hget, hchild⟩
        have hstart' : ((blueprint.layout registry).rooted start).start name = some child := by
          rw [Layout.rooted_start _ hroot]
          exact (startOf?_eq hget).trans hchild
        rw [Layout.state_of_mem hstart' (by simp [(harranged.declared child).2 hdeclared]),
          Layout.rooted_parent _ hroot]
        rfl
      | none =>
        have hnone : ((blueprint.layout registry).rooted start).start name = none := by
          rw [Layout.rooted_start _ hroot]
          exact (startOf?_eq hget).trans hchild
        rw [Layout.state_of_not_mem (by simp [hnone]), Layout.rooted_parent _ hroot,
          Layout.rooted_ways _ hroot]
        rfl

namespace Resolvable

variable (h : blueprint.Resolvable registry)
include h

/-- The ways out of a finished state lead to its start substate or to the planned targets. -/
theorem exists_way_iff (hget : blueprint.states.get? name = some plan) (hne : name ≠ rootName)
    (hstate : blueprint.finished? registry start name = some state) {target : String} :
    (∃ way ∈ state.transitions, way.target = target)
      ↔ plan.startName? = some target
        ∨ ∃ key transition, plan.transitions.get? key = some transition
          ∧ transition.target = target := by
  rw [finished?_eq hne hget, Option.some.injEq] at hstate
  subst hstate
  -- A state that delegates has no planned transitions, so either side is about one kind of way
  -- only.
  cases hchild : plan.startName? with
  | some child =>
    have hempty : plan.transitions.entries = [] :=
      List.isEmpty_iff.1 (h.undecided name plan child hget hchild)
    have hnone : ∀ key, plan.transitions.get? key = none := fun key => by
      rw [Dict.get?, hempty, List.lookup_nil]
    simp [hnone, State.entry, Transition.always]
  | none =>
    have hcompile := h.compile_eq hget (h.ownWays_eq hget)
    simp only [reduceCtorEq, false_or]
    constructor
    · rintro ⟨way, hway, rfl⟩
      obtain ⟨transition, htransition, htarget⟩ := StatePlan.exists_plan_of_mem hcompile hway
      exact ⟨way.name, transition, htransition, htarget⟩
    · rintro ⟨key, transition, htransition, rfl⟩
      obtain ⟨way, hway, -, htarget⟩ := StatePlan.exists_mem_of_plan hcompile htransition
      exact ⟨way, hway, htarget⟩

variable (hstart : blueprint.Starts start)
  (hapart : ∀ name, (blueprint.states.get? name).isSome → name ≠ rootName)
  (hfinished : ∀ name, chart.get? name = blueprint.finished? registry start name)
include hstart hapart hfinished

/-- The transitions of the finished chart lead to its states exactly if the planned ones lead
to declared states or to the root. -/
theorem targets_known_iff :
    (∀ name state, chart.get? name = some state → ∀ way ∈ state.transitions,
        (chart.get? way.target).isSome)
      ↔ ∀ name plan, blueprint.states.get? name = some plan → ∀ key transition,
          plan.transitions.get? key = some transition →
          (blueprint.states.get? transition.target).isSome ∨ transition.target = rootName := by
  have hknown : ∀ name, (chart.get? name).isSome
      ↔ (blueprint.states.get? name).isSome ∨ name = rootName := by
    intro name
    rw [hfinished, finished?]
    by_cases hroot : name = rootName
    · simp [hroot]
    · simp [hroot]
  constructor
  · intro hall name plan hget key transition htransition
    have hne := hapart name (by simp [hget])
    have hstate : blueprint.finished? registry start name = _ := finished?_eq hne hget
    obtain ⟨way, hway, htarget⟩ := (h.exists_way_iff hget hne hstate).2
      (Or.inr ⟨key, transition, htransition, rfl⟩)
    rw [← htarget]
    exact (hknown way.target).1 (hall name _ ((hfinished name).trans hstate) way hway)
  · intro htargets name state hstate way hway
    have hfin := (hfinished name).symm.trans hstate
    rw [hknown]
    -- The ways out are the one of the root, those into start substates, and the planned ones.
    rcases eq_root_or_exists_plan hfin with hroot | ⟨hne, plan, hget⟩
    · subst hroot
      rw [finished?_root, Option.some.injEq] at hfin
      subst hfin
      rw [List.mem_singleton] at hway
      subst hway
      obtain ⟨plan, hget, -⟩ := hstart
      have hdeclared : (blueprint.states.get? start).isSome := by simp [hget]
      exact Or.inl hdeclared
    · rcases (h.exists_way_iff hget hne hfin).1 ⟨way, hway, rfl⟩ with
        hchild | ⟨key, transition, htransition, htarget⟩
      · exact Or.inl (h.declared name way.target ⟨plan, hget, hchild⟩)
      · rw [← htarget]
        exact htargets name plan hget key transition htransition

/-- A state of the finished chart refers to a name exactly if this is the start state, or is
referred to in the blueprint. -/
theorem exists_refers_iff :
    (∃ other above, chart.get? other = some above
        ∧ (above.startSubstate = some name
          ∨ name ≠ other ∧ ∃ way ∈ above.transitions, way.target = name))
      ↔ blueprint.Starts name ∨ (∃ other, blueprint.Delegates other name)
        ∨ ∃ other plan, blueprint.states.get? other = some plan ∧ name ≠ other
          ∧ ∃ key transition, plan.transitions.get? key = some transition
            ∧ transition.target = name := by
  constructor
  · rintro ⟨other, above, habove, hrefers⟩
    have hfin := (hfinished other).symm.trans habove
    rcases eq_root_or_exists_plan hfin with hroot | ⟨hne, plan, hget⟩
    · -- The root refers to the start state alone.
      subst hroot
      rw [finished?_root, Option.some.injEq] at hfin
      subst hfin
      have hsame : start = name := by
        rcases hrefers with hsub | ⟨-, way, hway, htarget⟩
        · exact Option.some.inj hsub
        · rw [List.mem_singleton] at hway
          subst hway
          exact htarget
      exact Or.inl (hsame ▸ hstart)
    · -- A way into the start substate tells the same as the start substate itself.
      have hsub : above.startSubstate = plan.startName? := by
        have hstate : blueprint.finished? registry start other = _ := finished?_eq hne hget
        rw [hstate, Option.some.injEq] at hfin
        rw [← hfin]
      rcases hrefers with hchild | ⟨hother, hways⟩
      · exact Or.inr (Or.inl ⟨other, plan, hget, hsub.symm.trans hchild⟩)
      · rcases (h.exists_way_iff hget hne hfin).1 hways with hchild | hplanned
        · exact Or.inr (Or.inl ⟨other, plan, hget, hchild⟩)
        · exact Or.inr (Or.inr ⟨other, plan, hget, hother, hplanned⟩)
  · rintro (hstarts | ⟨other, plan, hget, hchild⟩ | ⟨other, plan, hget, hother, hplanned⟩)
    · have hsame : some start = some name := congrArg some (h.only start name hstart hstarts)
      exact ⟨rootName, _, (hfinished rootName).trans finished?_root, Or.inl hsame⟩
    · have hne := hapart other (by simp [hget])
      exact ⟨other, _, (hfinished other).trans (finished?_eq hne hget), Or.inl hchild⟩
    · have hne := hapart other (by simp [hget])
      have hstate : blueprint.finished? registry start other = _ := finished?_eq hne hget
      exact ⟨other, _, (hfinished other).trans hstate,
        Or.inr ⟨hother, (h.exists_way_iff hget hne hstate).2 (Or.inr hplanned)⟩⟩

/-- The finished chart is consistent if transitions lead to its states and none is left
out. -/
theorem consistent_iff :
    chart.Consistent
      ↔ (∀ name plan, blueprint.states.get? name = some plan → ∀ key transition,
          plan.transitions.get? key = some transition →
          (blueprint.states.get? transition.target).isSome ∨ transition.target = rootName)
        ∧ blueprint.Referenced := by
  have hdeclared : ∀ name, (blueprint.states.get? name).isSome →
      ∃ state, chart.get? name = some state := by
    intro name hname
    obtain ⟨plan, hget⟩ := Option.isSome_iff_exists.1 hname
    exact ⟨_, (hfinished name).trans (finished?_eq (hapart name hname) hget)⟩
  constructor
  · intro hconsistent
    refine ⟨(h.targets_known_iff hstart hapart hfinished).1 hconsistent.known,
      fun name hname => ?_⟩
    obtain ⟨state, hstate⟩ := hdeclared name hname
    exact (h.exists_refers_iff hstart hapart hfinished).1
      (hconsistent.referenced name state hstate (hapart name hname))
  · rintro ⟨htargets, hreferenced⟩
    refine ⟨(h.targets_known_iff hstart hapart hfinished).2 htargets,
      fun name state hstate hne => ?_⟩
    have hfin := (hfinished name).symm.trans hstate
    obtain ⟨-, plan, hget⟩ := (eq_root_or_exists_plan hfin).resolve_left hne
    exact (h.exists_refers_iff hstart hapart hfinished).2
      (hreferenced name (by simp [hget]))

end Resolvable

end Blueprint

end Statechart
