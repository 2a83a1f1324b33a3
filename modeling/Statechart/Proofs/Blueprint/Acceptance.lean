import Statechart.Proofs.Blueprint.Finished
import Statechart.Proofs.Chart.Splice

/-!
# `Statechart.Proofs.Blueprint.Acceptance`: which blueprints make charts

A blueprint is assembled in stages, and each stage has its own checks. Together they accept
exactly the blueprints that are well formed and referenced (`of_assemble`,
`WellFormed.exists_assemble`), and what they make is the finished chart. Placing the states
by hand in any order that puts parents first makes the same chart
(`WellFormed.foldlM_place_eq`).
-/

set_option autoImplicit false

namespace Statechart

namespace Blueprint

variable {blueprint : Blueprint} {registry : Registry} {order : List String}
  {name start : String} {plan : StatePlan} {chart : Chart} {state : State}
  {built : Dict State}

/-- A state that delegates to none is well formed with its compiled ways out; one that
delegates has the way into its start substate. -/
theorem WellFormed.sound_state (h : blueprint.WellFormed registry)
    (hget : blueprint.states.get? name = some plan) (made : List String) :
    ((blueprint.layout registry).state made name).Sound := by
  have hname : name ≠ "" := (h.named name (by simp [hget])).1
  -- Once its start substate is made, the state has the way into it and no other.
  by_cases hmade : ∃ child, blueprint.startOf? name = some child ∧ child ∈ made
  · obtain ⟨child, hchild, hmem⟩ := hmade
    have hdeclared := h.declared name child (startOf?_eq_some_iff.1 hchild)
    rw [Layout.state_of_mem hchild hmem]
    have hnew : (State.mk name (blueprint.effectiveParent? name) none []).Sound := by
      refine ⟨hname, ?_, ?_, List.nodup_nil⟩
      · intro start hstart
        cases hstart
      · intro way hway
        cases hway
    have hadopting : ((State.mk name (blueprint.effectiveParent? name) none []).adopting child
        true).Sound := hnew.adopting (h.named child hdeclared).1
    exact hadopting
  · rw [Layout.state_of_not_mem fun child hchild hmem => hmade ⟨child, hchild, hmem⟩]
    have hsound := h.sound_new hget
    exact ⟨hsound.named, hsound.delegating, hsound.ways, hsound.distinct⟩

section Append

variable (harranged : blueprint.Arranged order) (hstart : blueprint.Starts start)
  (hshown : (blueprint.layout registry).Shown order built)
include harranged hstart hshown

/-- The names of the start state and of the other resolved states are new in a chart with
nothing but a root exactly if none of them is the name of the root. -/
theorem apart_iff :
    (start ≠ rootName
        ∧ ∀ name, ((built.erase start).get? name).isSome → name ≠ rootName ∧ name ≠ start)
      ↔ ∀ name, (blueprint.states.get? name).isSome → name ≠ rootName := by
  have hmem : start ∈ order := harranged.mem_of_starts hstart
  simp only [hshown.isSome_get?_erase_iff, ← harranged.declared]
  constructor
  · intro h name hname
    by_cases hsame : name = start
    · rw [hsame]
      exact h.1
    · exact (h.2 name ⟨hsame, hname⟩).1
  · intro hall
    exact ⟨hall start hmem, fun name hname => ⟨hall name hname.2, hname.1⟩⟩

variable (hlinkable : blueprint.Linkable)
include hlinkable

/-- The start state on a new chart and the other resolved states, settled, make up the layout
below the root. -/
theorem settled_or_planted_eq
    (hapart : ∀ name, (blueprint.states.get? name).isSome → name ≠ rootName) (name : String) :
    (((built.erase start).get? name).map State.settled).or
        ((Chart.planted ((blueprint.layout registry).state order start)).get? name)
      = if name ∈ rootName :: order then
          some (((blueprint.layout registry).rooted start).state (rootName :: order) name)
        else none := by
  have hfree : (blueprint.layout registry).parent start = none :=
    hlinkable.parent_of_starts hstart
  have hmem : start ∈ order := harranged.mem_of_starts hstart
  have hinner : ∀ name ∈ order, name ≠ rootName
      ∧ (blueprint.layout registry).start name ≠ some rootName := by
    intro name hname
    refine ⟨hapart name ((harranged.declared name).1 hname), fun hchild => ?_⟩
    exact hapart rootName (hlinkable.declared name rootName (startOf?_eq_some_iff.1 hchild)) rfl
  rw [Dict.get?_erase, hshown name, Chart.get?_planted, Layout.state_name]
  -- The name is the start state, another declared state, the root, or nothing.
  by_cases hisStart : name = start
  · subst hisStart
    obtain ⟨hne, hchild⟩ := hinner name hmem
    rw [if_pos rfl, if_pos rfl, if_pos (by simp [hmem]), Layout.rooted_state _ _ hne hchild,
      hfree]
    rfl
  · rw [if_neg hisStart, if_neg hisStart]
    by_cases hmade : name ∈ order
    · obtain ⟨hne, hchild⟩ := hinner name hmade
      have hmade' : name ∈ rootName :: order := List.mem_cons_of_mem _ hmade
      rw [if_pos hmade, if_pos hmade', Layout.rooted_state _ _ hne hchild]
      simp [State.settled]
    · by_cases hisRoot : name = rootName
      · subst hisRoot
        rw [if_neg hmade, if_pos rfl, if_pos (by simp),
          Layout.state_of_mem (Layout.rooted_start_root _) (by simp [hmem])]
        simp [Layout.rooted, State.adopting, State.new]
      · simp [hmade, hisRoot]

/-- Resolved states can be appended to a new chart exactly if the start state is well formed
and no state has the name of the root. The chart shows the layout then. -/
theorem append_resolved_eq_ok_iff :
    Chart.new.append ((blueprint.layout registry).state order start) (built.erase start)
        = .ok chart
      ↔ ((blueprint.layout registry).state order start).Sound
        ∧ (∀ name, (blueprint.states.get? name).isSome → name ≠ rootName)
        ∧ ((blueprint.layout registry).rooted start).Shown (rootName :: order)
            chart.states := by
  have hfree : (blueprint.layout registry).parent start = none :=
    hlinkable.parent_of_starts hstart
  have hnames := apart_iff harranged hstart hshown
  rw [Chart.append_eq_ok_iff, Layout.state_name, Layout.state_parent]
  constructor
  · rintro ⟨hsound, hroot, -, hnew, hlookup⟩
    have hapart := hnames.1 ⟨hroot, hnew⟩
    refine ⟨hsound, hapart, fun name => ?_⟩
    rw [← settled_or_planted_eq harranged hstart hshown hlinkable hapart name]
    exact hlookup name
  · rintro ⟨hsound, hapart, hlookup⟩
    obtain ⟨hroot, hnew⟩ := hnames.2 hapart
    refine ⟨hsound, hroot, hfree, hnew, fun name => ?_⟩
    rw [settled_or_planted_eq harranged hstart hshown hlinkable hapart name]
    exact hlookup name

end Append

/-! ### The chart -/

/-- An assembled chart is the finished chart of a blueprint that is well formed and
referenced. -/
theorem of_assemble (h : blueprint.assemble registry = .ok chart) :
    blueprint.WellFormed registry ∧ blueprint.Referenced
      ∧ ∃ start, blueprint.Starts start
        ∧ ∀ name, chart.get? name = blueprint.finished? registry start name := by
  obtain ⟨⟨state, states⟩, hresolve, hrest⟩ := bind_eq_ok.1 h
  obtain ⟨appended, happend, hrest⟩ := bind_eq_ok.1 hrest
  obtain ⟨⟨⟩, hvalid, hpure⟩ := bind_eq_ok.1 hrest
  cases hpure
  have hresolvable := exists_resolve_iff.1 ⟨_, hresolve⟩
  obtain ⟨order, start, built, harranged, hstart, hshown, rfl, rfl⟩ := of_resolve hresolve
  obtain ⟨-, hapart, hshown'⟩ := (append_resolved_eq_ok_iff harranged hstart hshown
    hresolvable.toLinkable).1 happend
  have hfinished := get?_of_shown hresolvable.toLinkable harranged hstart hshown'
  have hnamed : chart.Named := fun name state hget =>
    finished?_name ((hfinished name).symm.trans hget)
  -- The check of the whole chart speaks of the blueprint, as the chart is the finished one.
  obtain ⟨hknown, hreferenced⟩ := (hresolvable.consistent_iff hstart hapart hfinished).1
    (Chart.consistent_of_validate hnamed hvalid)
  -- Every declared state is in the chart, so it has been checked.
  have hsound : ∀ name plan, blueprint.states.get? name = some plan → ∃ state,
      blueprint.finished? registry start name = some state ∧ state.Sound := by
    intro name plan hget
    obtain ⟨state, hfin⟩ : ∃ state,
        blueprint.finished? registry start name = some state :=
      ⟨_, finished?_eq (hapart name (by simp [hget])) hget⟩
    exact ⟨state, hfin, Chart.sound_of_validate hvalid ((hfinished name).trans hfin)⟩
  refine ⟨⟨hresolvable, fun name hname => ?_, fun name plan hget key transition hplanned => ?_,
    hknown⟩, hreferenced, start, hstart, hfinished⟩
  · obtain ⟨plan, hget⟩ := Option.isSome_iff_exists.1 hname
    obtain ⟨state, hfin, hstate⟩ := hsound name plan hget
    have hname := hstate.named
    rw [finished?_name hfin] at hname
    exact ⟨hname, hapart name (by simp [hget])⟩
  · obtain ⟨state, hfin, hstate⟩ := hsound name plan hget
    have hcompile := hresolvable.compile_eq hget (hresolvable.ownWays_eq hget)
    obtain ⟨way, hway, hkey, htarget⟩ := StatePlan.exists_mem_of_plan hcompile hplanned
    rw [finished?_eq (hapart name (by simp [hget])) hget, Option.some.injEq] at hfin
    subst hfin
    cases hchild : plan.startName? with
    | some child =>
      have hempty := List.isEmpty_iff.1 (hresolvable.undecided name plan child hget hchild)
      rw [Dict.get?, hempty] at hplanned
      cases hplanned
    | none =>
      have hends := hstate.ways way (by simpa [hchild] using hway)
      rwa [hkey, htarget] at hends

namespace WellFormed

variable (h : blueprint.WellFormed registry)
include h

/-- Placing the states by hand, parents first, makes the finished chart. -/
theorem foldlM_place_eq (hstart : blueprint.Starts start) (harranged : blueprint.Arranged order)
    (hfinished : ∀ name, chart.get? name = blueprint.finished? registry start name) :
    order.foldlM (blueprint.place registry) Chart.new = .ok chart ∧ chart.Grown := by
  obtain ⟨chart', hplaced, hgrown, hshown⟩ := h.exists_foldlM_place hstart harranged.ordered
    fun name => (harranged.declared name).1
  have hsame : chart = chart' := Chart.ext_get? fun name =>
    (hfinished name).trans (get?_of_shown h.toLinkable harranged hstart hshown name).symm
  rw [hsame]
  exact ⟨hplaced, hgrown⟩

/-- A well-formed and referenced blueprint is assembled. -/
theorem exists_assemble (hreferenced : blueprint.Referenced) :
    ∃ chart, blueprint.assemble registry = .ok chart := by
  obtain ⟨⟨state, states⟩, hresolve⟩ := exists_resolve_iff.2 h.toResolvable
  obtain ⟨order, start, built, harranged, hstart, hshown, rfl, rfl⟩ := of_resolve hresolve
  have hapart : ∀ name, (blueprint.states.get? name).isSome → name ≠ rootName :=
    fun name hname => (h.named name hname).2
  -- The chart made by hand is the one that appending gives, and it is a tree.
  obtain ⟨chart, -, hgrown, hshown'⟩ := h.exists_foldlM_place hstart harranged.ordered
    fun name => (harranged.declared name).1
  have hfinished := get?_of_shown h.toLinkable harranged hstart hshown'
  have happend : Chart.new.append ((blueprint.layout registry).state order start)
      (built.erase start) = .ok chart := by
    obtain ⟨plan, hget, -⟩ := id hstart
    exact (append_resolved_eq_ok_iff harranged hstart hshown h.toLinkable).2
      ⟨h.sound_state hget order, hapart, hshown'⟩
  have hvalid : chart.validate = .ok () := hgrown.tree.validate_eq_ok_iff.2
    ((h.consistent_iff hstart hapart hfinished).2 ⟨h.known, hreferenced⟩)
  exact ⟨chart, bind_eq_ok.2 ⟨_, hresolve, bind_eq_ok.2 ⟨chart, happend,
    bind_eq_ok.2 ⟨(), hvalid, rfl⟩⟩⟩⟩

end WellFormed

/-! ### The two ways to a chart -/

/-- A blueprint is assembled exactly if it is well formed and no state is left out. -/
theorem exists_assemble_iff :
    (∃ chart, blueprint.assemble registry = .ok chart)
      ↔ blueprint.WellFormed registry ∧ blueprint.Referenced := by
  constructor
  · rintro ⟨chart, hassemble⟩
    obtain ⟨hwellFormed, hreferenced, -⟩ := of_assemble hassemble
    exact ⟨hwellFormed, hreferenced⟩
  · rintro ⟨hwellFormed, hreferenced⟩
    exact hwellFormed.exists_assemble hreferenced

/-- A start state and a state that nothing leads to. -/
def islet : Blueprint :=
  ⟨(Dict.empty.insert "a" { start := true }).insert "b" {}⟩

/-- The two states are well formed: without parents, start substates and transitions there is
not much to be wrong. -/
theorem islet_wellFormed : islet.WellFormed Registry.empty := by
  have hplan : ∀ name plan, islet.states.get? name = some plan →
      plan.startName? = none ∧ plan.parentName? = none ∧ plan.transitions = Dict.empty
        ∧ name ≠ "" ∧ name ≠ rootName ∧ (plan.start → name = "a") := by
    intro name plan hget
    simp only [islet, Dict.get?_insert, Dict.get?_empty] at hget
    split at hget
    · next hname =>
      cases hget
      subst hname
      exact ⟨rfl, rfl, rfl, by decide, by decide, by decide⟩
    · split at hget
      · next hname =>
        cases hget
        subst hname
        exact ⟨rfl, rfl, rfl, by decide, by decide, by decide⟩
      · cases hget
  have hdelegates : ∀ name start, ¬ islet.Delegates name start := by
    rintro name start ⟨plan, hget, hstart⟩
    rw [(hplan name plan hget).1] at hstart
    cases hstart
  have hparent : ∀ name, islet.effectiveParent? name = none := by
    intro name
    cases hparent : islet.effectiveParent? name with
    | none => rfl
    | some parent =>
      obtain ⟨plan, hget, hor⟩ := exists_of_effectiveParent? hparent
      rw [(hplan name plan hget).2.1, Option.none_or] at hor
      exact absurd (exists_of_claimer? hor) (hdelegates parent name)
  have hplanned : ∀ name plan, islet.states.get? name = some plan → ∀ key transition,
      plan.transitions.get? key ≠ some transition := by
    intro name plan hget key transition hplanned
    rw [(hplan name plan hget).2.2.1] at hplanned
    cases hplanned
  have hstarts : ∀ name, islet.Starts name → name = "a" := by
    rintro name ⟨plan, hget, hstart⟩
    exact (hplan name plan hget).2.2.2.2.2 hstart
  exact {
    undecided := fun name plan start hget hstart =>
      absurd ⟨plan, hget, hstart⟩ (hdelegates name start)
    declared := fun name start hstart => absurd hstart (hdelegates name start)
    unique := fun name _ start hstart => absurd hstart (hdelegates name start)
    parents := fun name plan parent hget hnamed => by
      rw [(hplan name plan hget).2.1] at hnamed
      cases hnamed
    agreeing := fun name _ _ other _ _ hother => absurd hother (hdelegates other name)
    free := fun name _ _ _ => hparent name
    acyclic := fun name hcycle => by
      obtain ⟨parent, hunder, -⟩ := Relation.TransGen.head'_iff.1 hcycle
      rw [Under, hparent name] at hunder
      cases hunder
    started := ⟨"a", _, rfl, rfl⟩
    only := fun name other hname hother => (hstarts name hname).trans (hstarts other hother).symm
    fit := fun name plan hget key transition htransition =>
      absurd htransition (hplanned name plan hget key transition)
    named := fun name hname => by
      obtain ⟨plan, hget⟩ := Option.isSome_iff_exists.1 hname
      exact ⟨(hplan name plan hget).2.2.2.1, (hplan name plan hget).2.2.2.2.1⟩
    ends := fun name plan hget key transition htransition =>
      absurd htransition (hplanned name plan hget key transition)
    known := fun name plan hget key transition htransition =>
      absurd htransition (hplanned name plan hget key transition) }

/-- Without references, well-formed states are not enough. -/
theorem islet_not_assembled :
    ¬ ((∃ chart, islet.assemble Registry.empty = .ok chart)
      ↔ islet.WellFormed Registry.empty) := by
  intro h
  obtain ⟨chart, hassemble⟩ := h.2 islet_wellFormed
  have hnone : (islet.assemble Registry.empty).toOption.isSome = false := by decide
  rw [hassemble] at hnone
  cases hnone

/-- Take a blueprint that is assembled, and any list of its states, each once and behind its
parent. Placing the states in this order succeeds at every step and makes the same chart: the
root with the start state, and each declared state with its parent, its start substate, and
its compiled ways out or the way into the start substate. -/
theorem foldlM_place_eq_assemble (hassemble : blueprint.assemble registry = .ok chart)
    (harranged : blueprint.Arranged order) :
    order.foldlM (blueprint.place registry) Chart.new = .ok chart
      ∧ (∀ name, (chart.get? name).isSome
          ↔ name = rootName ∨ (blueprint.states.get? name).isSome)
      ∧ (∃ start, blueprint.Starts start
          ∧ chart.root? = some ⟨rootName, none, some start, [State.entry rootName start]⟩)
      ∧ ∀ name plan, blueprint.states.get? name = some plan →
          ∃ ways, plan.ownWays registry name = .ok ways
            ∧ chart.get? name = some ⟨name,
                some ((blueprint.effectiveParent? name).getD rootName), plan.startName?,
                match plan.startName? with
                | some child => [State.entry name child]
                | none => ways⟩ := by
  obtain ⟨hwellFormed, -, start, hstart, hfinished⟩ := of_assemble hassemble
  refine ⟨(hwellFormed.foldlM_place_eq hstart harranged hfinished).1, fun name => ?_,
    ⟨start, hstart, (hfinished rootName).trans finished?_root⟩, fun name plan hget => ?_⟩
  · rw [hfinished name, finished?]
    split
    · next hroot => simp [hroot]
    · next hroot => simp [hroot]
  · have hne := (hwellFormed.named name (by simp [hget])).2
    exact ⟨blueprint.ways registry name, hwellFormed.ownWays_eq hget,
      (hfinished name).trans (finished?_eq hne hget)⟩

/-- A start state with a start substate, from which a transition leads to a sibling. -/
def household : Blueprint :=
  ⟨((Dict.empty.insert "a" { start := true, startSubstate := some "b" }).insert "b"
    { transitions := Dict.empty.insert "go" { target := "c" } }).insert "c"
    { parent := some "a" }⟩

/-- The sibling may be placed before the start substate. -/
theorem household_placed :
    ∃ chart, household.assemble Registry.empty = .ok chart
      ∧ household.Arranged ["a", "c", "b"]
      ∧ ["a", "c", "b"].foldlM (household.place Registry.empty) Chart.new = .ok chart := by
  obtain ⟨chart, hassemble⟩ : ∃ chart, household.assemble Registry.empty = .ok chart := by
    have hsome : (household.assemble Registry.empty).toOption.isSome = true := by decide
    cases hassemble : household.assemble Registry.empty with
    | ok chart => exact ⟨chart, rfl⟩
    | error fault =>
      rw [hassemble] at hsome
      cases hsome
  have ha : household.effectiveParent? "a" = none := by decide
  have hb : household.effectiveParent? "b" = some "a" := by decide
  have hc : household.effectiveParent? "c" = some "a" := by decide
  have hordered : Ordered household.Under ((([] ++ ["a"]) ++ ["c"]) ++ ["b"]) := by
    refine ((Ordered.nil.append ?_ ?_).append ?_ ?_).append ?_ ?_ <;>
      simp [Under, ha, hb, hc]
  have harranged : household.Arranged ["a", "c", "b"] := by
    refine ⟨hordered, fun name => ?_⟩
    simp only [household, Dict.get?_insert, Dict.get?_empty]
    by_cases hnameC : name = "c"
    · simp [hnameC]
    · by_cases hnameB : name = "b"
      · simp [hnameB]
      · by_cases hnameA : name = "a" <;> simp [hnameA, hnameB, hnameC]
  exact ⟨chart, hassemble, harranged, (foldlM_place_eq_assemble hassemble harranged).1⟩

end Blueprint

end Statechart
