import Statechart.Chart.Validation
import Statechart.Proofs.Chart.Ancestry

/-!
# `Statechart.Proofs.Chart.Consistency`: what the check of a chart accepts

`Chart.Consistent` is a condition on the transitions of a chart alone: they lead to states of
the chart, and no state but the root is left out. Every chart that `Chart.validate` accepts
is consistent, and its states are well formed. On a tree nothing else can go wrong, so there
the check accepts exactly the consistent charts (`Tree.validate_eq_ok_iff`).
-/

set_option autoImplicit false

namespace Statechart

namespace Chart

variable {chart : Chart} {name origin : String} {state : State} {way : Transition}
  {path visited : List String} {bound : Nat}

/-- Transitions lead to states of the chart, and every state but the root is a start substate
or the target of another state's transition. -/
structure Consistent (chart : Chart) : Prop where
  /-- The target of every transition is there. -/
  known : ∀ name state, chart.get? name = some state → ∀ way ∈ state.transitions,
    (chart.get? way.target).isSome
  /-- Every state but the root is referred to. -/
  referenced : ∀ name state, chart.get? name = some state → name ≠ rootName →
    ∃ other above, chart.get? other = some above
      ∧ (above.startSubstate = some name
        ∨ name ≠ other ∧ ∃ way ∈ above.transitions, way.target = name)

/-- A state is the start substate of some state, or the target of a transition of another
one. -/
def Referenced (chart : Chart) (name : String) : Prop :=
  ∃ other above, chart.get? other = some above
    ∧ (above.startSubstate = some name
      ∨ name ≠ other ∧ ∃ way ∈ above.transitions, way.target = name)

/-- The whole check is the check of every state and the search for states left out. -/
theorem validate_eq_ok_iff :
    chart.validate = .ok ()
      ↔ (∀ name state, chart.get? name = some state → chart.validateMember state = .ok ())
        ∧ chart.isolated = [] := by
  have hmembers : (∀ state ∈ chart.states.values, chart.validateMember state = .ok ())
      ↔ ∀ name state, chart.get? name = some state → chart.validateMember state = .ok () := by
    simp only [Dict.mem_values]
    exact ⟨fun h name state hget => h state ⟨name, hget⟩,
      fun h state ⟨name, hget⟩ => h name state hget⟩
  unfold validate
  rw [bind_eq_ok, ← hmembers]
  constructor
  · rintro ⟨_, hall, hisolated⟩
    refine ⟨forM_eq_ok.1 hall, ?_⟩
    split at hisolated
    · next hnil => exact hnil
    · cases hisolated
  · rintro ⟨hall, hnil⟩
    refine ⟨(), forM_eq_ok.2 hall, ?_⟩
    rw [hnil]
    rfl

/-- A state of a chart passes if it and its parents are in order, and each of its transitions leads
to a state that is there and in the same tree. -/
theorem validateMember_eq_ok_iff :
    chart.validateMember state = .ok ()
      ↔ chart.validateState state = .ok ()
        ∧ ∀ way ∈ state.transitions, (chart.get? way.target).isSome
          ∧ (chart.commonAncestor? state.name way.target).isSome := by
  have htransition : ∀ way, chart.validateTransition state way = .ok ()
      ↔ (chart.get? way.target).isSome
        ∧ (chart.commonAncestor? state.name way.target).isSome := by
    intro way
    unfold validateTransition
    by_cases hknown : (chart.get? way.target).isSome
    · by_cases hcommon : (chart.commonAncestor? state.name way.target).isSome
      · simp [hknown, hcommon]
      · simp [hknown, hcommon]
    · simp [hknown]
  unfold validateMember
  rw [bind_eq_ok]
  simp only [← htransition]
  exact ⟨fun ⟨_, hstate, hways⟩ => ⟨hstate, forM_eq_ok.1 hways⟩,
    fun ⟨hstate, hways⟩ => ⟨(), hstate, forM_eq_ok.2 hways⟩⟩

/-- A state refers to its start substate and to the targets of its transitions. A transition back
to the state itself does not count, but a start substate of its own name does. -/
theorem mem_references {state : State} :
    name ∈ references state
      ↔ state.startSubstate = some name
        ∨ name ≠ state.name ∧ ∃ way ∈ state.transitions, way.target = name := by
  unfold references
  simp only [List.mem_append, Option.mem_toList, List.mem_filter, List.mem_map,
    ne_eq, decide_eq_true_eq]
  rw [and_comm (b := ¬ name = state.name)]

/-- The states left out are those that nothing refers to; the root is never one of them. -/
theorem Named.mem_isolated_iff (hnamed : chart.Named) :
    name ∈ chart.isolated
      ↔ (chart.get? name).isSome ∧ name ≠ rootName ∧ ¬ chart.Referenced name := by
  have hreferenced : (∃ above ∈ chart.states.values, name ∈ references above)
      ↔ chart.Referenced name := by
    constructor
    · intro ⟨above, hvalue, hmem⟩
      obtain ⟨other, hget⟩ := (Dict.mem_values _ _).1 hvalue
      have href := mem_references.1 hmem
      rw [hnamed other above hget] at href
      exact ⟨other, above, hget, href⟩
    · intro ⟨other, above, hget, href⟩
      refine ⟨above, (Dict.mem_values _ _).2 ⟨other, hget⟩, mem_references.2 ?_⟩
      rw [hnamed other above hget]
      exact href
  unfold isolated
  simp only [List.mem_filter, Dict.mem_keys, List.mem_cons, List.mem_flatMap, hreferenced,
    decide_eq_true_eq, not_or]
  exact Iff.rfl

/-- If states stand under their own names, the search for states left out is the second half
of consistency. -/
theorem Named.isolated_eq_nil_iff (hnamed : chart.Named) :
    chart.isolated = []
      ↔ ∀ name state, chart.get? name = some state → name ≠ rootName → chart.Referenced name := by
  rw [List.eq_nil_iff_forall_not_mem]
  simp only [hnamed.mem_isolated_iff, not_and, not_not]
  constructor
  · intro h name state hget hne
    exact h name (by simp [hget]) hne
  · intro h name hname hne
    obtain ⟨state, hget⟩ := Option.isSome_iff_exists.1 hname
    exact h name state hget hne

/-- The check accepts only well-formed states. -/
theorem sound_of_validate (hvalid : chart.validate = .ok ())
    (hget : chart.get? name = some state) : state.Sound := by
  have hmember := (validate_eq_ok_iff.1 hvalid).1 name state hget
  obtain ⟨_, hstate, -⟩ := bind_eq_ok.1 (validateMember_eq_ok_iff.1 hmember).1
  exact State.validate_eq_ok_iff.1 hstate

/-- The check accepts only consistent charts. -/
theorem consistent_of_validate (hnamed : chart.Named) (hvalid : chart.validate = .ok ()) :
    chart.Consistent := by
  obtain ⟨hmembers, hisolated⟩ := validate_eq_ok_iff.1 hvalid
  refine ⟨fun name state hget way hway => ?_, hnamed.isolated_eq_nil_iff.1 hisolated⟩
  exact ((validateMember_eq_ok_iff.1 (hmembers name state hget)).2 way hway).1

/-- The walk up the parents ends at the top of a lineage, if it meets no visited name. -/
theorem validateChain_eq_ok (hnamed : chart.Named) (h : Lineage chart name path)
    (hget : chart.get? name = some state) (hbound : path.length ≤ bound)
    (happart : ∀ other ∈ path, other ∉ visited) :
    chart.validateChain origin bound visited state = .ok () := by
  -- The walk meets the path from below; what it has visited is not on the rest of the path.
  induction h generalizing bound visited state with
  | @top name state' hget' hparent =>
    rw [hget'] at hget
    cases hget
    obtain ⟨bound, rfl⟩ : ∃ less, bound = less + 1 := ⟨bound - 1, by simp at hbound; omega⟩
    have hfresh : state'.name ∉ visited := by
      rw [hnamed _ _ hget']
      exact happart name (by simp)
    simp [validateChain, hfresh, hparent]
  | @under name parent state' path hget' hparent habove ih =>
    rw [hget'] at hget
    cases hget
    obtain ⟨above, hparent'⟩ := habove.exists_get? habove.self_mem
    rw [List.length_append, List.length_singleton] at hbound
    obtain ⟨bound, rfl⟩ : ∃ less, bound = less + 1 := ⟨bound - 1, by omega⟩
    have hname : state'.name = name := hnamed _ _ hget'
    have hfresh : name ∉ visited := happart name (by simp)
    have hrest : chart.validateChain origin bound (name :: visited) above = .ok () := by
      refine ih hparent' (by omega) fun other hother hmem => ?_
      rcases List.mem_cons.1 hmem with rfl | hmem
      · have hnodup := (Lineage.under hget' hparent habove).nodup
        exact (List.nodup_append.1 hnodup).2.2 _ hother _ (List.mem_singleton_self _) rfl
      · exact happart other (by simp [hother]) hmem
    simp [validateChain, hname, hfresh, hparent, hparent', hrest]

namespace Tree

/-- On a tree, every state passes the check of itself and its parents. -/
theorem validateState_eq_ok (htree : chart.Tree) (hget : chart.get? name = some state) :
    chart.validateState state = .ok () := by
  obtain ⟨path, hpath⟩ := htree.rooted _ _ hget
  have hlength := hpath.length_le_size
  refine bind_eq_ok.2 ⟨(), State.validate_eq_ok_iff.2 (htree.sound _ _ hget), ?_⟩
  exact validateChain_eq_ok htree.named hpath hget (by omega) (by simp)

/-- On a tree the check accepts exactly the consistent charts. -/
theorem validate_eq_ok_iff (htree : chart.Tree) :
    chart.validate = .ok () ↔ chart.Consistent := by
  refine ⟨consistent_of_validate htree.named, fun h => ?_⟩
  refine Chart.validate_eq_ok_iff.2 ⟨fun name state hget => ?_,
    htree.named.isolated_eq_nil_iff.2 h.referenced⟩
  refine validateMember_eq_ok_iff.2 ⟨htree.validateState_eq_ok hget, fun way hway => ?_⟩
  obtain ⟨target, htarget⟩ := Option.isSome_iff_exists.1 (h.known name state hget way hway)
  -- Two states of a tree always have a common ancestor.
  obtain ⟨path, hpath⟩ := htree.rooted _ _ hget
  obtain ⟨targetPath, htargetPath⟩ := htree.rooted _ _ htarget
  rw [htree.named _ _ hget, htree.commonAncestor?_eq hpath htargetPath]
  exact ⟨by simp [htarget], rfl⟩

end Tree

end Chart

end Statechart
