import Statechart.Proofs.Blueprint.Order
import Statechart.Proofs.Blueprint.WellFormed
import Statechart.Proofs.Chart.Growth

/-!
# `Statechart.Proofs.Blueprint.Placement`: charts put together by hand

The declared states can also be added to a new chart one by one, each as a start substate or
as a plain one (`Blueprint.place`). For a well-formed blueprint and an order that puts parents
first every addition succeeds, and the chart shows the layout of the blueprint below the root
(`WellFormed.exists_foldlM_place`). So the order makes no difference to the chart.
-/

set_option autoImplicit false

namespace Statechart

namespace Blueprint

variable {blueprint : Blueprint} {registry : Registry} {made order : List String}
  {name start : String} {plan : StatePlan} {chart : Chart}

/-- Adds a declared state with its compiled ways out to a chart: the start state below the
root, the start substate of its parent as such, and every other state as a plain one below
its parent. -/
def place (blueprint : Blueprint) (registry : Registry) (chart : Chart) (name : String) :
    Except Fault Chart :=
  match blueprint.states.get? name with
  | none => .ok chart
  | some plan => do
    let ways ← plan.ownWays registry name
    let parent := blueprint.effectiveParent? name
    if plan.start then chart.addStart (State.new name ways) none
    else if parent.bind blueprint.startOf? = some name then
      chart.addStart (State.new name ways) parent
    else chart.addState (State.new name ways) parent

namespace WellFormed

/-- A state that delegates in the layout below the root has no ways out of its own. -/
theorem rooted_ways_eq_nil {above : String}
    (hsome : ((blueprint.layout registry).rooted start).start above = some name) :
    ((blueprint.layout registry).rooted start).ways above = [] := by
  by_cases hroot : above = rootName
  · subst hroot
    simp [Layout.rooted]
  · rw [Layout.rooted_start _ hroot] at hsome
    rw [Layout.rooted_ways _ hroot]
    exact ways_eq_nil (Option.isSome_iff_exists.2 ⟨name, hsome⟩)

variable (h : blueprint.WellFormed registry) (hstart : blueprint.Starts start)
include h hstart

/-- In the layout below the root, just one state may delegate to a declared state: the one
that it is placed below. -/
theorem eq_above_of_rooted_start {other : String}
    (hother : ((blueprint.layout registry).rooted start).start other = some name) :
    other = (blueprint.effectiveParent? name).getD rootName := by
  by_cases hroot : other = rootName
  · subst hroot
    rw [Layout.rooted_start_root, Option.some.injEq] at hother
    rw [← hother, h.parent_of_starts hstart]
    rfl
  · rw [Layout.rooted_start _ hroot] at hother
    have hparent : blueprint.effectiveParent? name = some other :=
      h.parent_of_delegates (startOf?_eq_some_iff.1 hother)
    rw [hparent]
    rfl

/-- Placing a state is adding it below its parent, or below the root. -/
theorem place_eq (hget : blueprint.states.get? name = some plan) (chart : Chart) :
    blueprint.place registry chart name
      = chart.add (State.new name (blueprint.ways registry name))
          (blueprint.effectiveParent? name)
          (((blueprint.layout registry).rooted start).start
            ((blueprint.effectiveParent? name).getD rootName) = some name) := by
  have hways : ∀ f : List Transition → Except Fault Chart,
      (plan.ownWays registry name >>= f) = f (blueprint.ways registry name) := by
    intro f
    rw [h.ownWays_eq hget]
    rfl
  unfold place
  rw [hget]
  simp only [hways]
  -- The three calls of the definition: the start state, a start substate, a plain state.
  by_cases hmarked : plan.start
  · have hstarts : blueprint.Starts name := ⟨plan, hget, hmarked⟩
    have hsame : start = name := h.only start name hstart hstarts
    simp [hmarked, h.parent_of_starts hstarts, Layout.rooted_start_root, hsame, Chart.addStart]
  · have hother : start ≠ name := by
      intro hsame
      rw [hsame] at hstart
      exact hmarked ((starts_iff hget).1 hstart)
    cases hparent : blueprint.effectiveParent? name with
    | none =>
      simp [hmarked, Layout.rooted_start_root, hother, Chart.addState]
    | some parent =>
      have hne : parent ≠ rootName := (h.named parent (h.parent_declared hparent)).2
      simp only [hmarked, Option.bind_some, Option.getD_some, Layout.rooted_start _ hne]
      by_cases hdelegates : blueprint.startOf? parent = some name
      · simp [hdelegates, layout, Chart.addStart]
      · simp [hdelegates, layout, Chart.addState]

/-- A state that comes after its parent can be placed, and the chart shows it then. -/
theorem exists_place (hordered : Ordered blueprint.Under (made ++ [name]))
    (hget : blueprint.states.get? name = some plan)
    (hnamed : chart.Named)
    (hshown : ((blueprint.layout registry).rooted start).Shown (rootName :: made)
      chart.states) :
    ∃ chart', blueprint.place registry chart name = .ok chart'
      ∧ (∃ state parent isStart, chart.add state parent isStart = .ok chart')
      ∧ ((blueprint.layout registry).rooted start).Shown (rootName :: (made ++ [name]))
          chart'.states := by
  have hname : (blueprint.states.get? name).isSome := by simp [hget]
  have hne : name ≠ rootName := (h.named name hname).2
  have hfresh : name ∉ rootName :: made := by
    intro hmem
    rcases List.mem_cons.1 hmem with hroot | hmem
    · exact hne hroot
    · exact hordered.last_not_mem hmem
  have hlater : ∀ child, ((blueprint.layout registry).rooted start).start name = some child →
      child ∉ (rootName :: made) ++ [name] := by
    intro child hchild hmem
    rw [Layout.rooted_start _ hne] at hchild
    have hdelegates := startOf?_eq_some_iff.1 hchild
    rcases List.mem_cons.1 hmem with hroot | hmem
    · exact (h.named child (h.declared name child hdelegates)).2 hroot
    · exact hordered.not_mem_of_relies (h.parent_of_delegates hdelegates) hmem
  -- The state goes below its parent, or below the root, and both are there.
  generalize habove : (blueprint.effectiveParent? name).getD rootName = above
  have hmade : above ∈ rootName :: made := by
    rw [← habove]
    cases hparent : blueprint.effectiveParent? name with
    | none => simp
    | some parent => exact List.mem_cons_of_mem _ (hordered.behind made name [] rfl parent hparent)
  have hadopt := hshown.adopt hfresh hlater hmade fun other _ hother => by
    rw [h.eq_above_of_rooted_start hstart hother, habove]
  have hnew : (State.new name (blueprint.ways registry name)).under above
      = ⟨name, ((blueprint.layout registry).rooted start).parent name, none,
        ((blueprint.layout registry).rooted start).ways name⟩ := by
    rw [Layout.rooted_parent _ hne, Layout.rooted_ways _ hne, ← habove]
    rfl
  have hadd : chart.add (State.new name (blueprint.ways registry name))
      (blueprint.effectiveParent? name)
      (((blueprint.layout registry).rooted start).start above = some name)
      = .ok (chart.adding
        (((blueprint.layout registry).rooted start).state (rootName :: made) above)
        (State.new name (blueprint.ways registry name))
        (((blueprint.layout registry).rooted start).start above = some name)) := by
    refine (Chart.add_eq_ok_iff hnamed).2 ⟨h.sound_new hget, hshown.get?_eq_none hfresh, rfl,
      _, ?_, fun hsome => ?_, rfl⟩
    · rw [habove]
      exact hshown.get?_eq hmade
    · have hsome' := of_decide_eq_true hsome
      exact Layout.state_free hsome' hfresh (rooted_ways_eq_nil hsome')
  refine ⟨_, ?_, ⟨_, _, _, hadd⟩, ?_⟩
  · rw [h.place_eq hstart hget, habove, hadd]
  · unfold Chart.adding
    rw [Layout.state_name, hnew]
    exact hadopt

/-- Placing all states in an order that puts parents first succeeds at every step. -/
theorem exists_foldlM_place (hordered : Ordered blueprint.Under order)
    (hknown : ∀ name ∈ order, (blueprint.states.get? name).isSome) :
    ∃ chart, order.foldlM (blueprint.place registry) Chart.new = .ok chart ∧ chart.Grown
      ∧ ((blueprint.layout registry).rooted start).Shown (rootName :: order) chart.states := by
  induction order using List.reverseRecOn with
  | nil =>
    -- The new chart shows the root alone, which does not delegate yet.
    refine ⟨Chart.new, rfl, .new, fun name => ?_⟩
    have hfresh : start ∉ [rootName] := by
      obtain ⟨plan, hget, -⟩ := hstart
      simpa using (h.named start (by simp [hget])).2
    have hlookup : Chart.new.states.get? name
        = if name = rootName then some (State.new rootName []) else none :=
      Chart.get?_new name
    rw [hlookup]
    by_cases hroot : name = rootName
    · rw [if_pos hroot, if_pos (by simp [hroot]), hroot, Layout.rooted_state_root _ hfresh]
    · rw [if_neg hroot, if_neg (by simp [hroot])]
  | append_singleton made name ih =>
    have hknown' : ∀ other ∈ made, (blueprint.states.get? other).isSome :=
      fun other hother => hknown other (by simp [hother])
    obtain ⟨chart, hchart, hgrown, hshown⟩ := ih hordered.left_of_append hknown'
    obtain ⟨plan, hget⟩ := Option.isSome_iff_exists.1 (hknown name (by simp))
    obtain ⟨chart', hplace, ⟨state, parent, isStart, hadd⟩, hshown'⟩ :=
      h.exists_place hstart hordered hget hgrown.tree.named hshown
    refine ⟨chart', ?_, hgrown.add hadd, hshown'⟩
    rw [foldlM_append_eq_ok]
    exact ⟨chart, hchart, by simpa using hplace⟩

end WellFormed

end Blueprint

end Statechart
