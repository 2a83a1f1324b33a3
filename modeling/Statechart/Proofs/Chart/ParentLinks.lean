import Mathlib.Data.List.Chain
import Mathlib.Data.List.Induction
import Mathlib.Logic.Relation
import Statechart.Proofs.Chart.Lineage

/-!
# `Statechart.Proofs.Chart.ParentLinks`: where parents lead

In a table of states with any parents, the links from a state to its parent and on can lead to
a state without parent (`EndsAtTop`), into a cycle (`RunsIntoCycle`), or to a parent that is not
there (`DanglesAt`). A state has one parent at most, so links lead to one dead end at most
(`DeadEnd.unique`) and to none if they run into a cycle: a state meets one of the three fates
only.

A state has a lineage exactly if its links end at a state without parent (`exists_lineage_iff`),
and its lineage is the path down from that state (`lineage_iff_leadsDown`).
-/

set_option autoImplicit false

namespace Statechart

open Relation (ReflTransGen TransGen)

namespace Chart

variable {chart : Chart} {name last last' parent parent' : String} {state : State}
  {path : List String}

/-! ### Links and where they lead -/

/-- A state names another one as its parent, which need not be there. -/
def Link (chart : Chart) (name parent : String) : Prop :=
  ∃ state, chart.get? name = some state ∧ state.parent = some parent

/-- The links of a state lead to a state without parent. -/
def EndsAtTop (chart : Chart) (name : String) : Prop :=
  ∃ top state, ReflTransGen chart.Link name top ∧ chart.get? top = some state
    ∧ state.parent = none

/-- The links of a state lead into a cycle. -/
def RunsIntoCycle (chart : Chart) (name : String) : Prop :=
  ∃ met, ReflTransGen chart.Link name met ∧ TransGen chart.Link met met

/-- The links of a state lead to a state whose parent is not there. -/
def DanglesAt (chart : Chart) (name last parent : String) : Prop :=
  ReflTransGen chart.Link name last ∧ chart.Link last parent ∧ chart.get? parent = none

/-- No links lead further. -/
def DeadEnd (chart : Chart) (name : String) : Prop :=
  ∀ parent, ¬ chart.Link name parent

/-- A state has one parent at most. -/
theorem link_rightUnique (chart : Chart) : Relator.RightUnique chart.Link := by
  intro name parent parent' ⟨state, hget, hparent⟩ ⟨state', hget', hparent'⟩
  rw [hget] at hget'
  cases hget'
  rw [hparent] at hparent'
  exact Option.some.inj hparent'

/-- From a state without parent no links lead further. -/
theorem deadEnd_of_top (hget : chart.get? name = some state) (hparent : state.parent = none) :
    chart.DeadEnd name := by
  intro parent ⟨state', hget', hparent'⟩
  rw [hget] at hget'
  cases hget'
  rw [hparent] at hparent'
  cases hparent'

/-- From a name that is no state's no links lead further. -/
theorem deadEnd_of_get?_eq_none (hnone : chart.get? name = none) : chart.DeadEnd name := by
  intro parent ⟨state, hget, _⟩
  rw [hnone] at hget
  cases hget

/-- Links lead to one dead end at most. -/
theorem DeadEnd.unique (hlast : chart.DeadEnd last) (hlast' : chart.DeadEnd last')
    (h : ReflTransGen chart.Link name last) (h' : ReflTransGen chart.Link name last') :
    last = last' := by
  have hstays : ∀ {a b : String}, chart.DeadEnd a → ReflTransGen chart.Link a b → a = b := by
    intro a b hdead hreach
    rcases hreach.cases_head with heq | ⟨parent, hlink, -⟩
    · exact heq
    · exact absurd hlink (hdead parent)
  rcases ReflTransGen.total_of_right_unique chart.link_rightUnique h h' with hto | hfrom
  · exact hstays hlast hto
  · exact (hstays hlast' hfrom).symm

/-- Above a state whose links lead into a cycle, they still do. -/
theorem RunsIntoCycle.above (h : chart.RunsIntoCycle name) (hlink : chart.Link name parent) :
    chart.RunsIntoCycle parent := by
  obtain ⟨met, hreach, hcycle⟩ := h
  rcases hreach.cases_head with rfl | ⟨parent', hlink', hrest⟩
  · -- The state is on the cycle, and so is its parent.
    obtain ⟨parent', hlink', hback⟩ := TransGen.head'_iff.1 hcycle
    cases chart.link_rightUnique hlink hlink'
    exact ⟨parent, .refl, TransGen.tail' hback hlink⟩
  · cases chart.link_rightUnique hlink hlink'
    exact ⟨met, hrest, hcycle⟩

/-- Links that lead to a dead end lead into no cycle. -/
theorem DeadEnd.not_runsIntoCycle (hlast : chart.DeadEnd last)
    (h : ReflTransGen chart.Link name last) : ¬ chart.RunsIntoCycle name := by
  intro hcycle
  induction h using ReflTransGen.head_induction_on with
  | refl =>
    obtain ⟨met, hreach, hround⟩ := hcycle
    rcases hreach.cases_head with rfl | ⟨parent, hlink, -⟩
    · obtain ⟨parent, hlink, -⟩ := TransGen.head'_iff.1 hround
      exact hlast parent hlink
    · exact hlast parent hlink
  | head hlink _ ih => exact ih (hcycle.above hlink)

/-- Links that lead to a missing parent come to a dead end there. -/
theorem DanglesAt.deadEnd (h : chart.DanglesAt name last parent) :
    ReflTransGen chart.Link name parent ∧ chart.DeadEnd parent := by
  obtain ⟨hreach, hlink, hnone⟩ := h
  exact ⟨hreach.tail hlink, deadEnd_of_get?_eq_none hnone⟩

/-- Links that lead to a state without parent lead into no cycle. -/
theorem EndsAtTop.not_runsIntoCycle (h : chart.EndsAtTop name) : ¬ chart.RunsIntoCycle name := by
  obtain ⟨top, state, hreach, hget, hparent⟩ := h
  exact (deadEnd_of_top hget hparent).not_runsIntoCycle hreach

/-- Links that lead to a missing parent lead into no cycle. -/
theorem DanglesAt.not_runsIntoCycle (h : chart.DanglesAt name last parent) :
    ¬ chart.RunsIntoCycle name :=
  h.deadEnd.2.not_runsIntoCycle h.deadEnd.1

/-- Links that lead to a state without parent lead to no missing one. -/
theorem EndsAtTop.not_danglesAt (h : chart.EndsAtTop name) :
    ¬ chart.DanglesAt name last parent := by
  intro hdangles
  obtain ⟨top, state, hreach, hget, hparent⟩ := h
  -- The top would be the parent that is not there.
  have hsame := (deadEnd_of_top hget hparent).unique hdangles.deadEnd.2 hreach
    hdangles.deadEnd.1
  rw [hsame, hdangles.2.2] at hget
  cases hget

/-- Links lead to one missing parent at most, and by way of one state. -/
theorem DanglesAt.unique (h : chart.DanglesAt name last parent)
    (h' : chart.DanglesAt name last' parent') : last = last' ∧ parent = parent' := by
  have hparent : parent = parent' :=
    h.deadEnd.2.unique h'.deadEnd.2 h.deadEnd.1 h'.deadEnd.1
  subst hparent
  -- Of two states below the missing parent, links lead from one to the other and no further.
  have hstays : ∀ {a b : String}, chart.Link a parent → chart.Link b parent →
      ReflTransGen chart.Link a b → a = b := by
    intro a b hlinkA hlinkB hreach
    rcases hreach.cases_head with heq | ⟨above, hlink, hrest⟩
    · exact heq
    · cases chart.link_rightUnique hlinkA hlink
      rcases hrest.cases_head with rfl | ⟨further, hlink', -⟩
      · exact absurd hlinkB (h.deadEnd.2 _)
      · exact absurd hlink' (h.deadEnd.2 _)
  refine ⟨?_, rfl⟩
  rcases ReflTransGen.total_of_right_unique chart.link_rightUnique h.1 h'.1 with hto | hfrom
  · exact hstays h.2.1 h'.2.1 hto
  · exact (hstays h'.2.1 h.2.1 hfrom).symm

/-! ### Paths from the top -/

/-- A path from a state without parent down to a state, each the parent of the next one. -/
structure LeadsDown (chart : Chart) (path : List String) (name : String) : Prop where
  /-- The first state has no parent. -/
  top : ∃ top state, path.head? = some top ∧ chart.get? top = some state ∧ state.parent = none
  /-- Each state is the parent of the next one. -/
  linked : path.IsChain fun upper lower => chart.Link lower upper
  /-- The last state is the given one. -/
  last : path.getLast? = some name
  /-- No state comes twice. -/
  nodup : path.Nodup

/-- A lineage is a path down from a state without parent. -/
theorem Lineage.leadsDown (h : Lineage chart name path) : chart.LeadsDown path name := by
  refine ⟨?_, ?_, h.getLast?, h.nodup⟩
  · induction h with
    | @top name state hget hparent => exact ⟨name, state, rfl, hget, hparent⟩
    | under _ _ _ ih =>
      obtain ⟨top, state, hhead, htop⟩ := ih
      exact ⟨top, state, by simp [List.head?_append, hhead], htop⟩
  · induction h with
    | top => exact List.isChain_singleton _
    | under hget hparent habove ih =>
      refine List.isChain_append.2 ⟨ih, List.isChain_singleton _, ?_⟩
      intro upper hupper lower hlower
      rw [habove.getLast?] at hupper
      cases hupper
      cases hlower
      exact ⟨_, hget, hparent⟩

/-- A path down from a state without parent is a lineage. The induction takes the path apart from
its lower end, as lineages are built. -/
theorem LeadsDown.lineage (h : chart.LeadsDown path name) : Lineage chart name path := by
  -- Without its last state the path leads down to the parent of that state.
  induction path using List.reverseRecOn generalizing name with
  | nil => cases h.last
  | append_singleton path last ih =>
    obtain ⟨⟨top, state, hhead, hget, hparent⟩, hlinked, hlast, hnodup⟩ := h
    rw [List.getLast?_concat] at hlast
    cases hlast
    cases hparents : path.getLast? with
    | none =>
      rw [List.getLast?_eq_none_iff] at hparents
      subst hparents
      cases hhead
      exact .top hget hparent
    | some parent =>
      obtain ⟨hupper, -, hlink⟩ := List.isChain_append.1 hlinked
      obtain ⟨own, hown, hownParent⟩ := hlink parent hparents last rfl
      have hne : path ≠ [] := by
        rintro rfl
        cases hparents
      rw [List.head?_append_of_ne_nil path hne] at hhead
      refine .under hown hownParent (ih ?_)
      exact ⟨⟨top, state, hhead, hget, hparent⟩, hupper, hparents,
        (List.nodup_append.1 hnodup).1⟩

/-- The lineage of a state is the path that leads down to it. -/
theorem lineage_iff_leadsDown : Lineage chart name path ↔ chart.LeadsDown path name :=
  ⟨Lineage.leadsDown, LeadsDown.lineage⟩

/-- A state has a lineage exactly if its links end at a state without parent. -/
theorem exists_lineage_iff : (∃ path, Lineage chart name path) ↔ chart.EndsAtTop name := by
  constructor
  · rintro ⟨path, h⟩
    induction h with
    | @top name state hget hparent => exact ⟨name, state, .refl, hget, hparent⟩
    | under hget hparent _ ih =>
      obtain ⟨top, state, hreach, htop⟩ := ih
      exact ⟨top, state, .head ⟨_, hget, hparent⟩ hreach, htop⟩
  · rintro ⟨top, state, hreach, hget, hparent⟩
    induction hreach using ReflTransGen.head_induction_on with
    | refl => exact ⟨[top], .top hget hparent⟩
    | head hlink _ ih =>
      obtain ⟨path, habove⟩ := ih
      obtain ⟨state, hget, hparent⟩ := hlink
      exact ⟨_, .under hget hparent habove⟩

end Chart

end Statechart
