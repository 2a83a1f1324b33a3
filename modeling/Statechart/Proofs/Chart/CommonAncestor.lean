import Statechart.Proofs.Chart.Ancestry
import Statechart.Proofs.Chart.Built
import Statechart.Proofs.Chart.SingleTree

/-!
# `Statechart.Proofs.Chart.CommonAncestor`: the nearest shared state

`commonAncestor?` compares two lineages name by name from the root on. What it answers is the
nearest state that is on both, because every state on both lineages has its own lineage as a
beginning of both (`Tree.length_le_of_onLineage`).

* `commonAncestor?_swap`: with the states the other way round, the answer is the same with the
  two depths exchanged, in any chart.
* `Tree.length_le_iff`: the second state is on the lineage of the first exactly if all of its
  own lineage is shared.
* `common_ancestor_law`: in a built chart two states always have a common ancestor, and
  `Meeting` says what its depths tell about the states.
-/

set_option autoImplicit false

namespace Statechart

namespace CommonAncestor

/-- The answer for the two states the other way round. -/
def swap (meeting : CommonAncestor) : CommonAncestor :=
  ⟨meeting.ancestor, meeting.depth, meeting.rightDepth, meeting.leftDepth⟩

/-- The other way round, the difference of the depths changes its sign. -/
theorem depthDifference_swap (meeting : CommonAncestor) :
    meeting.swap.depthDifference = -meeting.depthDifference := by
  show (meeting.rightDepth : Int) - meeting.leftDepth
    = -((meeting.leftDepth : Int) - meeting.rightDepth)
  omega

end CommonAncestor

namespace Chart

variable {chart : Chart} {name other left right : String}
  {path upper leftPath rightPath : List String} {state : State}

/-- The lineage of a state leads through another one, or to it. -/
def OnLineage (chart : Chart) (other name : String) : Prop :=
  ∃ path, chart.lineage? name = some path ∧ other ∈ path

/-- What the nearest common ancestor of two states tells about them. -/
structure Meeting (chart : Chart) (left right : String) (rightState : State)
    (meeting : CommonAncestor) : Prop where
  /-- The ancestor is on both lineages. -/
  shared : chart.OnLineage meeting.ancestor left ∧ chart.OnLineage meeting.ancestor right
  /-- No state on both is deeper. -/
  nearest : ∀ other, chart.OnLineage other left → chart.OnLineage other right →
    ∃ depth, chart.depth? other = some depth ∧ depth ≤ meeting.depth
  /-- The depths are those of the three states. -/
  depths : chart.depth? meeting.ancestor = some meeting.depth
    ∧ chart.depth? left = some meeting.leftDepth ∧ chart.depth? right = some meeting.rightDepth
  /-- The ancestor is not deeper than the two states. -/
  above : meeting.depth ≤ meeting.leftDepth ∧ meeting.depth ≤ meeting.rightDepth
  /-- The other way round, the depths are exchanged. -/
  swapped : chart.commonAncestor? right left = some meeting.swap
    ∧ meeting.swap.depthDifference = -meeting.depthDifference
  /-- There is nothing to descend exactly if the second state is on the lineage of the first. -/
  level : meeting.descent = 0 ↔ chart.OnLineage right left
  /-- There is one level at most to descend exactly if the second state or its parent is. -/
  near : meeting.descent ≤ 1 ↔ chart.OnLineage right left
    ∨ ∃ parent, rightState.parent = some parent ∧ chart.OnLineage parent left
  /-- A second state that near is one level deeper exactly if the first is its parent. -/
  child : meeting.descent ≤ 1 →
    (meeting.depthDifference = -1 ↔ rightState.parent = some left)

/-! ### Either state first -/

/-- Which of the two paths comes first is no matter. -/
theorem LongestShared.swap {shared : List String} (h : LongestShared shared leftPath rightPath) :
    LongestShared shared rightPath leftPath :=
  ⟨h.inRight, h.inLeft, fun other hright hleft => h.longest other hleft hright⟩

/-- Two paths share the same beginning the other way round. -/
theorem sharedPath_comm (leftPath rightPath : List String) :
    sharedPath leftPath rightPath = sharedPath rightPath leftPath := by
  have h := sharedPath_longest leftPath rightPath
  have h' := (sharedPath_longest rightPath leftPath).swap
  -- Each of the two is a shared beginning, and so no longer than the other.
  have hle := (h.longest _ h'.inLeft h'.inRight).length_le
  exact (h'.longest _ h.inLeft h.inRight).eq_of_length_le hle

/-- The common ancestor of two states is the same the other way round. -/
theorem commonAncestor?_swap (chart : Chart) (left right : String) :
    chart.commonAncestor? right left
      = (chart.commonAncestor? left right).map CommonAncestor.swap := by
  unfold commonAncestor?
  cases hleft : chart.lineage? left with
  | none => cases chart.lineage? right <;> rfl
  | some leftPath =>
    cases hright : chart.lineage? right with
    | none => rfl
    | some rightPath =>
      simp only [Option.bind_eq_bind, Option.bind_some, sharedPath_comm rightPath leftPath]
      cases (sharedPath leftPath rightPath).getLast? <;> rfl

/-! ### Shared beginnings of lineages -/

/-- A beginning of a lineage is the lineage of its last state. -/
theorem Lineage.of_prefix (h : Lineage chart name path) (hbegins : upper <+: path)
    (hlast : upper.getLast? = some other) : Lineage chart other upper := by
  induction h with
  | @top name state hget hparent =>
    rcases List.prefix_concat_iff.1 (show upper <+: [] ++ [name] from hbegins) with hwhole | hnil
    · subst hwhole
      cases hlast
      exact .top hget hparent
    · rw [List.prefix_nil.1 hnil] at hlast
      cases hlast
  | @under name parent state path hget hparent habove ih =>
    rcases List.prefix_concat_iff.1 hbegins with hwhole | hshorter
    · subst hwhole
      rw [List.getLast?_concat] at hlast
      cases hlast
      exact .under hget hparent habove
    · exact ih hshorter

/-- If the lineage of a state is known, another state is on it exactly if the path has its name. -/
theorem onLineage_iff (hnamed : chart.Named) (h : Lineage chart name path) :
    chart.OnLineage other name ↔ other ∈ path := by
  have hpath : chart.lineage? name = some path := (lineage?_eq_some_iff hnamed).2 h
  simp [OnLineage, hpath]

/-- If all but the last state of a lineage is shared, that state is one level deeper than the
other one exactly if it is a child of it. -/
theorem Lineage.length_eq_iff (hleft : Lineage chart left leftPath)
    (hright : Lineage chart right rightPath) (hget : chart.get? right = some state)
    (hnear : rightPath.length ≤ (sharedPath leftPath rightPath).length + 1) :
    rightPath.length = leftPath.length + 1 ↔ state.parent = some left := by
  constructor
  · intro hlength
    have hshared := sharedPath_longest leftPath rightPath
    -- The first lineage is shared as a whole, so the second is longer by one state.
    have hwhole : sharedPath leftPath rightPath = leftPath :=
      hshared.inLeft.eq_of_length_le (by omega)
    have hbegins : leftPath <+: rightPath := hwhole ▸ hshared.inRight
    cases hright with
    | top =>
      have hpositive := List.length_pos_iff.2 hleft.ne_nil
      rw [List.length_singleton] at hlength
      omega
    | @under _ parent state' above hget' hparent habove =>
      rw [hget] at hget'
      cases hget'
      rw [List.length_append, List.length_singleton] at hlength
      have hsame : leftPath = above :=
        (List.prefix_of_prefix_length_le hbegins (List.prefix_append _ _) (by omega)).eq_of_length
          (by omega)
      have hlast := habove.getLast?
      rw [← hsame, hleft.getLast?] at hlast
      rw [hparent, hlast]
  · intro hparent
    obtain ⟨above, habove, hsplit⟩ := hright.exists_above hget hparent
    rw [hsplit, habove.unique hleft, List.length_append, List.length_singleton]

namespace Tree

/-- The own lineage of a state on two lineages is not longer than what the two share. -/
theorem length_le_of_onLineage (htree : chart.Tree) (hleft : Lineage chart left leftPath)
    (hright : Lineage chart right rightPath) (hinLeft : chart.OnLineage other left)
    (hinRight : chart.OnLineage other right) :
    ∃ upper, Lineage chart other upper
      ∧ upper.length ≤ (sharedPath leftPath rightPath).length := by
  have hmem : other ∈ leftPath := (onLineage_iff htree.named hleft).1 hinLeft
  have hmem' : other ∈ rightPath := (onLineage_iff htree.named hright).1 hinRight
  obtain ⟨upper, hupper, hbegins⟩ := hleft.exists_prefix hmem
  have hbegins' : upper <+: rightPath := (hright.mem_iff_prefix hupper).1 hmem'
  exact ⟨upper, hupper,
    ((sharedPath_longest leftPath rightPath).longest upper hbegins hbegins').length_le⟩

/-- The second state is on the lineage of the first exactly if all of its lineage is shared. -/
theorem length_le_iff (htree : chart.Tree) (hleft : Lineage chart left leftPath)
    (hright : Lineage chart right rightPath) :
    rightPath.length ≤ (sharedPath leftPath rightPath).length ↔ chart.OnLineage right left := by
  have hshared := sharedPath_longest leftPath rightPath
  rw [onLineage_iff htree.named hleft, hleft.mem_iff_prefix hright]
  constructor
  · intro hlength
    rw [← hshared.inRight.eq_of_length_le hlength]
    exact hshared.inLeft
  · exact fun hbegins => (hshared.longest rightPath hbegins (List.prefix_refl _)).length_le

/-- Two states of a tree have a common ancestor. -/
theorem exists_meeting (htree : chart.Tree) {leftState rightState : State}
    (hleft : chart.get? left = some leftState) (hright : chart.get? right = some rightState) :
    ∃ meeting, chart.commonAncestor? left right = some meeting
      ∧ chart.Meeting left right rightState meeting := by
  obtain ⟨leftPath, hleftPath⟩ := htree.rooted left leftState hleft
  obtain ⟨rightPath, hrightPath⟩ := htree.rooted right rightState hright
  have hshared := sharedPath_longest leftPath rightPath
  have hne := htree.sharedPath_ne_nil hleftPath hrightPath
  have hlast := List.getLast_mem hne
  -- What is shared is the lineage of the common ancestor.
  have hancestor := hleftPath.of_prefix hshared.inLeft (List.getLast?_eq_some_getLast hne)
  have hmeeting := htree.commonAncestor?_eq hleftPath hrightPath
  -- No lineage is empty, so lengths compare as depths do.
  have hpositive : 0 < (sharedPath leftPath rightPath).length := List.length_pos_iff.2 hne
  have hinLeft : (sharedPath leftPath rightPath).length ≤ leftPath.length :=
    hshared.inLeft.length_le
  have hinRight : (sharedPath leftPath rightPath).length ≤ rightPath.length :=
    hshared.inRight.length_le
  refine ⟨_, hmeeting, ?_⟩
  refine
    { shared := ⟨(onLineage_iff htree.named hleftPath).2 (hshared.inLeft.subset hlast),
        (onLineage_iff htree.named hrightPath).2 (hshared.inRight.subset hlast)⟩
      nearest := ?nearest
      depths := ⟨htree.depth?_eq hancestor, htree.depth?_eq hleftPath,
        htree.depth?_eq hrightPath⟩
      above := ⟨Nat.sub_le_sub_right hinLeft 1, Nat.sub_le_sub_right hinRight 1⟩
      swapped := ⟨?swapped, CommonAncestor.depthDifference_swap _⟩
      level := ?level
      near := ?near
      child := ?child }
  case nearest =>
    intro other honLeft honRight
    obtain ⟨upper, hupper, hlength⟩ :=
      htree.length_le_of_onLineage hleftPath hrightPath honLeft honRight
    exact ⟨upper.length - 1, htree.depth?_eq hupper, Nat.sub_le_sub_right hlength 1⟩
  case swapped =>
    rw [commonAncestor?_swap, hmeeting, Option.map_some]
  case level =>
    rw [← htree.length_le_iff hleftPath hrightPath]
    show rightPath.length - 1 - ((sharedPath leftPath rightPath).length - 1) = 0 ↔ _
    omega
  case near =>
    have hparents : ∀ parent, chart.OnLineage parent left ↔ parent ∈ leftPath :=
      fun _ => onLineage_iff htree.named hleftPath
    simp only [hparents]
    rw [← htree.near_iff hleftPath hrightPath hright]
    show rightPath.length - 1 - ((sharedPath leftPath rightPath).length - 1) ≤ 1 ↔ _
    omega
  case child =>
    intro hdescent
    change rightPath.length - 1 - ((sharedPath leftPath rightPath).length - 1) ≤ 1 at hdescent
    rw [← hleftPath.length_eq_iff hrightPath hright (by omega)]
    show ((leftPath.length - 1 : Nat) : Int) - (rightPath.length - 1 : Nat) = -1 ↔ _
    omega

end Tree

/-- A name that is no state's has no common ancestor with any other. -/
theorem commonAncestor?_eq_none (hnone : chart.get? left = none ∨ chart.get? right = none) :
    chart.commonAncestor? left right = none := by
  unfold commonAncestor?
  rcases hnone with hleft | hright
  · rw [lineage?_eq_none hleft]
    rfl
  · rw [lineage?_eq_none hright]
    cases chart.lineage? left <;> rfl

/-- Take a built chart. Two of its states always have a common ancestor, and that is what
`Meeting` says: the deepest state on both lineages, with the true depths, and with all that the
engine reads off them. A name that is no state's has none. -/
theorem common_ancestor_law (hbuilt : chart.Built) :
    (∀ left right leftState rightState, chart.get? left = some leftState →
        chart.get? right = some rightState →
        ∃ meeting, chart.commonAncestor? left right = some meeting
          ∧ chart.Meeting left right rightState meeting)
      ∧ ∀ left right, chart.get? left = none ∨ chart.get? right = none →
        chart.commonAncestor? left right = none :=
  ⟨fun _ _ _ _ hleft hright => hbuilt.tree.exists_meeting hleft hright,
    fun _ _ hnone => commonAncestor?_eq_none hnone⟩

/-- Two branches below one state, one of two levels and one of a single level. -/
def orchard : Chart :=
  [Addition.start (State.new "trunk" []) none, .start (State.new "bough" []) (some "trunk"),
    .plain (State.new "twig" []) (some "bough"),
    .plain (State.new "shoot" []) (some "trunk")].foldl perform new

/-- The two branches meet at the state below the root, one level above the shorter one. -/
theorem orchard_meeting :
    ∃ state, orchard.get? "shoot" = some state
      ∧ orchard.commonAncestor? "twig" "shoot" = some ⟨"trunk", 1, 3, 2⟩
      ∧ orchard.Meeting "twig" "shoot" state ⟨"trunk", 1, 3, 2⟩
      ∧ orchard.commonAncestor? "twig" "root" = none := by
  have hbuilt : orchard.Built := Or.inl ⟨_, rfl⟩
  obtain ⟨hstates, hnone⟩ := common_ancestor_law hbuilt
  have htwig : orchard.get? "twig" = some ⟨"twig", some "bough", none, []⟩ := rfl
  have hshoot : orchard.get? "shoot" = some ⟨"shoot", some "trunk", none, []⟩ := rfl
  have hanswer : orchard.commonAncestor? "twig" "shoot" = some ⟨"trunk", 1, 3, 2⟩ := by
    decide
  obtain ⟨meeting, hmeeting, hholds⟩ := hstates "twig" "shoot" _ _ htwig hshoot
  rw [hanswer] at hmeeting
  cases hmeeting
  exact ⟨_, hshoot, hanswer, hholds, hnone "twig" "root" (Or.inr rfl)⟩

end Chart

end Statechart
