import Statechart.Proofs.Chart.Growth

/-!
# `Statechart.Proofs.Chart.Ancestry`: common ancestors in a tree

Two lineages of a tree begin at the root, so they share a beginning. `sharedPath` is the
longest one (`sharedPath_longest`), and `commonAncestor?` reads the depths off it
(`Tree.commonAncestor?_eq`).

The way down from the common ancestor to the second state has no more than one step exactly
if the second state or its parent is on the lineage of the first (`Tree.near_iff`).
-/

set_option autoImplicit false

namespace Statechart

namespace Chart

variable {chart : Chart} {name left right : String} {path leftPath rightPath : List String}

/-- `shared` is the longest path that two paths begin with. -/
structure LongestShared (shared left right : List String) : Prop where
  /-- The first path begins with it. -/
  inLeft : shared <+: left
  /-- The second path begins with it. -/
  inRight : shared <+: right
  /-- So does it with every other shared beginning. -/
  longest : ∀ other, other <+: left → other <+: right → other <+: shared

/-- The computed path is the longest one that both paths begin with. -/
theorem sharedPath_longest (left right : List String) :
    LongestShared (sharedPath left right) left right := by
  -- The paths are taken apart together, as long as their heads agree.
  induction left generalizing right with
  | nil => exact ⟨by simp [sharedPath], by simp [sharedPath], fun _ h _ => h⟩
  | cons a left ih =>
    cases right with
    | nil => exact ⟨by simp [sharedPath], by simp [sharedPath], fun _ _ h => h⟩
    | cons b right =>
      by_cases hab : a = b
      · subst hab
        obtain ⟨hleft, hright, hlongest⟩ := ih right
        rw [sharedPath, if_pos rfl]
        refine ⟨?_, ?_, ?_⟩
        · exact (List.prefix_cons_inj a).2 hleft
        · exact (List.prefix_cons_inj a).2 hright
        · intro other hother hother'
          cases other with
          | nil => exact List.nil_prefix
          | cons c other =>
            obtain ⟨rfl, hrest⟩ := List.cons_prefix_cons.1 hother
            obtain ⟨-, hrest'⟩ := List.cons_prefix_cons.1 hother'
            exact List.cons_prefix_cons.2 ⟨rfl, hlongest other hrest hrest'⟩
      · rw [sharedPath, if_neg hab]
        refine ⟨List.nil_prefix, List.nil_prefix, ?_⟩
        intro other hother hother'
        cases other with
        | nil => exact List.nil_prefix
        | cons c other =>
          obtain ⟨rfl, -⟩ := List.cons_prefix_cons.1 hother
          exact absurd (List.cons_prefix_cons.1 hother').1 hab

namespace Tree

/-- Two lineages have the root in common at least. -/
theorem sharedPath_ne_nil (htree : chart.Tree) (hleft : Lineage chart left leftPath)
    (hright : Lineage chart right rightPath) : sharedPath leftPath rightPath ≠ [] := by
  have hl := htree.head?_eq_root hleft
  have hr := htree.head?_eq_root hright
  cases leftPath with
  | nil => cases hl
  | cons a leftPath =>
    cases rightPath with
    | nil => cases hr
    | cons b rightPath =>
      cases hl
      cases hr
      simp [sharedPath]

/-- The depths of two states and of their common ancestor are read off their lineages. -/
theorem commonAncestor?_eq (htree : chart.Tree) (hleft : Lineage chart left leftPath)
    (hright : Lineage chart right rightPath) :
    chart.commonAncestor? left right
      = some ⟨(sharedPath leftPath rightPath).getLast (htree.sharedPath_ne_nil hleft hright),
          (sharedPath leftPath rightPath).length - 1, leftPath.length - 1,
          rightPath.length - 1⟩ := by
  have hl := htree.lineage?_eq_some_iff.2 hleft
  have hr := htree.lineage?_eq_some_iff.2 hright
  have hlast := List.getLast?_eq_some_getLast (htree.sharedPath_ne_nil hleft hright)
  simp [commonAncestor?, hl, hr, hlast]

/-- The second of two states is one step at most below what their lineages share exactly if
it is on the lineage of the first or its parent is. -/
theorem near_iff (htree : chart.Tree) (hleft : Lineage chart left leftPath)
    (hright : Lineage chart right rightPath) {state : State}
    (hget : chart.get? right = some state) :
    rightPath.length ≤ (sharedPath leftPath rightPath).length + 1
      ↔ right ∈ leftPath ∨ ∃ parent, state.parent = some parent ∧ parent ∈ leftPath := by
  have hshared := sharedPath_longest leftPath rightPath
  cases hparent : state.parent with
  | none =>
    -- The root is on every lineage, and its own is no longer than what is shared.
    have hroot : right = rootName := (htree.top _ _ hget).1 hparent
    subst hroot
    have hpath : rightPath = [rootName] := htree.root_lineage.unique hright
    subst hpath
    have hmem : rootName ∈ leftPath :=
      List.mem_of_mem_head? (htree.head?_eq_root hleft)
    simp [hmem]
  | some parent =>
    obtain ⟨above, habove, rfl⟩ := hright.exists_above hget hparent
    constructor
    · intro hlength
      rw [List.length_append, List.length_singleton] at hlength
      have hbegins : above <+: sharedPath leftPath (above ++ [right]) :=
        List.prefix_of_prefix_length_le (List.prefix_append _ _) hshared.inRight (by omega)
      have hmem : parent ∈ leftPath :=
        (hleft.mem_iff_prefix habove).2 (hbegins.trans hshared.inLeft)
      exact Or.inr ⟨parent, rfl, hmem⟩
    · intro h
      have hbegins : above <+: leftPath := by
        rcases h with hmem | ⟨other, hother, hmem⟩
        · exact (List.prefix_append _ _).trans ((hleft.mem_iff_prefix hright).1 hmem)
        · cases hother
          exact (hleft.mem_iff_prefix habove).1 hmem
      have hle := (hshared.longest above hbegins (List.prefix_append _ _)).length_le
      rw [List.length_append, List.length_singleton]
      omega

/-- What two lineages share, up to but without the second state, and the second state make up
the lineage of the second state, if that is near. -/
theorem shared_append_eq (hleft : Lineage chart left leftPath)
    (hright : Lineage chart right rightPath)
    (hnear : rightPath.length ≤ (sharedPath leftPath rightPath).length + 1) :
    (if right ∈ leftPath then (sharedPath leftPath rightPath).dropLast
        else sharedPath leftPath rightPath) ++ [right] = rightPath := by
  have hshared := sharedPath_longest leftPath rightPath
  have hlast := hright.getLast?
  split
  · next hmem =>
    -- The whole lineage is shared.
    have hbegins := (hleft.mem_iff_prefix hright).1 hmem
    have hsame : sharedPath leftPath rightPath = rightPath :=
      hshared.inRight.eq_of_length_le (hshared.longest _ hbegins (List.prefix_refl _)).length_le
    rw [hsame]
    exact List.dropLast_append_getLast? right hlast
  · next hmem =>
    obtain ⟨rest, hrest⟩ := hshared.inRight
    have hone : rest.length ≤ 1 := by
      have hlength := congrArg List.length hrest
      rw [List.length_append] at hlength
      omega
    cases rest with
    | nil =>
      rw [List.append_nil] at hrest
      exact absurd ((hleft.mem_iff_prefix hright).2 (hrest ▸ hshared.inLeft)) hmem
    | cons last rest =>
      cases rest with
      | cons => simp at hone
      | nil =>
        rw [← hrest, List.getLast?_concat] at hlast
        cases hlast
        exact hrest

end Tree

end Chart

end Statechart
