import Mathlib.Data.List.Nodup
import Statechart.Chart.Lineage
import Statechart.Dict.Lemmas

/-!
# `Statechart.Proofs.Chart.Lineage`: chains of parents

`Chart.lineage?` walks up the parents of a state with a bound on the number of steps.
`Lineage chart name path` says the same without a bound: the parents of `name` end at a
state without parent, and `path` lists them from that state down to `name`.

* `Lineage.unique`: a state has one lineage at most.
* `Lineage.exists_prefix`: the lineages of the states on a path are the beginnings of the
  path.
* `Lineage.nodup`: no path meets a state twice. A state that came twice would have two
  lineages of different lengths.
* `lineage?_eq_some_iff`: the bounded walk finds exactly the lineages. It needs only that
  every state stands under its own name. The bound is never the reason for a `none`,
  because a path without repetition is no longer than the table of states.
-/

set_option autoImplicit false

namespace Statechart

namespace Chart

/-- Every state stands under its own name. -/
def Named (chart : Chart) : Prop :=
  ∀ name state, chart.get? name = some state → state.name = name

/-- The parents of `name` end, and `path` lists them, the last one first and `name` last. -/
inductive Lineage (chart : Chart) : String → List String → Prop where
  /-- A state without parent is its own path. -/
  | top {name : String} {state : State} (hget : chart.get? name = some state)
      (hparent : state.parent = none) : Lineage chart name [name]
  /-- A state with a parent comes after the path of the parent. -/
  | under {name parent : String} {state : State} {path : List String}
      (hget : chart.get? name = some state) (hparent : state.parent = some parent)
      (habove : Lineage chart parent path) : Lineage chart name (path ++ [name])

variable {chart : Chart} {name other parent : String} {state : State} {path : List String}

namespace Lineage

/-- A lineage has at least the state itself. -/
theorem ne_nil (h : Lineage chart name path) : path ≠ [] := by
  cases h <;> simp

/-- A lineage ends with the state itself. -/
theorem getLast? (h : Lineage chart name path) : path.getLast? = some name := by
  cases h <;> simp

/-- A state is on its own lineage. -/
theorem self_mem (h : Lineage chart name path) : name ∈ path := by
  cases h <;> simp

/-- A state has one lineage at most. -/
theorem unique (h : Lineage chart name path) :
    ∀ {path' : List String}, Lineage chart name path' → path' = path := by
  -- Both lineages look up the same state, so they end or go on at the same time.
  induction h with
  | top hget hparent =>
    intro path' h'
    cases h' with
    | top => rfl
    | under hget' hparent' =>
      rw [hget] at hget'
      cases hget'
      rw [hparent] at hparent'
      cases hparent'
  | under hget hparent _ ih =>
    intro path' h'
    cases h' with
    | top hget' hparent' =>
      rw [hget] at hget'
      cases hget'
      rw [hparent] at hparent'
      cases hparent'
    | under hget' hparent' habove' =>
      rw [hget] at hget'
      cases hget'
      rw [hparent] at hparent'
      cases hparent'
      rw [ih habove']

/-- The lineage of a state on a path is the beginning of the path that ends with the
state. -/
theorem exists_prefix (h : Lineage chart name path) (hmem : other ∈ path) :
    ∃ upper, Lineage chart other upper ∧ upper <+: path := by
  -- The state is the last one of the path, or it is on the path of the parent.
  induction h with
  | @top name state hget hparent =>
    rw [List.mem_singleton] at hmem
    subst hmem
    exact ⟨[other], .top hget hparent, List.prefix_refl _⟩
  | @under name parent state path hget hparent habove ih =>
    rcases List.mem_append.1 hmem with hmem | hmem
    · obtain ⟨upper, hupper, hbegins⟩ := ih hmem
      exact ⟨upper, hupper, hbegins.trans (List.prefix_append _ _)⟩
    · rw [List.mem_singleton] at hmem
      subst hmem
      exact ⟨path ++ [other], .under hget hparent habove, List.prefix_refl _⟩

/-- Every name on a path is the name of a state. -/
theorem exists_get? (h : Lineage chart name path) (hmem : other ∈ path) :
    ∃ state, chart.get? other = some state := by
  obtain ⟨upper, hupper, -⟩ := h.exists_prefix hmem
  cases hupper with
  | top hget => exact ⟨_, hget⟩
  | under hget => exact ⟨_, hget⟩

/-- No state comes twice on a path. -/
theorem nodup (h : Lineage chart name path) : path.Nodup := by
  induction h with
  | top => exact List.nodup_singleton _
  | @under name parent state path hget hparent habove ih =>
    have hfresh : name ∉ path := by
      intro hmem
      -- The state would have its path as a proper beginning of itself.
      obtain ⟨upper, hupper, hbegins⟩ := habove.exists_prefix hmem
      have hsame : upper = path ++ [name] := (under hget hparent habove).unique hupper
      have hlength := hbegins.length_le
      rw [hsame, List.length_append, List.length_singleton] at hlength
      omega
    exact List.nodup_append.2 ⟨ih, List.nodup_singleton _, fun a ha b hb => by
      rw [List.mem_singleton] at hb
      subst hb
      exact fun heq => hfresh (heq ▸ ha)⟩

/-- A path is no longer than the number of states. -/
theorem length_le_size (h : Lineage chart name path) : path.length ≤ chart.size :=
  chart.states.length_le_size h.nodup fun _ hmem => Option.isSome_iff_exists.2 (h.exists_get? hmem)

/-- A name is on the path of another state exactly if its own path is a beginning of that
path. -/
theorem mem_iff_prefix (h : Lineage chart name path) {upper : List String}
    (hupper : Lineage chart other upper) : other ∈ path ↔ upper <+: path := by
  constructor
  · intro hmem
    obtain ⟨upper', hupper', hbegins⟩ := h.exists_prefix hmem
    rwa [hupper.unique hupper'] at hbegins
  · exact fun hbegins => hbegins.subset hupper.self_mem

/-- The path of a state with a parent is the path of the parent with the state behind it. -/
theorem exists_above (h : Lineage chart name path) (hget : chart.get? name = some state)
    (hparent : state.parent = some parent) :
    ∃ above, Lineage chart parent above ∧ path = above ++ [name] := by
  cases h with
  | top hget' hparent' =>
    rw [hget] at hget'
    cases hget'
    rw [hparent] at hparent'
    cases hparent'
  | under hget' hparent' habove =>
    rw [hget] at hget'
    cases hget'
    rw [hparent] at hparent'
    cases hparent'
    exact ⟨_, habove, rfl⟩

end Lineage

/-- A name that is no state's has no lineage. -/
theorem lineage?_eq_none (hnone : chart.get? name = none) : chart.lineage? name = none := by
  unfold lineage?
  cases chart.size with
  | zero => rfl
  | succ bound => simp [chain?, hnone]

/-- The bounded walk up the parents gives the lineages, from below, that fit the bound. -/
theorem chain?_eq_some_iff (hnamed : chart.Named) (bound : Nat) (chain : List String) :
    chart.chain? bound name = some chain
      ↔ Lineage chart name chain.reverse ∧ chain.length ≤ bound := by
  -- The walk puts each state in front of its parents, so its chain is the path from below.
  induction bound generalizing name chain with
  | zero =>
    simp only [chain?, reduceCtorEq, false_iff, not_and]
    intro hlineage hlength
    exact hlineage.ne_nil (by simpa using hlength)
  | succ bound ih =>
    constructor
    · intro h
      simp only [chain?, Option.bind_eq_bind, Option.bind_eq_some_iff] at h
      obtain ⟨state, hget, h⟩ := h
      have hname : state.name = name := hnamed name state hget
      cases hparent : state.parent with
      | none =>
        simp only [hparent, hname, Option.pure_def, Option.some.injEq] at h
        subst h
        exact ⟨.top hget hparent, by simp⟩
      | some parent =>
        simp only [hparent, hname, Option.map_eq_some_iff] at h
        obtain ⟨above, habove, rfl⟩ := h
        obtain ⟨hlineage, hlength⟩ := (ih above).1 habove
        refine ⟨?_, by simpa using hlength⟩
        rw [List.reverse_cons]
        exact .under hget hparent hlineage
    · rintro ⟨hlineage, hlength⟩
      generalize hpath : chain.reverse = path at hlineage
      have hchain : chain = path.reverse := by rw [← hpath, List.reverse_reverse]
      subst hchain
      cases hlineage with
      | top hget hparent => simp [chain?, hget, hparent, hnamed name _ hget]
      | @under _ parent state above hget hparent habove =>
        have hshort : above.reverse.length ≤ bound := by
          simp only [List.length_reverse, List.length_append, List.length_singleton] at hlength
          simpa using hlength
        have hwalk : chart.chain? bound parent = some above.reverse :=
          (ih above.reverse).2 ⟨by rwa [List.reverse_reverse], hshort⟩
        simp [chain?, hget, hparent, hwalk, hnamed name _ hget]

/-- The walk finds exactly the lineages. -/
theorem lineage?_eq_some_iff (hnamed : chart.Named) :
    chart.lineage? name = some path ↔ Lineage chart name path := by
  unfold lineage?
  rw [Option.map_eq_some_iff]
  constructor
  · rintro ⟨chain, hchain, rfl⟩
    exact ((chain?_eq_some_iff hnamed _ _).1 hchain).1
  · intro h
    refine ⟨path.reverse, (chain?_eq_some_iff hnamed _ _).2 ⟨?_, ?_⟩, List.reverse_reverse _⟩
    · rwa [List.reverse_reverse]
    · rw [List.length_reverse]
      exact h.length_le_size

end Chart

end Statechart
