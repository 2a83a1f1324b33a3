import Statechart.Proofs.Chart.Rejection

/-!
# `Statechart.Proofs.Chart.Reordered`: the order of transitions

Two charts are `Reordered` if they have the same states up to the order of the transitions of
each state. Such charts have the same lineages, and the check accepts both or neither
(`Reordered.validate_eq_ok_iff`). What it reports may differ, since it stops at the first
transition that leads nowhere; but on trees it is always a fault of the chart
(`Tree.kind_of_validate`).
-/

set_option autoImplicit false

namespace Statechart

section Optional

variable {α β γ δ : Type} {R : α → β → Prop} {x : Option α} {y : Option β}

/-- Optional values are related the other way round if the values are. -/
theorem rel_swap {S : β → α → Prop} (hswap : ∀ a b, R a b → S b a) (h : Option.Rel R x y) :
    Option.Rel S y x := by
  cases h with
  | some hab => exact .some (hswap _ _ hab)
  | none => exact .none

/-- Functions that keep values related keep optional values related. -/
theorem rel_map {S : γ → δ → Prop} {f : α → γ} {g : β → δ}
    (hmap : ∀ a b, R a b → S (f a) (g b)) (h : Option.Rel R x y) :
    Option.Rel S (x.map f) (y.map g) := by
  cases h with
  | some hab => exact .some (hmap _ _ hab)
  | none => exact .none

/-- Look-ups that follow related values, and are related for those, are related. -/
theorem rel_bind {S : γ → δ → Prop} {f : α → Option γ} {g : β → Option δ}
    (hbind : ∀ a b, x = some a → y = some b → R a b → Option.Rel S (f a) (g b))
    (h : Option.Rel R x y) : Option.Rel S (x >>= f) (y >>= g) := by
  cases h with
  | some hab => exact hbind _ _ rfl rfl hab
  | none => exact .none

/-- Of two related optional values both are there or neither is. -/
theorem isSome_eq_of_rel (h : Option.Rel R x y) : x.isSome = y.isSome := by
  cases h with
  | some => rfl
  | none => rfl

/-- What is the same for related values is the same for related optional values. -/
theorem map_eq_of_rel {f : α → γ} {g : β → γ} (hmap : ∀ a b, R a b → f a = g b)
    (h : Option.Rel R x y) : x.map f = y.map g := by
  cases h with
  | some hab => exact congrArg some (hmap _ _ hab)
  | none => rfl

end Optional

/-- Two states that differ by the order of their transitions at most. -/
structure State.Reordered (state state' : State) : Prop where
  /-- They have the same name. -/
  name : state.name = state'.name
  /-- They have the same parent. -/
  parent : state.parent = state'.parent
  /-- They have the same start substate. -/
  startSubstate : state.startSubstate = state'.startSubstate
  /-- The transitions of one are those of the other in some order. -/
  transitions : state.transitions.Perm state'.transitions

/-- A state differs from itself in nothing. -/
theorem State.Reordered.refl (state : State) : state.Reordered state :=
  ⟨rfl, rfl, rfl, .refl _⟩

/-- Which of the two states comes first is no matter. -/
theorem State.Reordered.symm {state state' : State} (h : state.Reordered state') :
    state'.Reordered state :=
  ⟨h.name.symm, h.parent.symm, h.startSubstate.symm, h.transitions.symm⟩

namespace Chart

variable {chart chart' : Chart} {name : String} {state : State} {path : List String}
  {fault : Fault}

/-- Two charts that differ by the order of the transitions of their states at most. -/
def Reordered (chart chart' : Chart) : Prop :=
  ∀ name, Option.Rel State.Reordered (chart.get? name) (chart'.get? name)

/-- Charts whose tables differ by the order of transitions only. -/
theorem reordered_of_entries
    (h : List.Forall₂ (fun entry entry' : String × State =>
      entry.1 = entry'.1 ∧ entry.2.Reordered entry'.2) chart.states.entries
      chart'.states.entries) : chart.Reordered chart' := by
  intro name
  show Option.Rel State.Reordered (chart.states.entries.lookup name)
    (chart'.states.entries.lookup name)
  -- The names stand in the same places, so the tables are searched side by side.
  generalize chart.states.entries = entries at h ⊢
  generalize chart'.states.entries = entries' at h ⊢
  induction h with
  | nil => exact .none
  | @cons entry entry' _ _ hentry _ ih =>
    rw [List.lookup_cons, List.lookup_cons, ← hentry.1]
    split
    · exact .some hentry.2
    · exact ih

namespace Reordered

/-- Which of the two charts comes first is no matter. -/
theorem symm (h : chart.Reordered chart') : chart'.Reordered chart :=
  fun name => rel_swap (fun _ _ hstate => hstate.symm) (h name)

/-- The other chart has a state of the same name. -/
theorem exists_get? (h : chart.Reordered chart') (hget : chart.get? name = some state) :
    ∃ state', chart'.get? name = some state' ∧ state.Reordered state' := by
  have hname := h name
  rw [hget] at hname
  generalize chart'.get? name = found' at hname
  cases hname with
  | some hstate => exact ⟨_, rfl, hstate⟩

/-- Reordered charts have states of the same names. -/
theorem isSome_get?_eq (h : chart.Reordered chart') (name : String) :
    (chart.get? name).isSome = (chart'.get? name).isSome :=
  isSome_eq_of_rel (h name)

/-- The parents are the same, and so are the lineages. -/
theorem lineage (h : chart.Reordered chart') (hpath : Lineage chart name path) :
    Lineage chart' name path := by
  refine hpath.of_parents ?_
  intro other state hget
  obtain ⟨state', hget', hstate⟩ := h.exists_get? hget
  exact ⟨state', hget', hstate.parent.symm⟩

/-- Consistency speaks of the transitions of a state without regard to their order. -/
theorem consistent (h : chart.Reordered chart') (hconsistent : chart.Consistent) :
    chart'.Consistent := by
  constructor
  · intro name state' hget' way hway
    obtain ⟨state, hget, hstate⟩ := h.symm.exists_get? hget'
    -- The transition is there in this chart as well, where its target is known.
    have hmem : way ∈ state.transitions := hstate.transitions.mem_iff.1 hway
    rw [← h.isSome_get?_eq]
    exact hconsistent.known name state hget way hmem
  · intro name state' hget' hinner
    obtain ⟨state, hget, -⟩ := h.symm.exists_get? hget'
    -- What refers to the state in this chart does so in the other one.
    obtain ⟨other, above, habove, href⟩ := hconsistent.referenced name state hget hinner
    obtain ⟨above', habove', hsame⟩ := h.exists_get? habove
    refine ⟨other, above', habove', ?_⟩
    rcases href with hstart | ⟨hne, way, hway, htarget⟩
    · exact Or.inl (hsame.startSubstate.symm.trans hstart)
    · exact Or.inr ⟨hne, way, hsame.transitions.mem_iff.1 hway, htarget⟩

/-- The check accepts both charts or neither. -/
theorem validate_eq_ok_iff (h : chart.Reordered chart') (htree : chart.Tree)
    (htree' : chart'.Tree) : chart.validate = .ok () ↔ chart'.validate = .ok () := by
  rw [htree.validate_eq_ok_iff, htree'.validate_eq_ok_iff]
  exact ⟨h.consistent, h.symm.consistent⟩

end Reordered

/-- The check of a tree reports nothing but faults of the chart. -/
theorem Tree.kind_of_validate (htree : chart.Tree) (h : chart.validate = .error fault) :
    fault.kind = .chartInvalid := by
  rcases validate_eq_error_cases h with ⟨name, state, hget, hmember⟩ | ⟨-, hfault⟩
  · obtain ⟨way, -, -, hfault⟩ := htree.validateMember_eq_error hget hmember
    rw [hfault]
    rfl
  · rw [hfault]
    rfl

end Chart

end Statechart
