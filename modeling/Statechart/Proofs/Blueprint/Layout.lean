import Statechart.Chart.Basic
import Statechart.Proofs.State

/-!
# `Statechart.Proofs.Blueprint.Layout`: hierarchies in the making

A `Layout` says what a hierarchy is to look like in the end: the parent, the start substate
and the own ways out of each name. While the hierarchy is put together, a state delegates to
its start substate only once this is there too (`Layout.state`). A table is `Layout.Shown`
if it holds just the states that are made so far, each as far as it has come.

A table that shows a layout goes on to show it when a state is made on top (`Shown.insert`)
or below another one (`Shown.adopt`). What a table shows depends only on which states are
made, not on their order.

A layout with several states on top becomes one tree below the root (`Layout.rooted`).
-/

set_option autoImplicit false

namespace Statechart

/-- What a hierarchy is to look like. -/
structure Layout where
  /-- The state around each state. -/
  parent : String → Option String
  /-- The start substate of each state. -/
  start : String → Option String
  /-- The ways out of each state that does not delegate. -/
  ways : String → List Transition

namespace Layout

variable {layout : Layout} {made : List String} {name other : String} {table : Dict State}

/-- A state of the layout when the given states are made. -/
def state (layout : Layout) (made : List String) (name : String) : State :=
  match (layout.start name).filter (· ∈ made) with
  | some child => ⟨name, layout.parent name, some child, [State.entry name child]⟩
  | none => ⟨name, layout.parent name, none, layout.ways name⟩

/-- A state of a layout has its name, whatever is made. -/
@[simp] theorem state_name (layout : Layout) (made : List String) (name : String) :
    (layout.state made name).name = name := by
  unfold state
  split <;> rfl

/-- A state of a layout has its parent, whatever is made. -/
@[simp] theorem state_parent (layout : Layout) (made : List String) (name : String) :
    (layout.state made name).parent = layout.parent name := by
  unfold state
  split <;> rfl

/-- A state delegates to its start substate as soon as this is made. -/
@[simp] theorem state_startSubstate (layout : Layout) (made : List String) (name : String) :
    (layout.state made name).startSubstate = (layout.start name).filter (· ∈ made) := by
  unfold state
  split
  · next hsome => exact hsome.symm
  · next hnone => exact hnone.symm

/-- A state that delegates to no state that is made has its own ways out. -/
theorem state_of_not_mem (h : ∀ child, layout.start name = some child → child ∉ made) :
    layout.state made name = ⟨name, layout.parent name, none, layout.ways name⟩ := by
  have hnone : (layout.start name).filter (· ∈ made) = none := by
    simpa [Option.filter_eq_none_iff] using h
  simp only [state, hnone]

/-- A state whose start substate is made delegates to it. -/
theorem state_of_mem {child : String} (h : layout.start name = some child)
    (hmade : child ∈ made) :
    layout.state made name = ⟨name, layout.parent name, some child, [State.entry name child]⟩ := by
  have hsome : (layout.start name).filter (· ∈ made) = some child := by
    simp [h, Option.filter_some, hmade]
  simp only [state, hsome]

/-- A state whose start substate is to come can still adopt it. -/
theorem state_free {child : String} (hstart : layout.start name = some child)
    (hfresh : child ∉ made) (hways : layout.ways name = []) :
    (layout.state made name).startSubstate = none
      ∧ (layout.state made name).transitions = [] := by
  rw [state_of_not_mem fun other hother => by
    rw [hstart, Option.some.injEq] at hother
    exact hother ▸ hfresh]
  exact ⟨rfl, hways⟩

/-- When a state is made, the one that delegates to it adopts it, and no other changes. -/
theorem state_append (layout : Layout) (made : List String) (name other : String)
    (hfresh : name ∉ made) :
    layout.state (made ++ [name]) other
      = (layout.state made other).adopting name (layout.start other = some name) := by
  -- Only what delegates to the new state can tell the two lists of made states apart.
  by_cases h : layout.start other = some name
  · rw [state_of_mem h (by simp), state_of_not_mem]
    · simp [h, State.adopting]
    · intro child hchild
      rw [h] at hchild
      cases hchild
      exact hfresh
  · have hsame : (layout.start other).filter (· ∈ made ++ [name])
        = (layout.start other).filter (· ∈ made) := by
      cases hstart : layout.start other with
      | none => rfl
      | some child =>
        have hne : child ≠ name := fun heq => h (heq ▸ hstart)
        simp [Option.filter_some, hne]
    simp only [state, hsame, h, decide_false, State.adopting_false]

/-- The table holds the made states of the layout, and no others. -/
def Shown (layout : Layout) (made : List String) (table : Dict State) : Prop :=
  ∀ name, table.get? name = if name ∈ made then some (layout.state made name) else none

namespace Shown

/-- A made state is found in the table. -/
theorem get?_eq (h : layout.Shown made table) (hmem : name ∈ made) :
    table.get? name = some (layout.state made name) := by
  rw [h name, if_pos hmem]

/-- A state that is not made is not in the table. -/
theorem get?_eq_none (h : layout.Shown made table) (hmem : name ∉ made) :
    table.get? name = none := by
  rw [h name, if_neg hmem]

/-- The names in the table are those of the made states. -/
theorem isSome_get?_iff (h : layout.Shown made table) :
    (table.get? name).isSome ↔ name ∈ made := by
  rw [h name]
  by_cases hmem : name ∈ made
  · simp [hmem]
  · simp [hmem]

/-- When a state is taken out of the table, the other ones that are made are left. -/
theorem isSome_get?_erase_iff (h : layout.Shown made table) :
    ((table.erase other).get? name).isSome ↔ name ≠ other ∧ name ∈ made := by
  rw [Dict.get?_erase]
  by_cases hsame : name = other
  · simp [hsame]
  · simp [hsame, h.isSome_get?_iff]

/-- A new state is shown as it is made: alone, because its start substate comes later. -/
theorem get?_new {state : State}
    (hstate : state = ⟨name, layout.parent name, none, layout.ways name⟩)
    (hlater : ∀ child, layout.start name = some child → child ∉ made ++ [name]) :
    some state = if name ∈ made ++ [name] then some (layout.state (made ++ [name]) name)
      else none := by
  rw [if_pos (by simp), state_of_not_mem hlater, hstate]

/-- A state that no state delegates to is made without its parent. -/
theorem insert (h : layout.Shown made table) (hfresh : name ∉ made)
    (hlater : ∀ child, layout.start name = some child → child ∉ made ++ [name])
    (halone : ∀ other ∈ made, layout.start other ≠ some name) :
    layout.Shown (made ++ [name])
      (table.insert name ⟨name, layout.parent name, none, layout.ways name⟩) := by
  intro other
  rw [Dict.get?_insert]
  split
  · next heq =>
    subst heq
    exact get?_new rfl hlater
  · next hne =>
    -- None of the states made before delegates to the new one, so they all stay as they are.
    rw [h other]
    by_cases hmem : other ∈ made
    · rw [if_pos hmem, if_pos (by simp [hmem]), state_append _ _ _ _ hfresh]
      simp [halone other hmem]
    · rw [if_neg hmem, if_neg (by simp [hmem, hne])]

/-- A state is made below another one, which is the only one that may delegate to it. -/
theorem adopt {above : String} (h : layout.Shown made table) (hfresh : name ∉ made)
    (hlater : ∀ child, layout.start name = some child → child ∉ made ++ [name])
    (habove : above ∈ made)
    (halone : ∀ other ∈ made, layout.start other = some name → other = above) :
    layout.Shown (made ++ [name])
      ((table.insert above
          ((layout.state made above).adopting name (layout.start above = some name))).insert name
        ⟨name, layout.parent name, none, layout.ways name⟩) := by
  intro other
  rw [Dict.get?_insert]
  split
  · next heq =>
    subst heq
    exact get?_new rfl hlater
  · next hne =>
    rw [Dict.get?_insert]
    split
    · next heq =>
      subst heq
      rw [if_pos (by simp [habove]), state_append _ _ _ _ hfresh]
    · -- Apart from the one above, no state that is made delegates to the new one.
      next hother =>
      rw [h other]
      by_cases hmem : other ∈ made
      · rw [if_pos hmem, if_pos (by simp [hmem]), state_append _ _ _ _ hfresh]
        have hstart : layout.start other ≠ some name := fun hstart =>
          hother (halone other hmem hstart)
        simp [hstart]
      · rw [if_neg hmem, if_neg (by simp [hmem, hne])]

end Shown

/-! ### Below the root -/

/-- The layout below the root, which delegates to a start state. -/
def rooted (layout : Layout) (start : String) : Layout where
  parent name := if name = rootName then none else some ((layout.parent name).getD rootName)
  start name := if name = rootName then some start else layout.start name
  ways name := if name = rootName then [] else layout.ways name

section Rooted

variable {start : String}

/-- Below the root, states without a parent are put under it, and the others stay where they
are. -/
theorem rooted_parent (layout : Layout) (hne : name ≠ rootName) :
    (layout.rooted start).parent name = some ((layout.parent name).getD rootName) :=
  if_neg hne

/-- A state below the root keeps its start substate. -/
theorem rooted_start (layout : Layout) (hne : name ≠ rootName) :
    (layout.rooted start).start name = layout.start name :=
  if_neg hne

/-- The root delegates to the start state. -/
theorem rooted_start_root (layout : Layout) :
    (layout.rooted start).start rootName = some start := by
  simp [rooted]

/-- A state below the root keeps its ways out. -/
theorem rooted_ways (layout : Layout) (hne : name ≠ rootName) :
    (layout.rooted start).ways name = layout.ways name :=
  if_neg hne

/-- Before any state is made, the root stands alone. -/
theorem rooted_state_root (layout : Layout) (h : start ∉ made) :
    (layout.rooted start).state made rootName = State.new rootName [] := by
  rw [state_of_not_mem]
  · simp [rooted, State.new]
  · intro child hchild
    rw [rooted_start_root, Option.some.injEq] at hchild
    exact hchild ▸ h

/-- A state other than the root changes nothing but its parent when it is put below the
root. -/
theorem rooted_state (layout : Layout) (made : List String) (hne : name ≠ rootName)
    (hroot : layout.start name ≠ some rootName) :
    (layout.rooted start).state (rootName :: made) name
      = { layout.state made name with
          parent := some ((layout.parent name).getD rootName) } := by
  -- The root is made first, but no other state delegates to it.
  have hsame : (layout.start name).filter (· ∈ rootName :: made)
      = (layout.start name).filter (· ∈ made) := by
    cases hstart : layout.start name with
    | none => rfl
    | some child =>
      have hchild : child ≠ rootName := fun heq => hroot (heq ▸ hstart)
      simp [Option.filter_some, hchild]
  unfold state
  rw [rooted_parent layout hne, rooted_start layout hne, rooted_ways layout hne, hsame]
  cases (layout.start name).filter (· ∈ made) <;> rfl

end Rooted

end Layout

end Statechart
