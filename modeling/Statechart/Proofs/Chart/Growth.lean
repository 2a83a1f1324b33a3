import Statechart.Proofs.Chart.Lineage
import Statechart.Proofs.State

/-!
# `Statechart.Proofs.Chart.Growth`: charts that are put together by calls

A chart starts with a root alone, and three calls add states to it (`Addition`). A call can
fail; then it changes nothing, except that a call for several states keeps the ones before
the one that failed. `Grown` charts are those that some list of calls leads to, with any
states whatsoever: states with a parent already, with start substates, with names that are
taken.

`add_eq_ok_iff` says when a state is added and what the chart is then: the state is below
its parent, the parent may delegate to it now, and nothing else has changed. From it follow
the invariants of `Tree`: every grown chart is one tree of well-formed states below the root
(`Grown.tree`).
-/

set_option autoImplicit false

namespace Statechart

namespace Chart

variable {chart chart' : Chart} {name : String} {state above : State}
  {parent : Option String} {isStart : Bool} {path : List String}

/-- A name is in a chart if a look-up finds a state. -/
@[simp] theorem contains_eq_isSome (chart : Chart) (name : String) :
    chart.contains name = (chart.get? name).isSome := rfl

/-- A new chart has a root and nothing else. -/
theorem get?_new (name : String) :
    new.get? name = if name = rootName then some (State.new rootName []) else none := by
  unfold new get?
  rw [Dict.get?_insert, Dict.get?_empty]

/-- A chart with a new state below the state `above`. -/
def adding (chart : Chart) (above state : State) (isStart : Bool) : Chart :=
  ⟨(chart.states.insert above.name (above.adopting state.name isStart)).insert state.name
    (state.under above.name)⟩

/-- After an addition, the new name has the state below its parent, and the name of the parent has
the parent that adopted it. The new name is asked for first, as it was put in last. -/
theorem get?_adding (chart : Chart) (above state : State) (isStart : Bool) (name : String) :
    (chart.adding above state isStart).get? name
      = if name = state.name then some (state.under above.name)
        else if name = above.name then some (above.adopting state.name isStart)
        else chart.get? name := by
  unfold adding get?
  rw [Dict.get?_insert, Dict.get?_insert]

/-- A state is added exactly if it is well formed and new, its parent is there, and the parent
can adopt it. -/
theorem add_eq_ok_iff (hnamed : chart.Named) :
    chart.add state parent isStart = .ok chart'
      ↔ state.Sound ∧ chart.get? state.name = none ∧ state.parent = none
        ∧ ∃ above, chart.get? (parent.getD rootName) = some above
          ∧ (isStart = true → above.startSubstate = none ∧ above.transitions = [])
          ∧ chart' = chart.adding above state isStart := by
  -- The state is checked, then its name, then the parent is looked up, then it adopts.
  unfold add
  rw [bind_eq_ok]
  constructor
  · rintro ⟨⟨⟩, hvalid, h⟩
    have hsound : state.Sound := State.validate_eq_ok_iff.1 hvalid
    by_cases htaken : chart.contains state.name = true
    · rw [if_pos htaken] at h
      cases h
    · rw [if_neg htaken] at h
      simp only at h
      cases habove : chart.get? (parent.getD rootName) with
      | none =>
        rw [habove] at h
        cases h
      | some above =>
        rw [habove] at h
        obtain ⟨linked, hadopt, hput⟩ := bind_eq_ok.1 h
        obtain ⟨hfree, hstart, rfl⟩ := State.adopt_eq_ok_iff.1 hadopt
        cases hput
        refine ⟨hsound, by simpa using htaken, hfree, above, rfl, hstart, ?_⟩
        rw [← hnamed _ above habove]
        rfl
  · rintro ⟨hsound, hnew, hfree, above, habove, hstart, rfl⟩
    refine ⟨(), State.validate_eq_ok_iff.2 hsound, ?_⟩
    have htaken : ¬ chart.contains state.name = true := by simp [hnew]
    rw [if_neg htaken]
    simp only [habove]
    refine bind_eq_ok.2 ⟨_, State.adopt_eq_ok_iff.2 ⟨hfree, hstart, rfl⟩, ?_⟩
    rw [← hnamed _ above habove]
    rfl

/-! ### Trees -/

/-- The chart is one tree of well-formed states below the root. -/
structure Tree (chart : Chart) : Prop where
  /-- Every state stands under its own name. -/
  named : chart.Named
  /-- Every state is well formed. -/
  sound : ∀ name state, chart.get? name = some state → state.Sound
  /-- The root is there. -/
  root : ∃ root, chart.get? rootName = some root
  /-- The root is the one state without parent. -/
  top : ∀ name state, chart.get? name = some state → (state.parent = none ↔ name = rootName)
  /-- The parents of every state end. -/
  rooted : ∀ name state, chart.get? name = some state → ∃ path, Lineage chart name path

namespace Tree

/-- Every path begins at the root. -/
theorem head?_eq_root (htree : chart.Tree) (h : Lineage chart name path) :
    path.head? = some rootName := by
  induction h with
  | top hget hparent => simp [(htree.top _ _ hget).1 hparent]
  | under hget hparent habove ih => simp [List.head?_append, ih]

/-- On a tree, the root is alone on its lineage. -/
theorem root_lineage (htree : chart.Tree) : Lineage chart rootName [rootName] := by
  obtain ⟨root, hroot⟩ := htree.root
  exact .top hroot ((htree.top _ _ hroot).2 rfl)

/-- A state other than the root has a parent that is in the chart. -/
theorem exists_parent (htree : chart.Tree) (hget : chart.get? name = some state)
    (hne : name ≠ rootName) :
    ∃ parent above, state.parent = some parent ∧ chart.get? parent = some above := by
  cases hparent : state.parent with
  | none => exact absurd ((htree.top _ _ hget).1 hparent) hne
  | some parent =>
    obtain ⟨path, hpath⟩ := htree.rooted _ _ hget
    obtain ⟨upper, hupper, -⟩ := hpath.exists_above hget hparent
    obtain ⟨above, habove⟩ := hupper.exists_get? hupper.self_mem
    exact ⟨parent, above, rfl, habove⟩

/-- The root is the one state whose lineage has a single name. -/
theorem length_le_one_iff (htree : chart.Tree) (h : Lineage chart name path) :
    path.length ≤ 1 ↔ name = rootName := by
  cases h with
  | top hget hparent => simp [(htree.top _ _ hget).1 hparent]
  | under hget hparent habove =>
    have hpositive := List.length_pos_iff.2 habove.ne_nil
    have hinner : name ≠ rootName := by
      intro hname
      rw [(htree.top _ _ hget).2 hname] at hparent
      cases hparent
    simp only [List.length_append, List.length_singleton, hinner, iff_false]
    omega

/-- On a tree, the bounded walk finds exactly the lineages. -/
theorem lineage?_eq_some_iff (htree : chart.Tree) :
    chart.lineage? name = some path ↔ Lineage chart name path :=
  Chart.lineage?_eq_some_iff htree.named

end Tree

/-- A chart that has all states of another one, with the same parents, has their lineages. -/
theorem Lineage.of_parents (h : Lineage chart name path)
    (hkeep : ∀ name state, chart.get? name = some state →
      ∃ state', chart'.get? name = some state' ∧ state'.parent = state.parent) :
    Lineage chart' name path := by
  induction h with
  | top hget hparent =>
    obtain ⟨state', hget', hsame⟩ := hkeep _ _ hget
    exact .top hget' (hsame.trans hparent)
  | under hget hparent habove ih =>
    obtain ⟨state', hget', hsame⟩ := hkeep _ _ hget
    exact .under hget' (hsame.trans hparent) ih

/-- A new chart is a tree: the root alone. -/
theorem tree_new : new.Tree := by
  -- There is no state but the root, so each part is about the root.
  have hcases : ∀ name state, new.get? name = some state →
      name = rootName ∧ state = State.new rootName [] := by
    intro name state hget
    rw [get?_new] at hget
    split at hget
    · next hname =>
      cases hget
      exact ⟨hname, rfl⟩
    · cases hget
  have hroot : new.get? rootName = some (State.new rootName []) := by simp [get?_new]
  refine ⟨?_, ?_, ⟨_, hroot⟩, ?_, ?_⟩
  · intro name state hget
    obtain ⟨rfl, rfl⟩ := hcases name state hget
    rfl
  · intro name state hget
    obtain ⟨rfl, rfl⟩ := hcases name state hget
    refine ⟨?_, ?_, ?_, ?_⟩
    · simp [State.new, rootName]
    · intro start hstart
      cases hstart
    · intro way hway
      cases hway
    · exact List.nodup_nil
  · intro name state hget
    obtain ⟨rfl, rfl⟩ := hcases name state hget
    simp [State.new]
  · intro name state hget
    obtain ⟨rfl, rfl⟩ := hcases name state hget
    exact ⟨[rootName], .top hget rfl⟩

/-- Adding a state keeps every other state and all parents. -/
theorem get?_parent_of_add (hnamed : chart.Named)
    (hadd : chart.add state parent isStart = .ok chart') (name : String) (old : State)
    (hget : chart.get? name = some old) :
    ∃ kept, chart'.get? name = some kept ∧ kept.parent = old.parent := by
  obtain ⟨-, hnew, -, above, habove, -, rfl⟩ := (add_eq_ok_iff hnamed).1 hadd
  rw [get?_adding]
  -- The new name was free, so an old state is the parent or was left alone.
  have hne : name ≠ state.name := by
    rintro rfl
    rw [hnew] at hget
    cases hget
  rw [if_neg hne]
  split
  · next hname =>
    have hsame : old = above := by
      rw [hnamed _ _ habove] at hname
      rw [hname, habove] at hget
      exact (Option.some.inj hget).symm
    exact ⟨_, rfl, by rw [State.adopting_parent, hsame]⟩
  · exact ⟨old, hget, rfl⟩

/-- Adding a state to a tree gives a tree. -/
theorem Tree.add (htree : chart.Tree) (hadd : chart.add state parent isStart = .ok chart') :
    chart'.Tree := by
  have hkeep := get?_parent_of_add htree.named hadd
  obtain ⟨hsound, hnew, -, above, habove, hstart, rfl⟩ := (add_eq_ok_iff htree.named).1 hadd
  have hname : above.name = parent.getD rootName := htree.named _ _ habove
  -- A state of the new chart is the new one, its parent, or an old one.
  have hcases : ∀ other found, (chart.adding above state isStart).get? other = some found →
      (other = state.name ∧ found = state.under above.name)
        ∨ (other = above.name ∧ found = above.adopting state.name isStart)
        ∨ chart.get? other = some found := by
    intro other found hget
    rw [get?_adding] at hget
    split at hget
    · next h => exact Or.inl ⟨h, (Option.some.inj hget).symm⟩
    · split at hget
      · next h => exact Or.inr (Or.inl ⟨h, (Option.some.inj hget).symm⟩)
      · exact Or.inr (Or.inr hget)
  have habove' : chart.get? above.name = some above := by rw [hname]; exact habove
  -- An old state keeps its lineage, as it keeps its parent.
  have hrooted : ∀ other found, chart.get? other = some found →
      ∃ path, Lineage (chart.adding above state isStart) other path := by
    intro other found hget
    obtain ⟨path, hpath⟩ := htree.rooted _ _ hget
    exact ⟨path, hpath.of_parents hkeep⟩
  refine ⟨?_, ?_, ?_, ?_, ?_⟩
  · intro other found hget
    rcases hcases other found hget with ⟨rfl, rfl⟩ | ⟨rfl, rfl⟩ | hget
    · rfl
    · exact State.adopting_name _ _ _
    · exact htree.named _ _ hget
  · intro other found hget
    rcases hcases other found hget with ⟨rfl, rfl⟩ | ⟨rfl, rfl⟩ | hget
    · exact hsound.under
    · exact (htree.sound _ _ habove).adopting hsound.named
    · exact htree.sound _ _ hget
  · obtain ⟨root, hroot⟩ := htree.root
    obtain ⟨kept, hkept, -⟩ := hkeep _ _ hroot
    exact ⟨kept, hkept⟩
  · intro other found hget
    rcases hcases other found hget with ⟨rfl, rfl⟩ | ⟨rfl, rfl⟩ | hget
    · refine ⟨fun h => (by cases h), fun h => ?_⟩
      obtain ⟨root, hroot⟩ := htree.root
      rw [h, hroot] at hnew
      cases hnew
    · rw [State.adopting_parent]
      exact htree.top _ _ habove'
    · exact htree.top _ _ hget
  · intro other found hget
    rcases hcases other found hget with ⟨rfl, rfl⟩ | ⟨rfl, rfl⟩ | hold
    · -- The lineage of the new state goes on from that of its parent.
      obtain ⟨path, hpath⟩ := hrooted _ _ habove'
      exact ⟨path ++ [state.name], .under hget rfl hpath⟩
    · exact hrooted _ _ habove'
    · exact hrooted _ _ hold

/-! ### Calls -/

/-- A call that adds states to a chart. -/
inductive Addition where
  /-- A start substate of a state, or of the root. -/
  | start (state : State) (parent : Option String)
  /-- A plain substate of a state, or of the root. -/
  | plain (state : State) (parent : Option String)
  /-- A start substate, if one is given, and plain substates, one after the other. -/
  | several (parent : Option String) (start : Option State) (states : List State)

/-- The states that a call tries to add. -/
def Addition.states : Addition → List State
  | .start state _ => [state]
  | .plain state _ => [state]
  | .several _ first others => first.toList ++ others

/-- The chart after a call. -/
def perform (chart : Chart) : Addition → Chart
  | .start state parent =>
    match chart.addStart state parent with
    | .ok after => after
    | .error _ => chart
  | .plain state parent =>
    match chart.addState state parent with
    | .ok after => after
    | .error _ => chart
  | .several parent start states => (chart.addAll parent start states).1

/-- A chart that calls lead to, successful or failing, from the chart with a root alone. -/
def Grown (chart : Chart) : Prop :=
  ∃ calls : List Addition, chart = calls.foldl perform new

/-- What additions of the states of a call keep, the call keeps. -/
theorem perform_induction_of_mem {P : Chart → Prop} {call : Addition}
    (hadd : ∀ chart, ∀ state ∈ call.states, ∀ parent isStart after, P chart →
      chart.add state parent isStart = .ok after → P after)
    {chart : Chart} (h : P chart) : P (chart.perform call) := by
  -- Whether the list is worked off or stops at a failure, only additions were made.
  have heach : ∀ (parent : Option String) (states : List (State × Bool)),
      (∀ entry ∈ states, entry.1 ∈ call.states) → ∀ chart : Chart, P chart →
        P (addEach parent chart states).1 := by
    intro parent states
    induction states with
    | nil => exact fun _ _ h => h
    | cons entry rest ih =>
      intro hmem chart h
      obtain ⟨state, isStart⟩ := entry
      obtain ⟨hfirst, hrest⟩ := List.forall_mem_cons.1 hmem
      unfold addEach
      split
      · next after hafter => exact ih hrest _ (hadd _ state hfirst _ _ _ h hafter)
      · exact h
  cases call with
  | start state parent =>
    simp only [perform]
    split
    · next after hafter =>
      exact hadd _ state (List.mem_singleton_self _) _ _ _ h hafter
    · exact h
  | plain state parent =>
    simp only [perform]
    split
    · next after hafter =>
      exact hadd _ state (List.mem_singleton_self _) _ _ _ h hafter
    · exact h
  | several parent start states =>
    refine heach _ _ ?_ _ h
    intro entry hentry
    show entry.1 ∈ start.toList ++ states
    rcases List.mem_append.1 hentry with hstart | hplain
    · obtain ⟨state, hstate, rfl⟩ := List.mem_map.1 hstart
      exact List.mem_append_left _ hstate
    · obtain ⟨state, hstate, rfl⟩ := List.mem_map.1 hplain
      exact List.mem_append_right _ hstate

/-- What additions of the states of some calls keep, the calls keep. -/
theorem foldl_perform_induction_of_mem {P : Chart → Prop} {calls : List Addition}
    (hadd : ∀ call ∈ calls, ∀ chart, ∀ state ∈ call.states, ∀ parent isStart after, P chart →
      chart.add state parent isStart = .ok after → P after)
    {chart : Chart} (h : P chart) : P (calls.foldl perform chart) := by
  induction calls generalizing chart with
  | nil => exact h
  | cons call rest ih =>
    obtain ⟨hfirst, hrest⟩ := List.forall_mem_cons.1 hadd
    exact ih hrest (perform_induction_of_mem hfirst h)

/-- What single additions keep, lists of calls keep. -/
theorem foldl_perform_induction {P : Chart → Prop}
    (hadd : ∀ chart state parent isStart after, P chart →
      chart.add state parent isStart = .ok after → P after)
    {chart : Chart} (h : P chart) (calls : List Addition) : P (calls.foldl perform chart) :=
  foldl_perform_induction_of_mem
    (fun _ _ chart state _ parent isStart after => hadd chart state parent isStart after) h

namespace Grown

/-- A new chart is grown by no calls. -/
theorem new : Grown Chart.new := ⟨[], rfl⟩

/-- A successful addition leads from a grown chart to a grown chart. -/
theorem add (h : chart.Grown) (hadd : chart.add state parent isStart = .ok chart') :
    chart'.Grown := by
  obtain ⟨calls, rfl⟩ := h
  -- The addition is one more call, of the one kind or the other.
  cases isStart with
  | true =>
    refine ⟨calls ++ [.start state parent], ?_⟩
    rw [List.foldl_append, List.foldl_cons, List.foldl_nil, perform, addStart, hadd]
  | false =>
    refine ⟨calls ++ [.plain state parent], ?_⟩
    rw [List.foldl_append, List.foldl_cons, List.foldl_nil, perform, addState, hadd]

/-- What holds of the chart with a root alone and is kept by additions holds of every grown
chart. -/
theorem induction {P : Chart → Prop} (hnew : P Chart.new)
    (hadd : ∀ chart state parent isStart after, P chart →
      chart.add state parent isStart = .ok after → P after) (h : chart.Grown) : P chart := by
  obtain ⟨calls, rfl⟩ := h
  exact foldl_perform_induction hadd hnew calls

/-- Every grown chart is a tree. -/
theorem tree (h : chart.Grown) : chart.Tree :=
  h.induction tree_new fun _ _ _ _ _ htree hadd => htree.add hadd

end Grown

end Chart

end Statechart
