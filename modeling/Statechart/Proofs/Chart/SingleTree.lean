import Statechart.Proofs.Chart.Growth

/-!
# `Statechart.Proofs.Chart.SingleTree`: calls build one tree

No check looks at the shape of a chart as a whole. The shape follows from what single
additions check: `Chart.Tree` holds of the chart that calls start from, and every addition
keeps it. `calls_build_single_tree` says what a caller can rely on, after any calls and
whatever came of them. Every state is `InPlace`, and its parent stays the same from then on.
-/

set_option autoImplicit false

namespace Statechart

namespace Chart

variable {chart base : Chart} {name : String} {state start : State} {states : List State}
  {path : List String}

/-- The charts that calls start from: a root alone, or a start state and other states below
the root. -/
def Origin (chart : Chart) : Prop :=
  chart = new ∨ ∃ start states, flat start states = .ok chart

/-- How a state stands in a chart that is one tree. -/
structure InPlace (chart : Chart) (name : String) (state : State) : Prop where
  /-- It stands under its own name. -/
  named : state.name = name
  /-- The root has no parent. -/
  root : name = rootName → state.parent = none
  /-- Any other state has a parent that is in the chart, one level higher. -/
  below : name ≠ rootName → ∃ parent above depth, state.parent = some parent
    ∧ chart.get? parent = some above ∧ chart.depth? parent = some depth
    ∧ chart.depth? name = some (depth + 1)
  /-- Its lineage leads from the root to the state and repeats no name. -/
  lineage : ∃ path, chart.lineage? name = some path ∧ path.head? = some rootName
    ∧ path.getLast? = some name ∧ path.Nodup

/-- A chart of one level could have been built by a call. -/
theorem Grown.flat (h : Chart.flat start states = .ok chart) : chart.Grown := by
  refine ⟨[.several none (some start) states], ?_⟩
  unfold Chart.flat at h
  split at h
  · next after hafter =>
    cases h
    show chart = (Chart.new.addAll none (some start) states).1
    rw [hafter]
  · cases h

/-- The charts to begin with are grown themselves. -/
theorem Origin.grown (h : base.Origin) : base.Grown := by
  rcases h with hnew | ⟨start, states, hflat⟩
  · rw [hnew]
    exact Grown.new
  · exact Grown.flat hflat

namespace Tree

/-- The depth of a state is read off its lineage. -/
theorem depth?_eq (htree : chart.Tree) (h : Lineage chart name path) :
    chart.depth? name = some (path.length - 1) := by
  unfold depth?
  rw [htree.lineage?_eq_some_iff.2 h, Option.map_some]

/-- The states of a tree are in place. -/
theorem inPlace (htree : chart.Tree) (hget : chart.get? name = some state) :
    chart.InPlace name state := by
  obtain ⟨path, hpath⟩ := htree.rooted name state hget
  refine ⟨htree.named name state hget, (htree.top name state hget).2, fun hinner => ?_, ?_⟩
  · obtain ⟨parent, above, hparent, habove⟩ := htree.exists_parent hget hinner
    obtain ⟨upper, hupper, hsplit⟩ := hpath.exists_above hget hparent
    -- The lineage of the parent has one name at least, and the state comes after it.
    have hpositive : 0 < upper.length := List.length_pos_iff.2 hupper.ne_nil
    have hlength : path.length - 1 = upper.length - 1 + 1 := by
      rw [hsplit, List.length_append, List.length_singleton]
      omega
    refine ⟨parent, above, upper.length - 1, hparent, habove, htree.depth?_eq hupper, ?_⟩
    rw [htree.depth?_eq hpath, hlength]
  · exact ⟨path, htree.lineage?_eq_some_iff.2 hpath, htree.head?_eq_root hpath, hpath.getLast?,
      hpath.nodup⟩

/-- Calls keep the states of a tree and their parents. -/
theorem exists_parent_of_calls (htree : chart.Tree) (hget : chart.get? name = some state)
    (calls : List Addition) :
    ∃ kept, (calls.foldl perform chart).get? name = some kept ∧ kept.parent = state.parent := by
  -- An addition needs the tree to keep a parent, so the tree is carried along.
  suffices h : (calls.foldl perform chart).Tree
      ∧ ∃ kept, (calls.foldl perform chart).get? name = some kept
        ∧ kept.parent = state.parent from h.2
  refine foldl_perform_induction (P := fun chart => chart.Tree
    ∧ ∃ kept, chart.get? name = some kept ∧ kept.parent = state.parent) ?_
    ⟨htree, state, hget, rfl⟩ calls
  intro before added parent isStart after ⟨hbefore, kept, hkept, hsame⟩ hadd
  obtain ⟨next, hnext, hstays⟩ := get?_parent_of_add hbefore.named hadd name kept hkept
  exact ⟨hbefore.add hadd, next, hnext, hstays.trans hsame⟩

end Tree

/-- Start with a root alone, or with a start state and others below the root, and make any
calls, with any states and whether they succeed or not. Then the root is there, every state is
in place, and whatever is called later, it stays in the chart with the same parent. -/
theorem calls_build_single_tree (horigin : base.Origin) (calls : List Addition) :
    ((calls.foldl perform base).get? rootName).isSome
      ∧ ∀ name state, (calls.foldl perform base).get? name = some state →
        (calls.foldl perform base).InPlace name state
          ∧ ∀ later : List Addition, ∃ kept,
            ((calls ++ later).foldl perform base).get? name = some kept
              ∧ kept.parent = state.parent := by
  have htree : (calls.foldl perform base).Tree :=
    foldl_perform_induction (fun _ _ _ _ _ hbefore hadd => hbefore.add hadd) horigin.grown.tree
      calls
  refine ⟨?_, fun name state hget => ⟨htree.inPlace hget, fun later => ?_⟩⟩
  · obtain ⟨root, hroot⟩ := htree.root
    rw [hroot]
    rfl
  · rw [List.foldl_append]
    exact htree.exists_parent_of_calls hget later

/-- Two states below the root. -/
def hamlet : Chart :=
  (flat (State.new "a" []) [State.new "b" []]).toOption.getD new

/-- A state below another one, and calls that fail: the name is taken, or the state has a
parent already. The last state was given a start substate before it is added. -/
def hamletCalls : List Addition :=
  [.plain (State.new "c" []) (some "b"), .start (State.new "c" []) (some "a"),
    .several none (some ⟨"d", some "z", none, []⟩) [State.new "e" []],
    .plain ⟨"f", none, some "g", [State.entry "f" "g"]⟩ (some "c")]

/-- The last state is two levels below a state of the first level. -/
theorem hamlet_in_place :
    ∃ state, (hamletCalls.foldl perform hamlet).get? "f" = some state
      ∧ state.parent = some "c"
      ∧ (hamletCalls.foldl perform hamlet).InPlace "f" state
      ∧ ∀ later : List Addition, ∃ kept,
        ((hamletCalls ++ later).foldl perform hamlet).get? "f" = some kept
          ∧ kept.parent = some "c" := by
  have hget : (hamletCalls.foldl perform hamlet).get? "f"
      = some ⟨"f", some "c", some "g", [State.entry "f" "g"]⟩ := rfl
  have horigin : hamlet.Origin := Or.inr ⟨State.new "a" [], [State.new "b" []], rfl⟩
  obtain ⟨hplace, hlater⟩ := (calls_build_single_tree horigin hamletCalls).2 "f" _ hget
  exact ⟨_, hget, rfl, hplace, hlater⟩

end Chart

end Statechart
