import Statechart.Proofs.Chart.Consistency

/-!
# `Statechart.Proofs.Chart.StartSubstate`: start substates and their parents

A start substate is to be a child of the state that delegates to it. The two links are kept
apart: the state names its start substate, and the child names its parent. A call for a start
substate sets both, and no later call touches them. But a state that is added may have adopted
a start substate before. The adopted state has a parent then and cannot be added any more, so
whatever stands under its name in the chart is another state, with a parent of its own.

`Addition.nested_or_given` says so of all charts that calls lead to: a start substate is
`Nested`, or its parent was given to a call with this start substate. The check of a chart does
not tell the two apart. It sees to it that there is a state of the name, because the way into
the start substate leads there (`accepted_start_substates`), but it accepts one with another
parent (`changeling_not_nested`).
-/

set_option autoImplicit false

namespace Statechart

namespace Chart

variable {chart chart' : Chart} {name start : String} {state above : State}
  {parent : Option String} {isStart : Bool} {calls : List Addition}

/-- There is a state under the name `start`, and it is a child of the state `name`. -/
def Nested (chart : Chart) (name start : String) : Prop :=
  ∃ child, chart.get? start = some child ∧ child.parent = some name

/-- A call tries to add a state of this name that has this start substate already. -/
def Addition.Gives (call : Addition) (name start : String) : Prop :=
  ∃ added ∈ call.states, added.name = name ∧ added.startSubstate = some start

/-- A child stays with its parent. -/
theorem Nested.add (h : chart.Nested name start) (hnamed : chart.Named)
    (hadd : chart.add state parent isStart = .ok chart') : chart'.Nested name start := by
  obtain ⟨child, hchild, hparent⟩ := h
  obtain ⟨kept, hkept, hsame⟩ := get?_parent_of_add hnamed hadd start child hchild
  exact ⟨kept, hkept, hsame.trans hparent⟩

/-- Adding a start substate nests it. -/
theorem nested_adding (chart : Chart) (above state : State) (isStart : Bool) :
    (chart.adding above state isStart).Nested above.name state.name := by
  refine ⟨state.under above.name, ?_, rfl⟩
  rw [get?_adding, if_pos rfl]

/-- No state is a child of itself. -/
theorem Tree.not_nested_self (htree : chart.Tree) : ¬ chart.Nested name name := by
  intro ⟨state, hget, hparent⟩
  obtain ⟨path, hpath⟩ := htree.rooted name state hget
  -- The lineage of the state would be its own lineage with the state behind it.
  have hlength := congrArg List.length (hpath.unique (.under hget hparent hpath))
  rw [List.length_append, List.length_singleton] at hlength
  omega

/-- The root is no child. -/
theorem Tree.ne_root_of_nested (htree : chart.Tree) (h : chart.Nested name start) :
    start ≠ rootName := by
  rintro rfl
  obtain ⟨root, hroot, hparent⟩ := h
  rw [(htree.top rootName root hroot).2 rfl] at hparent
  cases hparent

/-- The start substate of a state is a child of it, or the state was given to a call with this
start substate. The root always has its start substate as a child. -/
theorem Addition.nested_or_given (hget : (calls.foldl perform new).get? name = some state)
    (hstart : state.startSubstate = some start) :
    (calls.foldl perform new).Nested name start
      ∨ name ≠ rootName ∧ ∃ call ∈ calls, call.Gives name start := by
  -- The tree is carried along, since additions are only described on charts with named states.
  suffices h : (calls.foldl perform new).Tree
      ∧ ∀ name state start, (calls.foldl perform new).get? name = some state →
        state.startSubstate = some start →
        (calls.foldl perform new).Nested name start
          ∨ name ≠ rootName ∧ ∃ call ∈ calls, call.Gives name start from
    h.2 name state start hget hstart
  refine foldl_perform_induction_of_mem (P := fun chart => chart.Tree
    ∧ ∀ name state start, chart.get? name = some state → state.startSubstate = some start →
      chart.Nested name start ∨ name ≠ rootName ∧ ∃ call ∈ calls, call.Gives name start) ?_
    ⟨tree_new, ?_⟩
  · intro call hcall chart added hadded parent isStart after hbefore hadd
    obtain ⟨htree, hlinked⟩ := hbefore
    have hold : ∀ name state start, chart.get? name = some state →
        state.startSubstate = some start →
        after.Nested name start ∨ name ≠ rootName ∧ ∃ call ∈ calls, call.Gives name start :=
      fun name state start hget hstart =>
        (hlinked name state start hget hstart).imp_left fun h => h.add htree.named hadd
    refine ⟨htree.add hadd, ?_⟩
    obtain ⟨-, hfresh, -, above, habove, -, rfl⟩ := (add_eq_ok_iff htree.named).1 hadd
    intro other found start hfound hdelegates
    rw [get?_adding] at hfound
    split at hfound
    · next hname =>
      -- The new state only gets its parent, so it has come with its start substate.
      cases hfound
      refine Or.inr ⟨fun hroot => ?_, call, hcall, added, hadded, hname.symm, hdelegates⟩
      obtain ⟨root, hget⟩ := htree.root
      rw [← hroot, hname, hfresh] at hget
      cases hget
    · split at hfound
      · next hname =>
        cases hfound
        cases isStart with
        | true =>
          have hsame : added.name = start := Option.some.inj hdelegates
          rw [hname, ← hsame]
          exact Or.inl (nested_adding chart above added true)
        | false =>
          refine hold other above start ?_ hdelegates
          rw [hname, htree.named _ _ habove]
          exact habove
      · exact hold other found start hfound hdelegates
  · intro other found start hfound hdelegates
    rw [get?_new] at hfound
    split at hfound
    · cases hfound
      cases hdelegates
    · cases hfound

/-- Make any calls on a root alone, with any states and whether they succeed or not. If the
check accepts the chart, then the start substate of every state is there. It is a child of the
state that delegates to it. The one exception is a state below the root that was given to a call
with this start substate already. -/
theorem accepted_start_substates (calls : List Addition)
    (hvalid : (calls.foldl perform new).validate = .ok ()) (name start : String) (state : State)
    (hget : (calls.foldl perform new).get? name = some state)
    (hstart : state.startSubstate = some start) :
    ∃ child, (calls.foldl perform new).get? start = some child
      ∧ (child.parent = some name
        ∨ name ≠ rootName ∧ ∃ call ∈ calls, ∃ added ∈ call.states, added.name = name
          ∧ added.startSubstate = some start) := by
  have htree : (calls.foldl perform new).Tree := Grown.tree ⟨calls, rfl⟩
  rcases Addition.nested_or_given hget hstart with ⟨child, hchild, hparent⟩ | ⟨hinner, hgiven⟩
  · exact ⟨child, hchild, Or.inl hparent⟩
  · -- The one way out leads to the start substate, and targets are known.
    obtain ⟨only, honly, htarget⟩ := (htree.sound _ _ hget).delegating start hstart
    have hconsistent := htree.validate_eq_ok_iff.1 hvalid
    have hknown := hconsistent.known name state hget only (by simp [honly])
    rw [htarget] at hknown
    obtain ⟨child, hchild⟩ := Option.isSome_iff_exists.1 hknown
    exact ⟨child, hchild, Or.inr ⟨hinner, hgiven⟩⟩

/-- A start state that has adopted a start substate before it is added, beside another state of
the adopted one's name. -/
def changeling : List Addition :=
  [.start ((State.new "a" []).adopting "b" true) none, .plain (State.new "b" []) none]

/-- The check accepts the chart. The root has its start substate as a child, and the other state
that delegates was given to a call with its start substate. -/
theorem changeling_accepted :
    (changeling.foldl perform new).validate = .ok ()
      ∧ (∃ child, (changeling.foldl perform new).get? "a" = some child
        ∧ child.parent = some rootName)
      ∧ ∃ call ∈ changeling, ∃ added ∈ call.states, added.name = "a"
        ∧ added.startSubstate = some "b" := by
  have hvalid : (changeling.foldl perform new).validate = .ok () := rfl
  have hroot : (changeling.foldl perform new).get? rootName
      = some ⟨"global", none, some "a", [State.entry "global" "a"]⟩ := rfl
  have hget : (changeling.foldl perform new).get? "a"
      = some ⟨"a", some "global", some "b", [State.entry "a" "b"]⟩ := rfl
  have hother : (changeling.foldl perform new).get? "b"
      = some ⟨"b", some "global", none, []⟩ := rfl
  refine ⟨hvalid, ?_, ?_⟩
  · obtain ⟨child, hchild, hparent | ⟨hinner, -⟩⟩ :=
      accepted_start_substates changeling hvalid rootName "a" _ hroot rfl
    · exact ⟨child, hchild, hparent⟩
    · exact absurd rfl hinner
  · obtain ⟨child, hchild, hparent | ⟨-, hgiven⟩⟩ :=
      accepted_start_substates changeling hvalid "a" "b" _ hget rfl
    · rw [hother] at hchild
      cases hchild
      exact absurd hparent (by decide)
    · exact hgiven

/-- An accepted chart can have a state whose start substate is a child of another one: the state
has adopted its start substate before, and what is in the chart now is another state. -/
theorem changeling_not_nested :
    (State.new "a" []).adopt (State.new "b" []) true
        = .ok ((State.new "a" []).adopting "b" true, (State.new "b" []).under "a")
      ∧ (changeling.foldl perform new).validate = .ok ()
      ∧ (∃ state, (changeling.foldl perform new).get? "a" = some state
        ∧ state.startSubstate = some "b")
      ∧ ¬ (changeling.foldl perform new).Nested "a" "b" := by
  refine ⟨rfl, rfl, ⟨_, rfl, rfl⟩, ?_⟩
  intro ⟨child, hchild, hparent⟩
  have hget : (changeling.foldl perform new).get? "b" = some ⟨"b", some "global", none, []⟩ := rfl
  rw [hget] at hchild
  cases hchild
  exact absurd hparent (by decide)

end Chart

end Statechart
