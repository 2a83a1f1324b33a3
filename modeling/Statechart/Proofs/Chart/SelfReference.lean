import Statechart.Proofs.Chart.StartSubstate

/-!
# `Statechart.Proofs.Chart.SelfReference`: states that only refer to themselves

The check of a chart collects the start substates and the targets of the transitions of all
states, and reports the states that are not among them. It leaves out a transition from a
state to itself, but not a start substate that is the state itself. So a state can be
`Referenced` although no other state refers to it (`referenced_iff`).

`accepted_references` says how far the check goes: in an accepted chart every state below the
root is referred to by another state, or it is its own start substate. No addition makes a
state its own start substate (`Addition.exists_of_delegates`), so such a state was linked to a
state of its own name before it was added.

The root, too, refers to other states only (`Grown.target_ne_root`).
-/

set_option autoImplicit false

namespace Statechart

namespace Chart

variable {chart : Chart} {name : String} {state : State} {calls : List Addition}

/-- Another state has the state as its start substate, or a transition to it. -/
def ReferencedByOther (chart : Chart) (name : String) : Prop :=
  ∃ other above, other ≠ name ∧ chart.get? other = some above
    ∧ (above.startSubstate = some name ∨ ∃ way ∈ above.transitions, way.target = name)

/-- A state that is referred to is referred to by another one, or is its own start substate. -/
theorem referenced_iff :
    chart.Referenced name
      ↔ chart.ReferencedByOther name
        ∨ ∃ state, chart.get? name = some state ∧ state.startSubstate = some name := by
  constructor
  · intro ⟨other, above, hget, href⟩
    by_cases hother : other = name
    · -- A reference from the state itself counts only through its start substate.
      subst hother
      rcases href with hstart | ⟨hne, -⟩
      · exact Or.inr ⟨above, hget, hstart⟩
      · exact absurd rfl hne
    · refine Or.inl ⟨other, above, hother, hget, ?_⟩
      exact href.imp_right And.right
  · intro h
    rcases h with ⟨other, above, hother, hget, href⟩ | ⟨state, hget, hstart⟩
    · exact ⟨other, above, hget, href.imp_right fun hway => ⟨Ne.symm hother, hway⟩⟩
    · exact ⟨name, state, hget, Or.inl hstart⟩

/-- A state that is its own start substate was its own start substate when it was added. -/
theorem Addition.exists_of_delegates
    (hget : (calls.foldl perform new).get? name = some state)
    (hself : state.startSubstate = some name) :
    ∃ call ∈ calls, ∃ added ∈ call.states, added.name = name
      ∧ added.startSubstate = some name := by
  rcases Addition.nested_or_given hget hself with hnested | ⟨-, hgiven⟩
  · exact absurd hnested (Tree.not_nested_self (Grown.tree ⟨calls, rfl⟩))
  · exact hgiven

/-- The root is left only for its start substate, so no way out of it leads back to it. -/
theorem Grown.target_ne_root {root : State} {way : Transition} (h : chart.Grown)
    (hroot : chart.get? rootName = some root) (hway : way ∈ root.transitions) :
    way.target ≠ rootName := by
  -- That the chart is a tree is kept along, as it says what an addition can change.
  suffices hinv : chart.Tree ∧ ∀ root, chart.get? rootName = some root →
      ∀ way ∈ root.transitions, way.target ≠ rootName from hinv.2 root hroot way hway
  refine h.induction (P := fun chart => chart.Tree ∧ ∀ root, chart.get? rootName = some root →
    ∀ way ∈ root.transitions, way.target ≠ rootName) ⟨tree_new, ?_⟩ ?_
  · intro root hroot way hway
    rw [get?_new, if_pos rfl] at hroot
    cases hroot
    cases hway
  · intro chart added parent isStart after hbefore hadd
    obtain ⟨htree, hleaves⟩ := hbefore
    refine ⟨htree.add hadd, ?_⟩
    obtain ⟨-, hfresh, -, above, habove, -, rfl⟩ := (add_eq_ok_iff htree.named).1 hadd
    have hadded : rootName ≠ added.name := by
      intro heq
      obtain ⟨old, hold⟩ := htree.root
      rw [heq, hfresh] at hold
      cases hold
    intro root hroot way hway
    rw [get?_adding, if_neg hadded] at hroot
    split at hroot
    · next hname =>
      cases hroot
      cases isStart with
      | true =>
        -- The new start substate is the one target.
        have hentry : way = State.entry above.name added.name := List.mem_singleton.1 hway
        rw [hentry]
        exact hadded.symm
      | false =>
        refine hleaves above ?_ way hway
        rw [hname, htree.named _ _ habove]
        exact habove
    · exact hleaves root hroot way hway

/-- Make any calls on a root alone, with any states and whether they succeed or not. If the
check accepts the chart, then every state below the root is the start substate of another state
or the target of a transition of one. The one exception is a state that was given to a call as
its own start substate; its only way out leads back to it. -/
theorem accepted_references (calls : List Addition)
    (hvalid : (calls.foldl perform new).validate = .ok ()) (name : String) (state : State)
    (hget : (calls.foldl perform new).get? name = some state) (hinner : name ≠ rootName) :
    (calls.foldl perform new).ReferencedByOther name
      ∨ state.startSubstate = some name
        ∧ (∃ only, state.transitions = [only] ∧ only.target = name)
        ∧ ∃ call ∈ calls, ∃ added ∈ call.states, added.name = name
          ∧ added.startSubstate = some name := by
  have htree : (calls.foldl perform new).Tree := Grown.tree ⟨calls, rfl⟩
  have hconsistent := htree.validate_eq_ok_iff.1 hvalid
  have href : (calls.foldl perform new).Referenced name :=
    hconsistent.referenced name state hget hinner
  -- What the check counts as a reference comes from another state, or makes the state its own
  -- start substate.
  rcases referenced_iff.1 href with hother | ⟨found, hfound, hself⟩
  · exact Or.inl hother
  · rw [hget] at hfound
    cases hfound
    exact Or.inr ⟨hself, (htree.sound _ _ hget).delegating _ hself,
      Addition.exists_of_delegates hget hself⟩

/-- A state that has adopted another state of its own name as its start substate. -/
def recluse : State :=
  (State.new "b" []).adopting "b" true

/-- A start state without ways out, beside a state that is its own start substate. -/
def hermitage : List Addition :=
  [.start (State.new "a" []) none, .plain recluse none]

/-- Besides the state itself there are the start state and the root, and neither refers to
it. -/
theorem not_referencedByOther_hermitage :
    ¬ (hermitage.foldl perform new).ReferencedByOther "b" := by
  intro ⟨other, above, hother, hget, href⟩
  have hmem := Dict.mem_of_lookup hget
  have hentries : (hermitage.foldl perform new).states.entries
      = [("a", ⟨"a", some "global", none, []⟩),
        ("b", ⟨"b", some "global", some "b", [State.entry "b" "b"]⟩),
        ("global", ⟨"global", none, some "a", [State.entry "global" "a"]⟩)] := rfl
  rw [hentries] at hmem
  simp only [List.mem_cons, Prod.mk.injEq, List.not_mem_nil, or_false] at hmem
  rcases hmem with ⟨rfl, rfl⟩ | ⟨rfl, rfl⟩ | ⟨rfl, rfl⟩
  · simp at href
  · exact hother rfl
  · simp [State.entry, Transition.always] at href

/-- The check accepts the chart, so the state that nothing else refers to was given to a call as
its own start substate. -/
theorem hermitage_accepted :
    (hermitage.foldl perform new).validate = .ok ()
      ∧ ∃ call ∈ hermitage, ∃ added ∈ call.states, added.name = "b"
        ∧ added.startSubstate = some "b" := by
  have hvalid : (hermitage.foldl perform new).validate = .ok () := rfl
  have hget : (hermitage.foldl perform new).get? "b"
      = some ⟨"b", some "global", some "b", [State.entry "b" "b"]⟩ := rfl
  have hinner : "b" ≠ rootName := by decide
  refine ⟨hvalid, ?_⟩
  rcases accepted_references hermitage hvalid "b" _ hget hinner with hother | ⟨-, -, hgiven⟩
  · exact absurd hother not_referencedByOther_hermitage
  · exact hgiven

/-- An accepted chart can have a state below the root that no other state refers to: the state
has adopted one of its own name before it was added. -/
theorem hermitage_unreferenced :
    (State.new "b" []).adopt (State.new "b" []) true
        = .ok (recluse, (State.new "b" []).under "b")
      ∧ (hermitage.foldl perform new).validate = .ok ()
      ∧ ((hermitage.foldl perform new).get? "b").isSome
      ∧ "b" ≠ rootName
      ∧ ¬ (hermitage.foldl perform new).ReferencedByOther "b" :=
  ⟨rfl, rfl, rfl, by decide, not_referencedByOther_hermitage⟩

end Chart

end Statechart
