import Statechart.Proofs.Chart.Consistency

/-!
# `Statechart.Proofs.Chart.Rejection`: what the check of a chart reports

`Chart.validate` goes through the states and then looks for states left out, so a rejected
chart has a state that fails its own check, or states that nothing refers to
(`validate_eq_error_cases`). Whatever is reported is a fault of a state or of the chart
(`kind_of_validate`).

A chart that calls lead to is a tree of well-formed states. There the checks of single states
and of their parents never fail, and any two states have a common ancestor. So only two
reports are left, a transition that leads nowhere and states left out, and `validation_law`
says exactly when each of them is possible.
-/

set_option autoImplicit false

namespace Statechart

namespace Chart

variable {chart : Chart} {name origin : String} {state : State} {way : Transition}
  {visited : List String} {bound : Nat} {fault : Fault}

/-! ### Reports about any chart -/

/-- A rejected chart has a state that fails its check, or states that are left out. -/
theorem validate_eq_error_cases (h : chart.validate = .error fault) :
    (∃ name state, chart.get? name = some state ∧ chart.validateMember state = .error fault)
      ∨ chart.isolated ≠ [] ∧ fault = .chartInvalid (.isolated chart.isolated) := by
  unfold validate at h
  rcases bind_eq_error.1 h with hmembers | ⟨_, -, hisolated⟩
  · obtain ⟨state, hvalue, hmember⟩ := exists_of_forM_eq_error hmembers
    obtain ⟨name, hget⟩ := (Dict.mem_values _ _).1 hvalue
    exact Or.inl ⟨name, state, hget, hmember⟩
  · split at hisolated
    · cases hisolated
    · next hne =>
      cases hisolated
      exact Or.inr ⟨hne, rfl⟩

/-- A state fails its check on its own or with its parents, or by a transition that leads
nowhere or to another tree. -/
theorem validateMember_eq_error_cases (h : chart.validateMember state = .error fault) :
    chart.validateState state = .error fault
      ∨ ∃ way ∈ state.transitions,
        (chart.get? way.target = none
          ∧ fault = .chartInvalid (.unknownDestination way.name state.name way.target))
        ∨ (chart.get? way.target).isSome
          ∧ chart.commonAncestor? state.name way.target = none
          ∧ fault = .chartInvalid (.noCommonParent state.name way.target) := by
  unfold validateMember at h
  rcases bind_eq_error.1 h with hstate | ⟨_, -, hways⟩
  · exact Or.inl hstate
  · obtain ⟨way, hway, hreport⟩ := exists_of_forM_eq_error hways
    refine Or.inr ⟨way, hway, ?_⟩
    -- A known target is asked for a common parent, an unknown one is reported at once.
    unfold validateTransition at hreport
    split at hreport
    · next hknown =>
      split at hreport
      · cases hreport
      · next hcommon =>
        cases hreport
        exact Or.inr ⟨hknown, by simpa using hcommon, rfl⟩
    · next hunknown =>
      cases hreport
      exact Or.inl ⟨by simpa using hunknown, rfl⟩

/-- The walk up the parents reports a cycle or a parent that is not there. -/
theorem kind_of_validateChain (h : chart.validateChain origin bound visited state = .error fault) :
    fault.kind = .stateInvalid ∨ fault.kind = .chartInvalid := by
  -- Running out of the bound counts as a cycle.
  induction bound generalizing visited state with
  | zero =>
    cases h
    exact Or.inl rfl
  | succ bound ih =>
    unfold validateChain at h
    split at h
    · cases h
      exact Or.inl rfl
    · split at h
      · cases h
      · split at h
        · cases h
          exact Or.inr rfl
        · exact ih h

/-- The check of a chart reports nothing but faults of a state or of the chart. -/
theorem kind_of_validate (h : chart.validate = .error fault) :
    fault.kind = .stateInvalid ∨ fault.kind = .chartInvalid := by
  rcases validate_eq_error_cases h with ⟨name, state, -, hmember⟩ | ⟨-, hfault⟩
  · rcases validateMember_eq_error_cases hmember with hstate | ⟨way, -, hway⟩
    · rcases bind_eq_error.1 hstate with hown | ⟨_, -, hchain⟩
      · exact Or.inl (State.kind_of_validate hown)
      · exact kind_of_validateChain hchain
    · rcases hway with ⟨-, hfault⟩ | ⟨-, -, hfault⟩
      · exact Or.inr (by rw [hfault]; rfl)
      · exact Or.inr (by rw [hfault]; rfl)
  · exact Or.inr (by rw [hfault]; rfl)

/-- The check of a chart reports no faults of a run. -/
theorem kind_ne_runtime_of_validate (h : chart.validate = .error fault) :
    fault.kind ≠ .runtime := by
  rcases kind_of_validate h with hkind | hkind
  · simp [hkind]
  · simp [hkind]

/-! ### Reports about trees -/

/-- In a tree a state fails its check only by a transition that leads nowhere. -/
theorem Tree.validateMember_eq_error (htree : chart.Tree) (hget : chart.get? name = some state)
    (h : chart.validateMember state = .error fault) :
    ∃ way ∈ state.transitions, chart.get? way.target = none
      ∧ fault = .chartInvalid (.unknownDestination way.name name way.target) := by
  have hname : state.name = name := htree.named name state hget
  rcases validateMember_eq_error_cases h with hstate | ⟨way, hway, hreport⟩
  · -- The state and its parents are in order, as in every tree.
    rw [htree.validateState_eq_ok hget] at hstate
    cases hstate
  · rw [hname] at hreport
    rcases hreport with ⟨hunknown, hfault⟩ | ⟨hknown, hcommon, -⟩
    · exact ⟨way, hway, hunknown, hfault⟩
    · -- The target is a state of the tree, so it shares the root with the source at least.
      obtain ⟨target, htarget⟩ := Option.isSome_iff_exists.1 hknown
      obtain ⟨path, hpath⟩ := htree.rooted name state hget
      obtain ⟨targetPath, htargetPath⟩ := htree.rooted way.target target htarget
      rw [htree.commonAncestor?_eq hpath htargetPath] at hcommon
      cases hcommon

/-- Take a chart that calls lead to from a root alone, whatever states they add and whether
they succeed or not. The check accepts the chart exactly if it is consistent. Otherwise it
reports a transition of the chart that leads nowhere, or else the states left out: all those
below the root that nothing refers to. It reports nothing else. -/
theorem validation_law (hgrown : chart.Grown) :
    (chart.validate = .ok () ↔ chart.Consistent)
      ∧ ∀ fault, chart.validate = .error fault →
        (∃ name state, chart.get? name = some state ∧ ∃ way ∈ state.transitions,
          chart.get? way.target = none
            ∧ fault = .chartInvalid (.unknownDestination way.name name way.target))
        ∨ ∃ names, names ≠ [] ∧ fault = .chartInvalid (.isolated names)
          ∧ ∀ name, name ∈ names
            ↔ (chart.get? name).isSome ∧ name ≠ rootName ∧ ¬ chart.Referenced name := by
  have htree := hgrown.tree
  refine ⟨htree.validate_eq_ok_iff, fun fault hreport => ?_⟩
  rcases validate_eq_error_cases hreport with ⟨name, state, hget, hmember⟩ | ⟨hne, hfault⟩
  · exact Or.inl ⟨name, state, hget, htree.validateMember_eq_error hget hmember⟩
  · exact Or.inr ⟨chart.isolated, hne, hfault, fun name => htree.named.mem_isolated_iff⟩

/-- A start state beside a state that was given a start substate of its own before it was
added; that substate was never added. -/
def outpost : Chart :=
  [Addition.start (State.new "base" []) none,
    .plain ⟨"camp", none, some "tent", [State.entry "camp" "tent"]⟩ none].foldl perform new

/-- The check of the chart with the missing substate reports the way into it. -/
theorem outpost_rejected :
    outpost.validate
        = .error (.chartInvalid (.unknownDestination "Always camp->tent" "camp" "tent"))
      ∧ ¬ outpost.Consistent
      ∧ ∃ name state, outpost.get? name = some state
        ∧ ∃ way ∈ state.transitions, outpost.get? way.target = none := by
  have hreport : outpost.validate
      = .error (.chartInvalid (.unknownDestination "Always camp->tent" "camp" "tent")) := rfl
  have hgrown : outpost.Grown := ⟨_, rfl⟩
  obtain ⟨haccepted, hrejected⟩ := validation_law hgrown
  refine ⟨hreport, fun hconsistent => ?_, ?_⟩
  · rw [haccepted.2 hconsistent] at hreport
    cases hreport
  · rcases hrejected _ hreport with ⟨name, state, hget, way, hway, hunknown, -⟩ | ⟨_, -, hother, -⟩
    · exact ⟨name, state, hget, way, hway, hunknown⟩
    · cases hother

end Chart

end Statechart
