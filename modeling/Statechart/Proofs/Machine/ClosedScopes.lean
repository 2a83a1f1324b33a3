import Statechart.Proofs.Machine.Causes

/-!
# `Statechart.Proofs.Machine.ClosedScopes`: closed scopes leave no trace

A step closes the scopes that its transition leaves before it opens the one of the target, and
only then the action runs. So the action can read and write the scopes that stay, and nothing
of what the others held.

`closed_scopes_law` says so of two machines. They are about to leave the same state over the
same transition, and their stacks agree on the states that the two lineages share, the target
left out. Then the target finds the same stack in both (`Aligned.opened_eq_opened`), and the two
steps arrive alike (`StepTaken.ArrivesLike`). The target is left out because it gets an empty
scope, even if it is an ancestor that had one, or the state that is left itself.

The histories need not agree, since an action does not see them.
-/

set_option autoImplicit false

namespace Statechart

namespace StepTaken

/-- The actions that a step runs: their transitions, the stacks that they see, and the notes
that they leave. -/
def actions (step : StepTaken) : List (String × ScopeStack × List String) :=
  (step.calls.filter (·.role = .entryAction)).map fun call =>
    (call.transition, call.stack, call.notes)

/-- Two steps with the same result run the same actions on the same stacks, and leave the same
stack behind. -/
structure ArrivesLike (step step' : StepTaken) : Prop where
  /-- The answers are the same. -/
  result : step.result = step'.result
  /-- The same actions see the same stacks and leave the same notes. -/
  actions : step.actions = step'.actions
  /-- The same scopes with the same variables are left. -/
  stack : step.machine.stack = step'.machine.stack

end StepTaken

namespace Machine

variable {chart : Chart} {config config' : Config} {machine machine' : Machine}
  {state target : State} {way : Transition} {path targetPath : List String}

/-- A running machine is about to leave a state: no guard fails, and one transition is open. -/
structure Departs (machine : Machine) (state : State) (way : Transition) : Prop where
  /-- The machine has left the root and can take steps. -/
  running : machine.status = .running
  /-- The state is active. -/
  current : machine.current? = some state
  /-- No guard fails. -/
  answered : machine.Answered state.transitions
  /-- One transition is open. -/
  only : state.transitions.filter machine.opens = [way]

/-- The kept states are shared, and the target is none of them. -/
theorem mem_of_mem_keptPath (htree : chart.Tree) {source : String}
    (hpath : chart.Lineage source path) (hget : chart.get? way.target = some target)
    (htarget : chart.Lineage way.target targetPath) (hnear : Near path target) {name : String}
    (hkept : name ∈ keptPath path targetPath way.target) :
    name ∈ Chart.sharedPath path targetPath ∧ name ≠ way.target := by
  constructor
  · unfold keptPath at hkept
    split at hkept
    · exact (List.dropLast_sublist _).mem hkept
    · exact hkept
  · -- On its own lineage the target comes last and does not come again.
    have hnodup := htarget.nodup
    rw [← keptPath_append htree hpath hget htarget hnear] at hnodup
    exact (List.nodup_append.1 hnodup).2.2 name hkept way.target (List.mem_singleton_self _)

/-- Stacks that agree on the scopes that stay are the same when the target is entered. -/
theorem Aligned.opened_eq_opened (haligned : machine.Aligned) (haligned' : machine'.Aligned)
    (hchart : machine.chart = machine'.chart) (hcurrent : machine.current? = some state)
    (hcurrent' : machine'.current? = some state)
    (hget : machine.chart.get? way.target = some target)
    (htarget : machine.chart.Lineage way.target targetPath)
    (hnear : Near machine.stack.states target)
    (hagree : ∀ name ∈ Chart.sharedPath machine.stack.states targetPath, name ≠ way.target →
      machine.stack.byState? name = machine'.stack.byState? name) :
    machine.opened state.name way.target = machine'.opened state.name way.target := by
  have hsource := (haligned.lineage_current hcurrent).2
  have hsource' := (haligned'.lineage_current hcurrent').2
  have htarget' := htarget
  rw [← hchart] at hsource'
  rw [hchart] at htarget'
  have hstates : machine.stack.states = machine'.stack.states := hsource'.unique hsource
  have hbegins := keptPath_begins machine.stack.states targetPath way.target
  -- As many scopes stay in both, and what stays is found by the kept states.
  have htruncate : machine.stack.truncate
        (keptPath machine.stack.states targetPath way.target).length
      = machine'.stack.truncate (keptPath machine.stack.states targetPath way.target).length := by
    refine ScopeStack.truncate_eq_truncate hstates hsource.nodup ?_
    rw [← List.prefix_iff_eq_take.1 hbegins]
    intro name hkept
    obtain ⟨hshared, hother⟩ :=
      mem_of_mem_keptPath haligned.tree hsource hget htarget hnear hkept
    exact hagree name hshared hother
  rw [haligned.opened_eq hcurrent htarget, haligned'.opened_eq hcurrent' htarget', ← hstates,
    htruncate]

/-- Guards are no actions. -/
theorem filter_askGuards (machine : Machine) (transitions : List Transition) :
    (machine.askGuards transitions).1.filter (·.role = .entryAction) = [] := by
  rw [List.filter_eq_nil_iff]
  intro call hcall
  simp [role_of_askGuards hcall]

/-- What an action does depends on nothing but the stack. -/
theorem act_arrivesLike (hstack : machine.stack = machine'.stack) {calls calls' : List Call}
    (hcalls : calls.filter (·.role = .entryAction) = [])
    (hcalls' : calls'.filter (·.role = .entryAction) = []) (way : Transition) (move : Move) :
    (machine.act calls way move).ArrivesLike (machine'.act calls' way move) := by
  unfold act
  cases way.action with
  | none => exact ⟨rfl, by simp [StepTaken.actions, hcalls, hcalls'], hstack⟩
  | some action =>
    simp only
    rw [← hstack]
    cases (action.run machine.stack).2.result with
    | ok => exact ⟨rfl, by simp [StepTaken.actions, hcalls, hcalls'], rfl⟩
    | error failure =>
      refine ⟨rfl, by simp [StepTaken.actions, Machine.fail, hcalls, hcalls'], ?_⟩
      simp only [fail, stop_stack]

/-- The stack lists the lineage of the active state, in terms of the chart. -/
theorem Reached.states_eq (htree : chart.Tree) (h : Reached chart config machine)
    (hcurrent : machine.current? = some state) (hpath : chart.Lineage state.name path) :
    machine.stack.states = path := by
  obtain ⟨rfl, haligned⟩ := h.aligned htree
  exact hpath.unique (haligned.lineage_current hcurrent).2

/-- A departing machine enters the target, if it is near and not the root. -/
theorem Reached.advance_eq_act (htree : chart.Tree) (h : Reached chart config machine)
    (hdeparts : machine.Departs state way) (hget : chart.get? way.target = some target)
    (hpath : chart.Lineage state.name path) (hnear : Near path target)
    (hinner : way.target ≠ rootName) :
    machine.advance = (machine.entering state.name way).act
      (machine.askGuards state.transitions).1 way ⟨state.name, way.target, way.name⟩ := by
  rw [← h.states_eq htree hdeparts.current hpath] at hnear
  obtain ⟨rfl, haligned⟩ := h.aligned htree
  have hfault := fault_eq_none_of_active (Or.inr hdeparts.running)
  have hvalid := h.checked htree hfault (one_lt_depth hdeparts.running)
  exact haligned.advance_eq_act hvalid
    ⟨Or.inr hdeparts.running, hdeparts.current, hdeparts.answered, hdeparts.only, hget, hnear⟩
    hinner

/-- Take two running machines that steps, runs and resets lead to on a built chart, with any
settings. Suppose that the same state is active in both, that no guard of it fails, and that the
same transition is its only open one. Suppose too that it leads to a state that is on the
lineage of the active one, or a child of a state there, but not to the root. If the two stacks
hold the same for the longest shared beginning of the two lineages, except for the target, then
the two steps arrive alike, whatever the other scopes hold. -/
theorem closed_scopes_law (hbuilt : chart.Built) (hreached : Reached chart config machine)
    (hreached' : Reached chart config' machine') (hdeparts : machine.Departs state way)
    (hdeparts' : machine'.Departs state way) (hinner : way.target ≠ rootName)
    (hget : chart.get? way.target = some target) (hpath : chart.lineage? state.name = some path)
    (htarget : chart.lineage? way.target = some targetPath) (hnear : Near path target)
    (hagree : ∀ shared, Chart.LongestShared shared path targetPath →
      ∀ name ∈ shared, name ≠ way.target →
        machine.stack.byState? name = machine'.stack.byState? name) :
    machine.advance.ArrivesLike machine'.advance := by
  have htree := hbuilt.tree
  have hsource := htree.lineage?_eq_some_iff.1 hpath
  have htarget := htree.lineage?_eq_some_iff.1 htarget
  have hstates := hreached.states_eq htree hdeparts.current hsource
  rw [hreached.advance_eq_act htree hdeparts hget hsource hnear hinner,
    hreached'.advance_eq_act htree hdeparts' hget hsource hnear hinner]
  refine act_arrivesLike ?_ (filter_askGuards _ _) (filter_askGuards _ _) _ _
  show machine.opened state.name way.target = machine'.opened state.name way.target
  obtain ⟨rfl, haligned⟩ := hreached.aligned htree
  obtain ⟨hchart, haligned'⟩ := hreached'.aligned htree
  rw [← hstates] at hnear hagree
  exact haligned.opened_eq_opened haligned' hchart.symm hdeparts.current hdeparts'.current hget
    htarget hnear (hagree _ (Chart.sharedPath_longest _ _))

/-- A transition that leads back to its state. Its action fails if it finds a mark, and leaves
one in the scope of the state. -/
def again : Transition :=
  .always "again" "a" (some (.ofScript (.look "mark" fun found =>
    if found.isSome then .fail (.plain "seen")
    else .put (.head "mark") (.bool true) .done)))

/-- A start state with this transition. -/
def vestibule : Chart :=
  [Chart.Addition.start (State.new "a" [again]) none].foldl Chart.perform Chart.new

/-- The mark that the action has left is closed with its scope. So the next step succeeds with
the mark as it does without. -/
theorem vestibule_unmarked :
    (Machine.new vestibule {}).advance.machine.stack.view "mark" = none
      ∧ (Machine.new vestibule {}).advance.machine.advance.machine.stack.view "mark"
        = some (.bool true)
      ∧ (Machine.new vestibule {}).advance.machine.advance.result = .ok ⟨"a", "a", "again"⟩
      ∧ (Machine.new vestibule {}).advance.machine.advance.ArrivesLike
        (Machine.new vestibule {}).advance.machine.advance.machine.advance := by
  have hreached : Reached vestibule {} (Machine.new vestibule {}).advance.machine := .advance .new
  have hdeparts : (Machine.new vestibule {}).advance.machine.Departs
      ⟨"a", some "global", none, [again]⟩ again :=
    ⟨by decide, rfl, List.forall_mem_singleton.2 ⟨true, rfl⟩, rfl⟩
  have hdeparts' : (Machine.new vestibule {}).advance.machine.advance.machine.Departs
      ⟨"a", some "global", none, [again]⟩ again :=
    ⟨by decide, rfl, List.forall_mem_singleton.2 ⟨true, rfl⟩, rfl⟩
  have hget : vestibule.get? "a" = some ⟨"a", some "global", none, [again]⟩ := rfl
  have hpath : vestibule.lineage? "a" = some ["global", "a"] := rfl
  refine ⟨rfl, rfl, rfl, closed_scopes_law (Or.inl ⟨_, rfl⟩) hreached hreached.advance hdeparts
    hdeparts' (by decide) hget hpath hpath (Or.inl (by decide)) ?_⟩
  intro shared hshared name hname hother
  -- Besides the target only the root is shared, and both machines left its scope empty.
  have hmem : name = "global" ∨ name = "a" := by simpa using hshared.inLeft.subset hname
  rw [hmem.resolve_right hother]
  rfl

end Machine

end Statechart
