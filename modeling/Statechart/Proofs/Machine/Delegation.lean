import Statechart.Proofs.Chart.Built
import Statechart.Proofs.Chart.StartSubstate
import Statechart.Proofs.Machine.Reach

/-!
# `Statechart.Proofs.Machine.Delegation`: entering start substates

A state that delegates has one way out, which is always open and leads to its start substate. So
a machine never stays there: its next step enters the start substate and closes nothing, provided
that the start substate is a child (`Aligned.delegated`).

A chart that is built by calls need not have it as a child, since a state can come with a start
substate. In the chart of a blueprint it is one (`Blueprint.initial_of_assemble`): a blueprint is
accepted only if a start substate is claimed once and agrees with its claimer about its parent,
and the chart is checked before it is given out. So delegation never fails in a machine of such
a chart (`delegation_law`).
-/

set_option autoImplicit false

namespace Statechart

namespace Blueprint

variable {blueprint : Blueprint} {registry : Registry} {chart : Chart} {name start : String}

/-- The state that is entered first in a state: the declared start substate of a declared state,
and the start state in the root. -/
def Initial (blueprint : Blueprint) (name start : String) : Prop :=
  blueprint.Delegates name start ∨ name = rootName ∧ blueprint.Starts start

/-- The chart of a blueprint was checked before it was given out. -/
theorem validate_of_assemble (hassemble : blueprint.assemble registry = .ok chart) :
    chart.validate = .ok () := by
  obtain ⟨_, -, hrest⟩ := bind_eq_ok.1 hassemble
  obtain ⟨_, -, hrest⟩ := bind_eq_ok.1 hrest
  obtain ⟨⟨⟩, hvalid, hpure⟩ := bind_eq_ok.1 hrest
  cases hpure
  exact hvalid

/-- In the chart of a blueprint the way into the initial state is the only way out, and the
initial state is a child. -/
theorem initial_of_assemble (hassemble : blueprint.assemble registry = .ok chart)
    (hinitial : blueprint.Initial name start) :
    (∃ state, chart.get? name = some state ∧ state.transitions = [State.entry name start])
      ∧ chart.Nested name start := by
  obtain ⟨hwellFormed, -, first, hfirst, hfinished⟩ := of_assemble hassemble
  have hinner : ∀ name plan, blueprint.states.get? name = some plan → name ≠ rootName :=
    fun name plan hget => (hwellFormed.named name (by simp [hget])).2
  -- A declared state has its effective parent, or else the root.
  have hnested : ∀ child parent, (blueprint.states.get? child).isSome →
      (blueprint.effectiveParent? child).getD rootName = parent → chart.Nested parent child := by
    intro child parent hdeclared hparent
    obtain ⟨plan, hget⟩ := Option.isSome_iff_exists.1 hdeclared
    refine ⟨_, (hfinished child).trans (finished?_eq (hinner child plan hget) hget), ?_⟩
    exact congrArg some hparent
  rcases hinitial with hdelegates | ⟨rfl, hstarts⟩
  · obtain ⟨plan, hget, hstart⟩ := id hdelegates
    refine ⟨⟨_, (hfinished name).trans (finished?_eq (hinner name plan hget) hget), ?_⟩, ?_⟩
    · simp only [hstart]
    · refine hnested start name (hwellFormed.declared name start hdelegates) ?_
      rw [hwellFormed.parent_of_delegates hdelegates]
      rfl
  · obtain rfl := hwellFormed.only first start hfirst hstarts
    obtain ⟨plan, hget, -⟩ := id hstarts
    refine ⟨⟨_, (hfinished rootName).trans finished?_root, rfl⟩, ?_⟩
    refine hnested first rootName (by simp [hget]) ?_
    rw [hwellFormed.parent_of_starts hstarts]
    rfl

end Blueprint

namespace Machine

variable {blueprint : Blueprint} {registry : Registry} {chart : Chart} {config : Config}
  {machine : Machine} {state : State} {start : String}

/-- A step enters the start substate: it succeeds with this move, opens an empty scope on top of
the others, and changes nothing else. -/
structure Delegated (machine : Machine) (name start : String) (step : StepTaken) : Prop where
  /-- The step answers with the move. -/
  result : step.result = .ok ⟨name, start, "Always " ++ name ++ "->" ++ start⟩
  /-- The machine has another scope and another move in its history. -/
  machine : step.machine = { machine with
    stack := ⟨⟨start, Dict.empty⟩ :: machine.stack.frames⟩
    history := machine.history.record ⟨name, start, "Always " ++ name ++ "->" ++ start⟩ }

/-- A machine that is not stopped is active as long as there is a way out of its state. -/
theorem active_of_transitions (hfault : machine.fault = none)
    (hcurrent : machine.current? = some state) (hways : state.transitions ≠ []) :
    machine.status = .idle ∨ machine.status = .running := by
  by_cases hdepth : machine.stack.depth ≤ 1
  · exact Or.inl ((status_eq_idle_iff hfault).2 hdepth)
  · refine Or.inr ?_
    simp [status, hfault, hdepth, hcurrent, State.isFinal, hways]

namespace Aligned

/-- A child finds all scopes of the active state. -/
theorem opened_of_nested (haligned : machine.Aligned) (hcurrent : machine.current? = some state)
    (hnested : machine.chart.Nested state.name start) :
    machine.opened state.name (State.entry state.name start).target
      = ⟨⟨start, Dict.empty⟩ :: machine.stack.frames⟩ := by
  obtain ⟨child, hget, hparent⟩ := hnested
  have hsource := (haligned.lineage_current hcurrent).2
  have hnear : Near machine.stack.states child := Or.inr ⟨_, hparent, hsource.self_mem⟩
  -- The lineage of the child is that of the active state with the child behind it.
  have htarget : machine.chart.Lineage (State.entry state.name start).target
      (machine.stack.states ++ [start]) := .under hget hparent hsource
  have hkept : keptPath machine.stack.states (machine.stack.states ++ [start])
      (State.entry state.name start).target = machine.stack.states :=
    List.append_cancel_right (keptPath_append haligned.tree hsource hget htarget hnear)
  rw [haligned.opened_eq hcurrent htarget, hkept, ScopeStack.length_states]
  simp [ScopeStack.truncate, State.entry, Transition.always]

/-- A state whose only way out leads into a child is left for the child, and nothing is
closed. -/
theorem delegated (haligned : machine.Aligned) (hvalid : machine.chart.validate = .ok ())
    (hfault : machine.fault = none) (hcurrent : machine.current? = some state)
    (honly : state.transitions = [State.entry state.name start])
    (hnested : machine.chart.Nested state.name start) :
    machine.Delegated state.name start machine.advance := by
  have hopened := haligned.opened_of_nested hcurrent hnested
  have hinner := haligned.tree.ne_root_of_nested hnested
  obtain ⟨child, hget, hparent⟩ := hnested
  have hsource := (haligned.lineage_current hcurrent).2
  have hactive := active_of_transitions hfault hcurrent (by simp [honly])
  have hchosen : machine.Chosen state (State.entry state.name start) child := by
    refine ⟨hactive, hcurrent, ?_, ?_, hget, Or.inr ⟨_, hparent, hsource.self_mem⟩⟩
    · rw [honly]
      exact List.forall_mem_singleton.2 ⟨true, rfl⟩
    · rw [honly]
      rfl
  rw [haligned.advance_eq_act hvalid hchosen hinner]
  refine ⟨rfl, ?_⟩
  show machine.entering state.name (State.entry state.name start) = _
  unfold entering
  rw [hopened]
  rfl

end Aligned

/-- In the chart of a blueprint, a machine that is not stopped enters the initial state of the
state that is active. -/
theorem Reached.delegated (hreached : Reached chart config machine)
    (hassemble : blueprint.assemble registry = .ok chart) (hstatus : machine.status ≠ .fatal)
    {head : Frame} (hhead : machine.stack.head? = some head)
    (hinitial : blueprint.Initial head.state start) :
    machine.Delegated head.state start machine.advance := by
  have hbuilt : chart.Built := Or.inr ⟨blueprint, registry, hassemble⟩
  have hvalid := Blueprint.validate_of_assemble hassemble
  obtain ⟨⟨state, hget, honly⟩, hnested⟩ := Blueprint.initial_of_assemble hassemble hinitial
  obtain ⟨rfl, haligned⟩ := hreached.aligned hbuilt.tree
  have hcurrent : machine.current? = some state := by simp [current?, hhead, hget]
  have hname : state.name = head.state := haligned.tree.named _ _ hget
  rw [← hname] at honly hnested ⊢
  exact haligned.delegated hvalid (fault_eq_none hstatus) hcurrent honly hnested

/-- Take a chart that is assembled from a blueprint, and a machine on it that steps, runs and
resets lead to and that is not stopped. If its innermost scope is that of a state with a declared
start substate, or of the root, then the next step succeeds and enters the start substate, or the
start state. It opens one empty scope and leaves the others as they are. So the first step of
every machine enters the start state, and there is one. -/
theorem delegation_law (hassemble : blueprint.assemble registry = .ok chart) (config : Config) :
    (∀ machine head start, Reached chart config machine → machine.status ≠ .fatal →
        machine.stack.head? = some head → blueprint.Initial head.state start →
        machine.Delegated head.state start machine.advance)
      ∧ (∃ start, blueprint.Starts start)
      ∧ ∀ start, blueprint.Starts start →
        (Machine.new chart config).Delegated rootName start
          (Machine.new chart config).advance := by
  obtain ⟨hwellFormed, -⟩ := Blueprint.of_assemble hassemble
  refine ⟨?_, hwellFormed.started, ?_⟩
  · intro machine head start hreached hstatus hhead hinitial
    exact hreached.delegated hassemble hstatus hhead hinitial
  · intro start hstarts
    have hfresh : (Machine.new chart config).status ≠ .fatal := by
      rw [Ne, status_eq_fatal_iff]
      simp [Machine.new]
    have hhead : (Machine.new chart config).stack.head? = some ⟨rootName, Dict.empty⟩ := rfl
    exact Reached.new.delegated hassemble hfresh hhead (Or.inr ⟨rfl, hstarts⟩)

/-- The first two steps of the household lead into the start state and its start substate. -/
theorem household_delegated :
    ∃ chart, Blueprint.household.assemble Registry.empty = .ok chart
      ∧ (Machine.new chart {}).Delegated "global" "a" (Machine.new chart {}).advance
      ∧ (Machine.new chart {}).advance.machine.Delegated "a" "b"
        (Machine.new chart {}).advance.machine.advance := by
  obtain ⟨chart, hassemble⟩ :
      ∃ chart, Blueprint.household.assemble Registry.empty = .ok chart := ⟨_, rfl⟩
  have hstarts : Blueprint.household.Starts "a" := ⟨_, rfl, rfl⟩
  have hdelegates : Blueprint.household.Delegates "a" "b" := ⟨_, rfl, by decide⟩
  obtain ⟨hdelegated, -, hfirst⟩ := delegation_law hassemble {}
  have hstep := hfirst "a" hstarts
  refine ⟨chart, hassemble, hstep, ?_⟩
  have hmachine := hstep.machine
  refine hdelegated _ ⟨"a", Dict.empty⟩ "b" (.advance .new) ?_ ?_ (Or.inl hdelegates)
  · rw [hmachine, Ne, status_eq_fatal_iff]
    simp [Machine.new]
  · rw [hmachine]
    rfl

end Machine

end Statechart
