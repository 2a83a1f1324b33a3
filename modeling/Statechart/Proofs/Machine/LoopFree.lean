import Mathlib.Logic.Relation
import Statechart.Proofs.Machine.BoundedRun
import Statechart.Proofs.Machine.Trace

/-!
# `Statechart.Proofs.Machine.LoopFree`: runs of charts without loops

The transitions of a chart are the edges of a graph over its states. If no path of the graph
leads from a state back to it, a run enters no state twice: what it has entered is listed by its
history, and the states there are all different (`Trace.nodup`). So a run makes fewer moves than
there are states, whatever guards and actions do.

* `Trace.length_lt_size`: a history is shorter than the number of states.
* `Traced.history_lt`: a machine that can take a step is one move further away from it, because
  its active state has a way out, and this leads to a state that was not entered.
* `loop_free_law`: so every run comes to its end, with as many steps as that or fewer, and a
  limit that allows them is never the reason why a machine is stopped.
-/

set_option autoImplicit false

namespace Statechart

open Relation (ReflTransGen TransGen)

/-- The fault was given because a run had reached its limit of steps. -/
def Fault.ForLimit (fault : Fault) : Prop :=
  ∃ limit, fault.rootCause = .runtime (.stepLimit limit)

namespace Chart

variable {chart : Chart} {name : String} {state : State} {way : Transition}

/-- A transition leads from one state to another. -/
def Edge (chart : Chart) (source target : String) : Prop :=
  ∃ state, chart.get? source = some state ∧ ∃ way ∈ state.transitions, way.target = target

/-- No path of transitions leads from a state back to it. -/
def LoopFree (chart : Chart) : Prop :=
  ∀ name, ¬ TransGen chart.Edge name name

/-- A chart is free of loops if its transitions lead up in some numbering of the states. -/
theorem loopFree_of_rank (rank : String → Nat)
    (hrank : ∀ entry ∈ chart.states.entries, ∀ way ∈ entry.2.transitions,
      rank entry.1 < rank way.target) : chart.LoopFree := by
  have hedge : ∀ source target, chart.Edge source target → rank source < rank target := by
    rintro source target ⟨state, hget, way, hway, rfl⟩
    exact hrank (source, state) ((chart.states.mem_entries source state).2 hget) way hway
  intro name hloop
  have hlt : ∀ target, TransGen chart.Edge name target → rank name < rank target := by
    intro target hpath
    induction hpath with
    | single hfirst => exact hedge _ _ hfirst
    | tail _ hlast ih => exact ih.trans (hedge _ _ hlast)
  exact Nat.lt_irrefl _ (hlt name hloop)

end Chart

namespace Trace

variable {chart : Chart} {moves : List Move} {last : String}

/-- Transitions lead from every state on the way to the last one. -/
theorem reaches (h : Trace chart moves last) :
    ∀ name ∈ rootName :: moves.map (·.target), ReflTransGen chart.Edge name last := by
  induction h with
  | start =>
    intro name hname
    rw [List.mem_singleton.1 hname]
  | @move moves source state way hbefore hget hway hinner ih =>
    have hedge : chart.Edge source way.target := ⟨state, hget, way, hway, rfl⟩
    intro name hname
    rw [List.map_append, ← List.cons_append] at hname
    rcases List.mem_append.1 hname with hearlier | hlast
    · exact (ih name hearlier).tail hedge
    · rw [List.mem_singleton.1 hlast]

/-- Without loops no state is entered twice, and the root is not entered at all. -/
theorem nodup (hfree : chart.LoopFree) (h : Trace chart moves last) :
    (rootName :: moves.map (·.target)).Nodup := by
  induction h with
  | start => exact List.nodup_singleton _
  | @move moves source state way hbefore hget hway hinner ih =>
    have hedge : chart.Edge source way.target := ⟨state, hget, way, hway, rfl⟩
    -- If the target had been entered before, its transitions would lead back to it.
    have hfresh : way.target ∉ rootName :: moves.map (·.target) := fun hmem =>
      hfree way.target (TransGen.tail' (hbefore.reaches way.target hmem) hedge)
    rw [List.map_append, ← List.cons_append]
    refine List.nodup_append.2 ⟨ih, List.nodup_singleton _, ?_⟩
    intro name hname target htarget hsame
    rw [hsame, List.mem_singleton.1 htarget] at hname
    exact hfresh hname

/-- The states on the way are in the chart. -/
theorem known (hroot : (chart.get? rootName).isSome) (hconsistent : chart.Consistent)
    (h : Trace chart moves last) :
    ∀ name ∈ rootName :: moves.map (·.target), (chart.get? name).isSome := by
  intro name hname
  rcases List.mem_cons.1 hname with rfl | hname
  · exact hroot
  · obtain ⟨move, hmove, rfl⟩ := List.mem_map.1 hname
    obtain ⟨state, hget, way, hway, -, htarget⟩ := h.exists_way hmove
    rw [← htarget]
    exact hconsistent.known _ state hget way hway

/-- Without loops there are fewer moves than states. -/
theorem length_lt_size (hfree : chart.LoopFree) (hroot : (chart.get? rootName).isSome)
    (hconsistent : chart.Consistent) (h : Trace chart moves last) :
    moves.length < chart.size := by
  -- The root and the states entered are different states of the chart.
  have hle := chart.states.length_le_size (h.nodup hfree) (h.known hroot hconsistent)
  rw [List.length_cons, List.length_map] at hle
  exact hle

end Trace

namespace Machine

variable {chart : Chart} {config : Config} {machine after : Machine} {state : State}
  {fault : Fault} {n : Nat} {calls : List Call}

/-! ### The moves of a run -/

/-- An active machine has a way out of its active state. -/
theorem Aligned.exists_way (haligned : machine.Aligned)
    (hstart : (machine.chart.start?).isSome) (hactive : machine.isActive = true)
    (hcurrent : machine.current? = some state) : ∃ way, way ∈ state.transitions := by
  obtain ⟨hget, hpath⟩ := haligned.lineage_current hcurrent
  rcases isActive_iff.1 hactive with hidle | hrunning
  · -- The state of an idle machine is the root, and its way out leads to its start substate.
    have hdepth : machine.stack.depth ≤ 1 :=
      (status_eq_idle_iff (fault_eq_none_of_active (Or.inl hidle))).1 hidle
    rw [← ScopeStack.length_states] at hdepth
    have hroot : state.name = rootName := (haligned.tree.length_le_one_iff hpath).1 hdepth
    obtain ⟨start, hentered⟩ := Option.isSome_iff_exists.1 hstart
    simp only [Chart.start?, Chart.root?, ← hroot, hget, Option.bind_eq_bind, Option.bind_some,
      Option.bind_eq_some_iff] at hentered
    obtain ⟨name, hname, -⟩ := hentered
    obtain ⟨only, honly, -⟩ := (haligned.tree.sound _ _ hget).delegating name hname
    exact ⟨only, by simp [honly]⟩
  · exact exists_way_of_running hrunning hcurrent

/-- Without loops, a machine that can take a step has made fewer moves than it may make. -/
theorem Traced.history_lt (h : machine.Traced) (hfree : machine.chart.LoopFree)
    (hstart : (machine.chart.start?).isSome) (hconsistent : machine.chart.Consistent)
    (hactive : machine.isActive = true) :
    machine.history.size + 1 < machine.chart.size := by
  have hfault := fault_eq_none_of_active (isActive_iff.1 hactive)
  obtain ⟨state, hcurrent, htrace, -⟩ := h.exists_current hfault
  obtain ⟨hget, -⟩ := h.aligned.lineage_current hcurrent
  obtain ⟨way, hway⟩ := h.aligned.exists_way hstart hactive hcurrent
  obtain ⟨root, hroot⟩ := h.aligned.tree.root
  -- The move over the way out could be added to the history.
  have hinner : way.target ≠ rootName := by
    intro htarget
    have hback : machine.chart.Edge state.name rootName := ⟨state, hget, way, hway, htarget⟩
    exact hfree rootName (TransGen.tail' (htrace.reaches rootName List.mem_cons_self) hback)
  have hlonger := Trace.move htrace hget hway hinner
  have hlt := hlonger.length_lt_size hfree (by simp [hroot]) hconsistent
  rw [List.length_append, List.length_singleton] at hlt
  exact hlt

/-! ### Why a step fails

Limits are for whole runs, so no step fails because of one. -/

/-- What bars the way to a target is no limit. -/
theorem not_forLimit_route {source : String} {way : Transition}
    (h : route chart source way = .error fault) : ¬ fault.ForLimit := by
  rintro ⟨limit, hlimit⟩
  unfold route at h
  split at h
  · cases h
    cases hlimit
  · split at h
    · cases h
      cases hlimit
    · split at h
      · cases h
      · cases h
        cases hlimit

/-- What fails before a scope is closed is no limit. -/
theorem Halt.not_forLimit (h : machine.Halt fault) : ¬ fault.ForLimit := by
  cases h with
  | invalid _ hreport =>
    rintro ⟨limit, hlimit⟩
    have hbare : fault.kind ≠ .fatal := by
      rcases Chart.kind_of_validate hreport with hkind | hkind <;> simp [hkind]
    -- A report of the check is no wrapper, and limits are faults of a run.
    rw [Fault.rootCause_eq_self hbare] at hlimit
    exact Chart.kind_ne_runtime_of_validate hreport (by rw [hlimit]; rfl)
  | obstacle _ _ hobstacle =>
    cases hobstacle with
    | guard => rintro ⟨limit, ⟨⟩⟩
    | closed => rintro ⟨limit, ⟨⟩⟩
    | several => rintro ⟨limit, ⟨⟩⟩
    | astray _ _ hroute => exact not_forLimit_route hroute

/-- No step fails for a limit, whether a guard, the choice, the way or the action is to blame. -/
theorem Aligned.not_forLimit_advance (haligned : machine.Aligned)
    (hactive : machine.isActive = true) (hfailed : machine.advance.result = .error fault) :
    ¬ fault.ForLimit := by
  have htakes := haligned.takes_advance
  generalize machine.advance = step at htakes hfailed
  cases htakes with
  | refused hstatus => exact absurd hactive (not_isActive hstatus)
  | stopped _ hhalt =>
    cases hfailed
    exact hhalt.not_forLimit
  | barred =>
    cases hfailed
    rintro ⟨limit, ⟨⟩⟩
  | entered =>
    obtain ⟨action, failure, -, -, rfl, -⟩ := act_eq_error_cases hfailed
    rintro ⟨limit, ⟨⟩⟩

/-- The kept fault of a stopped machine blames what its cause blames. -/
theorem StoppedFor.not_forLimit {cause stored : Fault} (h : machine.StoppedFor cause)
    (hcause : ¬ cause.ForLimit) (hstored : machine.fault = some stored) : ¬ stored.ForLimit := by
  rintro ⟨limit, hlimit⟩
  rw [h.rootCause_eq hstored] at hlimit
  exact hcause ⟨limit, by rw [Fault.rootCause_eq_self h.bare, hlimit]⟩

/-! ### Runs come to their end -/

section Run

variable (htree : chart.Tree) (hstart : chart.start?.isSome) (hvalid : chart.validate = .ok ())
  (hfree : chart.LoopFree)
include htree hstart hvalid hfree

/-- A machine that can take a step has made fewer moves than it may make. -/
theorem Reached.history_lt (h : Reached chart config machine)
    (hactive : machine.isActive = true) : machine.history.size + 1 < chart.size := by
  have htraced := h.traced htree
  obtain ⟨rfl, -⟩ := h.aligned htree
  exact htraced.history_lt hfree hstart
    (Chart.consistent_of_validate htree.named hvalid) hactive

/-- A run that is not over has taken fewer steps than it may take. -/
theorem Reached.steps_lt (h : Reached chart config machine) (hsteps : machine.Steps n calls after)
    (hactive : after.isActive = true) : n + 1 < chart.size := by
  have hlt := (hsteps.reached h).history_lt htree hstart hvalid hfree hactive
  obtain ⟨moves, hlength, hmoves⟩ := hsteps.history_eq
  have hsize : after.history.size = machine.history.size + n := by
    rw [History.size, hmoves, List.length_append, hlength]
    rfl
  omega

section Room

variable (hroom : ∀ limit, config.maxSteps = some limit → chart.size - 1 ≤ limit)
include hroom

/-- A run of a machine that is not stopped completes it or fails with a step, if its limit
leaves room for all moves that can be made. Without a limit it may not have been waited for. -/
theorem Reached.runToEnd?_cases (h : Reached chart config machine) (hfault : machine.fault = none)
    (patience : Nat) :
    (∃ n calls after, machine.Completes n calls after
        ∧ machine.runToEnd? patience = some ⟨after, calls, after.result⟩)
      ∨ (∃ n calls before fault, machine.Fails n calls before fault
        ∧ machine.runToEnd? patience
          = some ⟨before.advance.machine, calls ++ before.advance.calls, .error fault⟩)
      ∨ machine.runToEnd? patience = none ∧ config.maxSteps = none
        ∧ patience + 1 < chart.size := by
  have hconfig : machine.config = config := h.hasSetup.2
  rcases steps_or_end hfault (machine.config.maxSteps.getD patience) with
    ⟨n, calls, after, hle, hend⟩ | ⟨n, calls, before, fault, hlt, hend⟩
      | ⟨calls, after, hsteps, hactive⟩
  · exact Or.inl ⟨n, calls, after, hend, hend.runToEnd?_eq hle⟩
  · exact Or.inr (Or.inl ⟨n, calls, before, fault, hend, hend.runToEnd?_eq hlt⟩)
  · -- A machine that can go on is short of the limit, so there is no limit.
    have hshort := h.steps_lt htree hstart hvalid hfree hsteps hactive
    cases hsetting : config.maxSteps with
    | some limit =>
      have hle := hroom limit hsetting
      rw [hconfig, hsetting, Option.getD_some] at hshort
      omega
    | none =>
      have hgoes : after.ending? (machine.config.maxSteps.getD patience) = none := by
        refine ending?_eq_none hactive fun limit hlimit => ?_
        rw [hsteps.config_eq, hconfig, hsetting] at hlimit
        cases hlimit
      have hrun := hsteps.runToEnd?_eq patience (Nat.le_refl _)
      rw [Nat.sub_self, continue?, hgoes] at hrun
      rw [hconfig, hsetting, Option.getD_none] at hshort
      exact Or.inr (Or.inr ⟨hrun, rfl, hshort⟩)

/-- With room for all moves, a run that comes to its end finds the machine stopped already, or
it completes the machine, or a step stops it, for another cause than the limit. -/
theorem Reached.end_of_run (h : Reached chart config machine) {patience : Nat} {taken : RunTaken}
    (hrun : machine.runToEnd? patience = some taken) :
    (machine.status = .fatal ∧ taken = ⟨machine, [], machine.result⟩)
      ∨ (taken.machine.status = .completed ∧ taken.result = taken.machine.result)
      ∨ ∃ fault, taken.machine.StoppedFor fault ∧ taken.result = .error fault
        ∧ ¬ fault.ForLimit := by
  cases hfault : machine.fault with
  | some stored =>
    have hstatus : machine.status = .fatal := status_eq_fatal_iff.2 (by simp [hfault])
    rw [runToEnd?_of_fatal hstatus] at hrun
    exact Or.inl ⟨hstatus, (Option.some.inj hrun).symm⟩
  | none =>
    rcases h.runToEnd?_cases htree hstart hvalid hfree hroom hfault patience with
      ⟨n, calls, after, hend, heq⟩ | ⟨n, calls, before, fault, hend, heq⟩ | ⟨hnone, -, -⟩
    · rw [hrun] at heq
      cases heq
      exact Or.inr (Or.inl ⟨hend.completed, rfl⟩)
    · rw [hrun] at heq
      cases heq
      have hbefore := hend.steps.reached h
      have haligned := (hbefore.aligned htree).2
      exact Or.inr (Or.inr ⟨fault,
        (haligned.stops_advance (hbefore.checked htree) hend.active hend.failed).2, rfl,
        haligned.not_forLimit_advance hend.active hend.failed⟩)
    · rw [hrun] at hnone
      cases hnone

/-- With room for all moves, no machine was stopped because of a limit. -/
theorem Reached.not_forLimit (h : Reached chart config machine) :
    ∀ stored, machine.fault = some stored → ¬ stored.ForLimit := by
  -- A fault is kept from a failing step or from a run, and a reset clears it.
  induction h with
  | new =>
    intro stored hstored
    cases hstored
  | @advance machine h ih =>
    cases hactive : machine.isActive with
    | false =>
      rw [advance_machine_of_passive hactive]
      exact ih
    | true =>
      have hfault := fault_eq_none_of_active (isActive_iff.1 hactive)
      have haligned := (h.aligned htree).2
      intro stored hstored
      cases hresult : machine.advance.result with
      | ok move =>
        rw [(discloses_advance hfault).fault_eq_none hresult] at hstored
        cases hstored
      | error fault =>
        have hstops := haligned.stops_advance (h.checked htree) hactive hresult
        exact hstops.2.not_forLimit (haligned.not_forLimit_advance hactive hresult) hstored
  | @run machine patience taken h hrun ih =>
    rcases h.end_of_run htree hstart hvalid hfree hroom hrun with
      ⟨-, rfl⟩ | ⟨hcompleted, -⟩ | ⟨fault, hstopped, -, hother⟩
    · exact ih
    · intro stored hstored
      rw [fault_eq_none (by simp [hcompleted])] at hstored
      cases hstored
    · exact fun stored hstored => hstopped.not_forLimit hother hstored
  | reset =>
    intro stored hstored
    cases hstored

/-- A run that is waited for as many steps as can be made comes to its end. -/
theorem Reached.exists_run (h : Reached chart config machine) {patience : Nat}
    (hpatience : chart.size - 1 ≤ config.maxSteps.getD patience) :
    ∃ taken, machine.runToEnd? patience = some taken := by
  cases hfault : machine.fault with
  | some fault =>
    have hstatus : machine.status = .fatal := status_eq_fatal_iff.2 (by simp [hfault])
    exact ⟨_, runToEnd?_of_fatal hstatus patience⟩
  | none =>
    rcases h.runToEnd?_cases htree hstart hvalid hfree hroom hfault patience with
      ⟨_, _, _, -, hrun⟩ | ⟨_, _, _, _, -, hrun⟩ | ⟨-, hunlimited, hshort⟩
    · exact ⟨_, hrun⟩
    · exact ⟨_, hrun⟩
    · rw [hunlimited, Option.getD_none] at hpatience
      omega

end Room

end Run

/-- Asked for its result, a machine blames a limit only if it was stopped because of one. -/
theorem Aligned.not_forLimit_result (haligned : machine.Aligned)
    (hkept : ∀ stored, machine.fault = some stored → ¬ stored.ForLimit)
    (hfailed : machine.result = .error fault) : ¬ fault.ForLimit := by
  cases hstatus : machine.status with
  | idle =>
    simp only [result, hstatus] at hfailed
    cases hfailed
    rintro ⟨limit, ⟨⟩⟩
  | running =>
    simp only [result, hstatus] at hfailed
    cases hfailed
    rintro ⟨limit, ⟨⟩⟩
  | completed =>
    rw [haligned.result_of_completed hstatus hfailed]
    rintro ⟨limit, ⟨⟩⟩
  | fatal =>
    obtain ⟨stored, hstored⟩ := Option.isSome_iff_exists.1 (status_eq_fatal_iff.1 hstatus)
    rw [result_of_fatal hstatus, storedFault, hstored] at hfailed
    cases hfailed
    exact hkept stored hstored

/-- Take a built chart with a start state that the check accepts and whose transitions, those of
the root included, form no loop. Take any machine that steps, runs and resets lead to on it, with
any guards and actions. It has made fewer moves since its last reset than the chart has states.
A run that is waited for or allowed as many steps as that comes to its end: the machine is
completed then or stopped, and the limit of steps is never what is reported. -/
theorem loop_free_law (hbuilt : chart.Built) (hstart : chart.start?.isSome)
    (hvalid : chart.validate = .ok ()) (hfree : chart.LoopFree)
    (hreached : Reached chart config machine) :
    machine.history.size ≤ chart.size - 1
      ∧ ∀ patience, chart.size - 1 ≤ config.maxSteps.getD patience →
        ∃ taken, machine.runToEnd? patience = some taken
          ∧ (taken.machine.status = .completed ∨ taken.machine.status = .fatal)
          ∧ (∀ fault, taken.result = .error fault → ¬ fault.ForLimit)
          ∧ ∀ stored, taken.machine.fault = some stored → ¬ stored.ForLimit := by
  have htree := hbuilt.tree
  refine ⟨?_, fun patience hpatience => ?_⟩
  · obtain ⟨last, htrace, -⟩ := (hreached.traced htree).trace
    rw [(hreached.aligned htree).1] at htrace
    obtain ⟨root, hroot⟩ := htree.root
    have hlt := htrace.length_lt_size hfree (by simp [hroot])
      (Chart.consistent_of_validate htree.named hvalid)
    show machine.history.moves.length ≤ chart.size - 1
    omega
  -- With a limit, patience does not matter, so the limit itself leaves room for all moves.
  have hroom : ∀ limit, config.maxSteps = some limit → chart.size - 1 ≤ limit := by
    intro limit hsetting
    rw [hsetting, Option.getD_some] at hpatience
    exact hpatience
  obtain ⟨taken, hrun⟩ := hreached.exists_run htree hstart hvalid hfree hroom hpatience
  have hafter : Reached chart config taken.machine := hreached.run hrun
  have hkept := hafter.not_forLimit htree hstart hvalid hfree hroom
  have hends := hreached.end_of_run htree hstart hvalid hfree hroom hrun
  refine ⟨taken, hrun, ?_, ?_, hkept⟩
  · rcases hends with ⟨hstatus, rfl⟩ | ⟨hcompleted, -⟩ | ⟨fault, hstopped, -⟩
    · exact Or.inr hstatus
    · exact Or.inl hcompleted
    · exact Or.inr (status_eq_fatal_iff.2 (by simp [hstopped.kept]))
  · intro fault hfailed
    rcases hends with ⟨-, rfl⟩ | ⟨-, hresult⟩ | ⟨cause, -, hresult, hother⟩
    · exact (hafter.aligned htree).2.not_forLimit_result hkept hfailed
    · rw [hresult] at hfailed
      exact (hafter.aligned htree).2.not_forLimit_result hkept hfailed
    · rw [hresult] at hfailed
      cases hfailed
      exact hother

/-- A state with two ways down to the same final one. -/
def cascade : Chart :=
  [Chart.Addition.start (State.new "spring" [.always "flow" "brook" none,
      ⟨"seep", "cave", .ofCondition "rain" (.const false), none⟩]) none,
    .plain (State.new "brook" [.always "fall" "lake" none]) none,
    .plain (State.new "cave" [.always "drip" "lake" none]) none,
    .plain (State.new "lake" []) none].foldl Chart.perform Chart.new

/-- Transitions lead up in the order of these numbers. -/
def cascadeRank (name : String) : Nat :=
  (["global", "spring", "brook", "cave", "lake"].findIdx? (· = name)).getD 0

/-- With as many steps as there are states below the root, the run completes; it makes three
moves of the four. -/
theorem cascade_completes :
    cascade.size = 5
      ∧ ∃ taken, (Machine.new cascade { maxSteps := some 4 }).runToEnd? 0 = some taken
        ∧ taken.machine.status = .completed ∧ taken.machine.history.size = 3
        ∧ taken.machine.history.size ≤ cascade.size - 1 := by
  have hfree : cascade.LoopFree := Chart.loopFree_of_rank cascadeRank (by decide)
  have hbuilt : cascade.Built := Or.inl ⟨_, rfl⟩
  obtain ⟨-, hruns⟩ := loop_free_law hbuilt rfl rfl hfree
    (Reached.new : Reached cascade { maxSteps := some 4 } _)
  obtain ⟨taken, hrun, -⟩ := hruns 0 (by decide)
  obtain ⟨hmoves, -⟩ := loop_free_law hbuilt rfl rfl hfree (Reached.new.run hrun)
  have hsame : (Machine.new cascade { maxSteps := some 4 }).runToEnd? 0 = some _ := rfl
  refine ⟨rfl, taken, hrun, ?_, ?_, hmoves⟩
  · rw [hrun] at hsame
    cases hsame
    decide
  · rw [hrun] at hsame
    cases hsame
    rfl

end Machine

end Statechart
