import Statechart.Proofs.Machine.Reach

/-!
# `Statechart.Proofs.Machine.Renewal`: a reset gives back a new machine

A machine that is reset has the chart and the settings that it was made with, because no call
changes them (`HasSetup.serve`). Everything else is as in a new machine, except for the number
of the run.

The number is written but never read. So every phase of a step, and every call, does the same on
a machine with another number, and the machine that it leaves has the other number again:
`renumbered` commutes with all of them. That makes the runs after a reset those of a new machine
(`renewal_law`), whatever came before.

Nothing here depends on the chart or on how the machine came about.
-/

set_option autoImplicit false

namespace Statechart

/-- The machine with its run number raised. -/
def Machine.renumbered (runs : Nat) (machine : Machine) : Machine :=
  { machine with runNumber := machine.runNumber + runs }

/-- What came of a step, with the run number of the machine raised. -/
def StepTaken.renumbered (runs : Nat) (step : StepTaken) : StepTaken :=
  { step with machine := step.machine.renumbered runs }

/-- What came of a run, with the run number of the machine raised. -/
def RunTaken.renumbered (runs : Nat) (run : RunTaken) : RunTaken :=
  { run with machine := run.machine.renumbered runs }

namespace Machine

/-- What came of a call, with the run number of the machine raised. -/
def Served.renumbered (runs : Nat) (served : Served) : Served :=
  { served with machine := served.machine.renumbered runs }

variable {chart : Chart} {config : Config} {machine : Machine}

/-! ### The run number is not read -/

/-- Another run number leaves the chart alone. -/
@[simp] theorem renumbered_chart (machine : Machine) (runs : Nat) :
    (machine.renumbered runs).chart = machine.chart := rfl

/-- Another run number leaves the settings alone. -/
@[simp] theorem renumbered_config (machine : Machine) (runs : Nat) :
    (machine.renumbered runs).config = machine.config := rfl

/-- Another run number leaves the scopes alone. -/
@[simp] theorem renumbered_stack (machine : Machine) (runs : Nat) :
    (machine.renumbered runs).stack = machine.stack := rfl

/-- The status does not depend on the run number. -/
@[simp] theorem status_renumbered (machine : Machine) (runs : Nat) :
    (machine.renumbered runs).status = machine.status := rfl

/-- Whether steps can be taken does not depend on the run number. -/
@[simp] theorem isActive_renumbered (machine : Machine) (runs : Nat) :
    (machine.renumbered runs).isActive = machine.isActive := rfl

/-- The active state does not depend on the run number. -/
@[simp] theorem current?_renumbered (machine : Machine) (runs : Nat) :
    (machine.renumbered runs).current? = machine.current? := rfl

/-- The result does not depend on the run number. -/
@[simp] theorem result_renumbered (machine : Machine) (runs : Nat) :
    (machine.renumbered runs).result = machine.result := rfl

/-- A stop keeps the run number, and the fault that it keeps does not show it. -/
@[simp] theorem stop_renumbered (machine : Machine) (runs : Nat) (cause : Fault) :
    (machine.renumbered runs).stop cause = (machine.stop cause).renumbered runs := by
  obtain ⟨chart, config, stack, history, fault, number⟩ := machine
  cases fault with
  | none => rfl
  | some stored => rfl

/-- A failing step is the same at every run number. -/
@[simp] theorem fail_renumbered (machine : Machine) (runs : Nat) (calls : List Call)
    (fault : Fault) :
    (machine.renumbered runs).fail calls fault = (machine.fail calls fault).renumbered runs := by
  simp [fail, StepTaken.renumbered]

/-- Guards answer the same at every run number, since they see the scopes only. -/
@[simp] theorem askGuards_renumbered (machine : Machine) (runs : Nat)
    (transitions : List Transition) :
    (machine.renumbered runs).askGuards transitions = machine.askGuards transitions := by
  induction transitions with
  | nil => rfl
  | cons way rest ih =>
    unfold askGuards
    rw [ih]
    rfl

/-- An action does the same at every run number, since it sees the scopes only. -/
@[simp] theorem act_renumbered (machine : Machine) (runs : Nat) (calls : List Call)
    (way : Transition) (move : Move) :
    (machine.renumbered runs).act calls way move
      = (machine.act calls way move).renumbered runs := by
  unfold act
  cases way.action with
  | none => rfl
  | some action =>
    simp only [renumbered_stack]
    cases (action.run machine.stack).2.result with
    | ok => rfl
    | error failure =>
      -- The action has changed the stack before the machine is stopped.
      exact fail_renumbered { machine with stack := (action.run machine.stack).1 } runs _ _

/-- A state is entered alike at every run number. -/
@[simp] theorem enter_renumbered (machine : Machine) (runs : Nat) (calls : List Call)
    (source : String) (way : Transition) (next : State) (kept : Nat) :
    (machine.renumbered runs).enter calls source way next kept
      = (machine.enter calls source way next kept).renumbered runs := by
  unfold enter
  simp only [renumbered_stack]
  cases (machine.stack.truncate kept).push? next.name with
  | none =>
    exact fail_renumbered { machine with stack := machine.stack.truncate kept } runs _ _
  | some stack =>
    exact act_renumbered
      { machine with
          stack := stack
          history := machine.history.record ⟨source, next.name, way.name⟩ } runs _ _ _

/-- A state is left alike at every run number. -/
@[simp] theorem leave_renumbered (machine : Machine) (runs : Nat) (source : String)
    (transitions : List Transition) :
    (machine.renumbered runs).leave source transitions
      = (machine.leave source transitions).renumbered runs := by
  unfold leave
  simp only [askGuards_renumbered, renumbered_chart]
  -- The guards, the choice and the way to the target fail alike, whichever comes first.
  cases (machine.askGuards transitions).2 with
  | error failure => exact fail_renumbered _ _ _ _
  | ok opened =>
    simp only
    cases choose source opened with
    | error fault => exact fail_renumbered _ _ _ _
    | ok way =>
      simp only
      cases route machine.chart source way with
      | error fault => exact fail_renumbered _ _ _ _
      | ok next => exact enter_renumbered _ _ _ _ _ _ _

/-- The active state is left alike at every run number. -/
@[simp] theorem leaveCurrent_renumbered (machine : Machine) (runs : Nat) :
    (machine.renumbered runs).leaveCurrent = machine.leaveCurrent.renumbered runs := by
  unfold leaveCurrent
  simp only [current?_renumbered, renumbered_chart]
  cases machine.current? with
  | none => exact fail_renumbered _ _ _ _
  | some head =>
    simp only
    cases machine.chart.get? head.name with
    | none => exact fail_renumbered _ _ _ _
    | some state => exact leave_renumbered _ _ _ _

/-- A step is the same at every run number, and it keeps the number. -/
@[simp] theorem advance_renumbered (machine : Machine) (runs : Nat) :
    (machine.renumbered runs).advance = machine.advance.renumbered runs := by
  unfold advance
  simp only [status_renumbered, renumbered_chart, leaveCurrent_renumbered]
  cases machine.status with
  | idle =>
    simp only
    cases machine.chart.validate with
    | error fault => exact fail_renumbered _ _ _ _
    | ok => rfl
  | running => rfl
  | completed => rfl
  | fatal => rfl

/-- When a run ends does not depend on its number. -/
@[simp] theorem ending?_renumbered (machine : Machine) (runs steps : Nat) :
    (machine.renumbered runs).ending? steps
      = (machine.ending? steps).map (RunTaken.renumbered runs) := by
  unfold ending?
  simp only [isActive_renumbered, renumbered_config, result_renumbered, stop_renumbered]
  split
  · cases machine.config.maxSteps with
    | none => rfl
    | some limit =>
      simp only
      split <;> rfl
  · rfl

/-- A run goes on alike at every run number. The induction is on the steps that are waited for. -/
@[simp] theorem continue?_renumbered (patience steps : Nat) (machine : Machine) (runs : Nat) :
    continue? patience steps (machine.renumbered runs)
      = (continue? patience steps machine).map (RunTaken.renumbered runs) := by
  induction patience generalizing steps machine with
  | zero => exact ending?_renumbered machine runs steps
  | succ patience ih =>
    unfold continue?
    rw [ending?_renumbered, advance_renumbered]
    cases machine.ending? steps with
    | some run => rfl
    -- The run does not end here, so its next step is compared, and then the rest.
    | none =>
      simp only [Option.map_none, StepTaken.renumbered]
      cases machine.advance.result with
      | error fault => rfl
      | ok move =>
        simp only
        rw [ih, Option.map_map, Option.map_map]
        rfl

/-- A run is the same at every run number. -/
@[simp] theorem runToEnd?_renumbered (machine : Machine) (runs patience : Nat) :
    (machine.renumbered runs).runToEnd? patience
      = (machine.runToEnd? patience).map (RunTaken.renumbered runs) :=
  continue?_renumbered _ _ _ _

/-- A call answers the same at every run number. A reset counts the number up from where it is, so
the difference stays. -/
theorem serve_renumbered (machine : Machine) (runs : Nat) (operation : Operation) :
    (machine.renumbered runs).serve operation
      = (machine.serve operation).map (Served.renumbered runs) := by
  cases operation with
  | advance =>
    simp only [serve, advance_renumbered]
    rfl
  | run patience =>
    simp only [serve, runToEnd?_renumbered, Option.map_map]
    rfl
  | result => rfl
  | reset =>
    -- A reset counts up from the raised number.
    unfold serve reset renumbered Served.renumbered
    simp [renumbered, Nat.add_right_comm]

/-- Calls to a machine with another run number answer the same, and leave machines that differ
in the run number alone. -/
theorem serveAll_renumbered (machine : Machine) (runs : Nat) (operations : List Operation) :
    (machine.renumbered runs).serveAll operations
      = (machine.serveAll operations).map (List.map (Served.renumbered runs)) := by
  induction operations generalizing machine with
  | nil => rfl
  | cons operation rest ih =>
    unfold serveAll
    rw [serve_renumbered]
    cases machine.serve operation with
    | none => rfl
    | some served =>
      -- The first call leaves a machine with the same difference in its run number.
      have hrest : (Served.renumbered runs served).machine.serveAll rest
          = (served.machine.serveAll rest).map (List.map (Served.renumbered runs)) :=
        ih served.machine
      simp only [Option.map_some, Option.bind_eq_bind, Option.bind_some, hrest]
      cases served.machine.serveAll rest with
      | none => rfl
      | some others => rfl

/-! ### Chart and settings stay -/

section Rule

variable {P : Machine → Prop}
  (hstop : ∀ (machine : Machine) (cause : Fault), P machine → P (machine.stop cause))
  (hscopes : ∀ (machine : Machine) (stack : ScopeStack) (history : History), P machine →
    P { machine with stack := stack, history := history })
include hstop hscopes

/-- What stops keep and what does not depend on scopes and history, actions keep. -/
theorem act_rule (h : P machine) (calls : List Call) (way : Transition) (move : Move) :
    P (machine.act calls way move).machine := by
  rw [act_machine]
  split
  · exact h
  · next action _ =>
    -- The action leaves its stack behind before a failure stops the machine.
    have hafter := hscopes machine (action.run machine.stack).1 machine.history h
    split
    · exact hafter
    · exact hstop _ _ hafter

/-- What stops keep and what does not depend on scopes and history, is kept when a state is
entered. -/
theorem enter_rule (h : P machine) (calls : List Call) (source : String) (way : Transition)
    (next : State) (kept : Nat) : P (machine.enter calls source way next kept).machine := by
  unfold enter
  simp only
  split
  · exact hstop _ _ (hscopes machine (machine.stack.truncate kept) machine.history h)
  · exact act_rule hstop hscopes (hscopes machine _ _ h) _ _ _

/-- What stops keep and what does not depend on scopes and history, is kept when the active state
is left. -/
theorem leaveCurrent_rule (h : P machine) : P machine.leaveCurrent.machine := by
  unfold leaveCurrent
  split
  · exact hstop _ _ h
  · next head _ =>
    split
    · exact hstop _ _ h
    · next state _ =>
      rcases leave_cases machine head.name state.transitions with
        ⟨fault, -, hfail⟩ | ⟨way, target, kept, -, -, -, henter⟩
      · rw [hfail]
        exact hstop _ _ h
      · rw [henter]
        exact enter_rule hstop hscopes h _ _ _ _ _

/-- What stops keep and what does not depend on scopes and history, steps keep. -/
theorem advance_rule (h : P machine) : P machine.advance.machine := by
  unfold advance
  split
  · split
    · exact hstop _ _ h
    · exact leaveCurrent_rule hstop hscopes h
  · exact leaveCurrent_rule hstop hscopes h
  · exact h
  · exact h

end Rule

/-- A stop keeps the settings. -/
@[simp] theorem stop_config (machine : Machine) (cause : Fault) :
    (machine.stop cause).config = machine.config := by
  unfold stop
  split <;> rfl

/-- The machine has this chart and these settings. -/
def HasSetup (chart : Chart) (config : Config) (machine : Machine) : Prop :=
  machine.chart = chart ∧ machine.config = config

namespace HasSetup

/-- A stop keeps chart and settings. -/
theorem stop (h : HasSetup chart config machine) (cause : Fault) :
    HasSetup chart config (machine.stop cause) :=
  ⟨(stop_chart machine cause).trans h.1, (stop_config machine cause).trans h.2⟩

/-- A step keeps chart and settings. -/
theorem advance (h : HasSetup chart config machine) :
    HasSetup chart config machine.advance.machine :=
  advance_rule (P := HasSetup chart config) (fun _ cause h => h.stop cause) (fun _ _ _ h => h) h

/-- A call keeps the chart and the settings. -/
theorem serve {operation : Operation} {served : Served} (h : HasSetup chart config machine)
    (hserve : machine.serve operation = some served) : HasSetup chart config served.machine := by
  cases operation with
  | advance =>
    cases hserve
    exact h.advance
  | run patience =>
    obtain ⟨taken, htaken, rfl⟩ := Option.map_eq_some_iff.1 hserve
    exact continue?_induction (P := HasSetup chart config) (fun _ h => h.advance)
      (fun _ cause h => h.stop cause) h htaken
  | result =>
    cases hserve
    exact h
  | reset =>
    cases hserve
    exact h

/-- A reset leaves nothing but the chart, the settings and the number of runs. -/
theorem reset_eq (h : HasSetup chart config machine) :
    machine.reset = (Machine.new chart config).renumbered (machine.runNumber + 1) := by
  obtain ⟨rfl, rfl⟩ := h
  simp [reset, renumbered, new]

end HasSetup

/-- A reached machine has the chart and the settings that it was made with. -/
theorem Reached.hasSetup (h : Reached chart config machine) : HasSetup chart config machine :=
  h.invariant ⟨rfl, rfl⟩ (fun _ hsetup => hsetup.advance)
    (fun _ cause hsetup => hsetup.stop cause) (fun _ hsetup => hsetup)

/-- Make any calls to any machine, whatever comes of them, and reset it then. All the time the
machine keeps its chart and its settings. In the end there is one scope, which is the root's and
has no variables, the history is empty, and no fault is kept. The machine is a new one but for
the number of the run, and it answers all later calls as a new one does, with the same callbacks
on the same scopes. -/
theorem renewal_law {operations : List Operation} {served : List Served}
    (hserved : machine.serveAll operations = some served) :
    (∀ answer ∈ served, answer.machine.chart = machine.chart
        ∧ answer.machine.config = machine.config)
      ∧ ∃ renewed number, machine.serveAll (operations ++ [.reset]) = some (served ++ [renewed])
        ∧ renewed.result = .ok .ready
        ∧ renewed.machine = (Machine.new machine.chart machine.config).renumbered number
        ∧ renewed.machine.stack.frames = [⟨rootName, Dict.empty⟩]
        ∧ renewed.machine.history.moves = []
        ∧ renewed.machine.fault = none
        ∧ ∀ later, renewed.machine.serveAll later
          = ((Machine.new machine.chart machine.config).serveAll later).map
              (List.map (Served.renumbered number)) := by
  have hsetup : HasSetup machine.chart machine.config machine := ⟨rfl, rfl⟩
  have hanswers : ∀ answer ∈ served, HasSetup machine.chart machine.config answer.machine :=
    serveAll_invariant (P := HasSetup machine.chart machine.config)
      (fun _ _ _ h hserve => h.serve hserve) hsetup hserved
  refine ⟨hanswers, ?_⟩
  -- The machine before the reset is the one given at first, or it was left by one of the calls.
  obtain ⟨before, hbefore, hlast⟩ := serveAll_concat hserved
  have hbefore : HasSetup machine.chart machine.config before := by
    rcases List.mem_cons.1 hbefore with hfirst | hlater
    · rw [hfirst]
      exact hsetup
    · obtain ⟨answer, hanswer, hmachine⟩ := List.mem_map.1 hlater
      rw [← hmachine]
      exact hanswers answer hanswer
  refine ⟨⟨before.reset, [], .ok .ready⟩, before.runNumber + 1, hlast .reset, rfl,
    hbefore.reset_eq, rfl, rfl, rfl, fun later => ?_⟩
  show before.reset.serveAll later = _
  rw [hbefore.reset_eq]
  exact serveAll_renumbered _ _ _

/-- A start state with an action on the way to a final one. It puts a value into the scope of the
root and gives a result. -/
def ledger : Chart :=
  [Chart.Addition.start (State.new "a" [.always "go" "b" (some (.ofScript
      (.put (.parent "seen") (.bool true) (.put .result (.bool true) .done))))]) none,
    .plain (State.new "b" []) none].foldl Chart.perform Chart.new

/-- The run leaves both values in the scope of the root. After a reset they are gone, and there
is no result until the next run. -/
theorem ledger_renewed :
    ∃ served last, (Machine.new ledger {}).serveAll [.run 5] = some served
      ∧ served.getLast? = some last
      ∧ last.machine.stack.view "seen" = some (.bool true)
      ∧ last.machine.result = .ok (.bool true)
      ∧ ∃ renewed number, (Machine.new ledger {}).serveAll [.run 5, .reset]
          = some (served ++ [renewed])
        ∧ renewed.machine.stack.view "seen" = none
        ∧ renewed.machine.serveAll [.result, .run 5]
          = ((Machine.new ledger {}).serveAll [.result, .run 5]).map
              (List.map (Served.renumbered number)) := by
  obtain ⟨served, hserved⟩ : ∃ served, (Machine.new ledger {}).serveAll [.run 5] = some served :=
    ⟨_, rfl⟩
  obtain ⟨-, renewed, number, hreset, -, -, hframes, -, -, hlater⟩ := renewal_law hserved
  have hseen : renewed.machine.stack.view "seen" = none := by
    unfold ScopeStack.view
    rw [hframes]
    rfl
  cases hserved
  exact ⟨_, _, rfl, rfl, rfl, rfl, renewed, number, hreset, hseen, hlater _⟩

end Machine

end Statechart
