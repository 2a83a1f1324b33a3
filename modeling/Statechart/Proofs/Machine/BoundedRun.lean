import Statechart.Proofs.Machine.Causes
import Statechart.Proofs.Machine.Law
import Statechart.Proofs.Machine.Renewal

/-!
# `Statechart.Proofs.Machine.BoundedRun`: a run is a row of steps

`Steps` is the plain iteration of steps: each is taken by a machine that can take steps, and
succeeds. From a machine that is not stopped it can go three ways (`steps_or_end`). It comes to
a completed machine (`Completes`), it comes to a machine whose next step fails (`Fails`), or it
goes on for any given number of steps.

A run does the same, with one more question before each step: whether the steps that it has
taken have reached the limit. `Steps.continue?_eq` says that a row of steps that stays within
the limit is the beginning of the run, and what is left of the run begins with the machine after
them. So a run that completes with its last allowed step is not stopped, and one that may take
no step at all is stopped at once.

`run_law` is about every machine that is not stopped, with any history: the limit counts the
steps of one run and not those before it.
-/

set_option autoImplicit false

namespace Statechart

/-- The step has failed and stopped the machine, or its move was added to a history. -/
def StepTaken.Settles (step : StepTaken) (history : History) : Prop :=
  (∃ fault, step.result = .error fault ∧ step.machine.fault ≠ none)
    ∨ ∃ move, step.result = .ok move ∧ step.machine.history = history.record move

namespace Machine

variable {machine after : Machine} {n : Nat} {calls : List Call}

/-- So many steps lead from one machine to the other. Each of them is taken by a machine that
can take steps, and succeeds. The callbacks are those of all the steps. -/
inductive Steps : Machine → Nat → List Call → Machine → Prop where
  /-- No step is taken. -/
  | zero {machine : Machine} : Steps machine 0 [] machine
  /-- A step is taken before the others. -/
  | succ {machine after : Machine} {n : Nat} {calls : List Call} {move : Move}
      (hactive : machine.isActive = true) (hmove : machine.advance.result = .ok move)
      (hrest : Steps machine.advance.machine n calls after) :
      Steps machine (n + 1) (machine.advance.calls ++ calls) after

/-- The machine is completed after so many steps. -/
structure Completes (machine : Machine) (n : Nat) (calls : List Call) (after : Machine) :
    Prop where
  /-- The steps lead to this machine. -/
  steps : machine.Steps n calls after
  /-- It is completed. -/
  completed : after.status = .completed

/-- After so many steps the machine takes one that fails. -/
structure Fails (machine : Machine) (n : Nat) (calls : List Call) (before : Machine)
    (fault : Fault) : Prop where
  /-- The steps lead to this machine. -/
  steps : machine.Steps n calls before
  /-- It can take steps. -/
  active : before.isActive = true
  /-- Its next step fails. -/
  failed : before.advance.result = .error fault

/-! ### A step stops the machine or records a move -/

/-- A step that fails leaves the machine stopped, whatever the history was. -/
theorem settles_fail (machine : Machine) (calls : List Call) (fault : Fault) (history : History) :
    (machine.fail calls fault).Settles history :=
  Or.inl ⟨fault, rfl, stop_fault_ne_none machine fault⟩

/-- By the time of the action the move is recorded. -/
theorem settles_act {history : History} {move : Move}
    (hrecorded : machine.history = history.record move) (calls : List Call) (way : Transition) :
    (machine.act calls way move).Settles history := by
  cases hresult : (machine.act calls way move).result with
  | error fault =>
    obtain ⟨_, _, _, _, _, hstopped⟩ := act_eq_error_cases hresult
    exact Or.inl ⟨fault, hresult, hstopped⟩
  | ok answer =>
    refine Or.inr ⟨answer, hresult, ?_⟩
    rw [act_history, hrecorded, ((act_result_eq_ok_iff _ _ _ _ _).1 hresult).1]

/-- Entering a state stops the machine, or the move to it is in the history. -/
theorem settles_enter (machine : Machine) (calls : List Call) (source : String)
    (way : Transition) (next : State) (kept : Nat) :
    (machine.enter calls source way next kept).Settles machine.history := by
  unfold enter
  simp only
  split
  · exact settles_fail _ _ _ _
  · exact settles_act rfl _ _

/-- Leaving the active state stops the machine, or its move is in the history. -/
theorem settles_leaveCurrent (machine : Machine) :
    machine.leaveCurrent.Settles machine.history := by
  unfold leaveCurrent
  split
  · exact settles_fail _ _ _ _
  · next head _ =>
    split
    · exact settles_fail _ _ _ _
    · next state _ =>
      rcases leave_cases machine head.name state.transitions with
        ⟨fault, -, hfail⟩ | ⟨way, target, kept, -, -, -, henter⟩
      · rw [hfail]
        exact settles_fail _ _ _ _
      · rw [henter]
        exact settles_enter _ _ _ _ _ _

/-- A step of a machine that can take steps stops it, or adds its move to the history. -/
theorem settles_advance (hactive : machine.isActive = true) :
    machine.advance.Settles machine.history := by
  unfold Machine.advance
  split
  · split
    · exact settles_fail _ _ _ _
    · exact settles_leaveCurrent machine
  · exact settles_leaveCurrent machine
  · next hstatus => exact absurd hactive (not_isActive (Or.inl hstatus))
  · next hstatus => exact absurd hactive (not_isActive (Or.inr hstatus))

/-- A step that succeeds adds its move to the history. -/
theorem advance_history_of_ok {move : Move} (hactive : machine.isActive = true)
    (hmove : machine.advance.result = .ok move) :
    machine.advance.machine.history = machine.history.record move := by
  rcases settles_advance hactive with ⟨fault, hfailed, -⟩ | ⟨answer, hanswer, hhistory⟩
  · rw [hmove] at hfailed
    cases hfailed
  · rw [hmove] at hanswer
    cases hanswer
    exact hhistory

/-- A step that fails stops a machine that could take it. -/
theorem Fails.status_eq {before : Machine} {fault : Fault}
    (h : machine.Fails n calls before fault) : before.advance.machine.status = .fatal := by
  rw [status_eq_fatal_iff, Option.isSome_iff_ne_none]
  rcases settles_advance h.active with ⟨_, -, hstopped⟩ | ⟨move, hmove, -⟩
  · exact hstopped
  · rw [h.failed] at hmove
    cases hmove

/-! ### Rows of steps -/

namespace Steps

/-- A step can be taken behind the others. -/
theorem concat (h : machine.Steps n calls after) {move : Move} (hactive : after.isActive = true)
    (hmove : after.advance.result = .ok move) :
    machine.Steps (n + 1) (calls ++ after.advance.calls) after.advance.machine := by
  induction h with
  | zero =>
    have hlast := Steps.succ hactive hmove .zero
    rw [List.append_nil] at hlast
    exact hlast
  | succ hfirst hmove' _ ih =>
    rw [List.append_assoc]
    exact .succ hfirst hmove' (ih hactive hmove)

/-- Steps lead from reached machines to reached machines. -/
theorem reached {chart : Chart} {config : Config} (h : machine.Steps n calls after)
    (hreached : Reached chart config machine) : Reached chart config after := by
  induction h with
  | zero => exact hreached
  | succ _ _ _ ih => exact ih hreached.advance

/-- Steps keep the settings. -/
theorem config_eq (h : machine.Steps n calls after) : after.config = machine.config := by
  induction h with
  | zero => rfl
  | @succ machine _ _ _ _ _ _ _ ih =>
    have hsetup : HasSetup machine.chart machine.config machine := ⟨rfl, rfl⟩
    exact ih.trans hsetup.advance.2

/-- Steps that succeed do not stop a machine. -/
theorem fault_eq_none (h : machine.Steps n calls after) (hfault : machine.fault = none) :
    after.fault = none := by
  induction h with
  | zero => exact hfault
  | succ _ hmove _ ih => exact ih ((discloses_advance hfault).fault_eq_none hmove)

/-- The history gets one move from each step. -/
theorem history_eq (h : machine.Steps n calls after) :
    ∃ moves, moves.length = n ∧ after.history.moves = machine.history.moves ++ moves := by
  induction h with
  | zero => exact ⟨[], rfl, (List.append_nil _).symm⟩
  | @succ machine after n calls move hactive hmove _ ih =>
    obtain ⟨moves, hlength, hmoves⟩ := ih
    refine ⟨move :: moves, by simp [hlength], ?_⟩
    rw [hmoves, advance_history_of_ok hactive hmove]
    simp [History.record]

end Steps

/-- From a machine that is not stopped, steps come to an end within a given number, or as many
steps as that are taken and the machine can still take more. -/
theorem steps_or_end (hfault : machine.fault = none) (limit : Nat) :
    (∃ n calls after, n ≤ limit ∧ machine.Completes n calls after)
      ∨ (∃ n calls before fault, n < limit ∧ machine.Fails n calls before fault)
      ∨ ∃ calls after, machine.Steps limit calls after ∧ after.isActive = true := by
  -- A machine that is not stopped is completed or can take steps.
  have hsettled : ∀ {n : Nat} {calls : List Call} {after : Machine},
      machine.Steps n calls after → after.isActive = false → machine.Completes n calls after :=
    fun hsteps hpassive => ⟨hsteps, status_eq_completed (hsteps.fault_eq_none hfault) hpassive⟩
  induction limit with
  | zero =>
    cases hactive : machine.isActive with
    | false => exact Or.inl ⟨0, [], machine, Nat.le_refl 0, hsettled .zero hactive⟩
    | true => exact Or.inr (Or.inr ⟨[], machine, .zero, hactive⟩)
  | succ limit ih =>
    rcases ih with ⟨n, calls, after, hle, hend⟩ | ⟨n, calls, before, fault, hlt, hend⟩
      | ⟨calls, after, hsteps, hactive⟩
    · exact Or.inl ⟨n, calls, after, by omega, hend⟩
    · exact Or.inr (Or.inl ⟨n, calls, before, fault, by omega, hend⟩)
    · -- All steps so far were taken, and there is room for one more.
      cases hresult : after.advance.result with
      | error fault =>
        exact Or.inr (Or.inl ⟨limit, calls, after, fault, by omega, hsteps, hactive, hresult⟩)
      | ok move =>
        have hlonger := hsteps.concat hactive hresult
        cases hnext : after.advance.machine.isActive with
        | false => exact Or.inl ⟨_, _, _, Nat.le_refl _, hsettled hlonger hnext⟩
        | true => exact Or.inr (Or.inr ⟨_, _, hlonger, hnext⟩)

/-! ### The run beside the steps -/

/-- Before its limit a run of a machine that can take steps does not end. -/
theorem ending?_eq_none {steps : Nat} (hactive : machine.isActive = true)
    (hlimit : ∀ limit, machine.config.maxSteps = some limit → steps < limit) :
    machine.ending? steps = none := by
  unfold ending?
  rw [if_pos hactive]
  split
  · rfl
  · next limit hsetting =>
    have hlt := hlimit limit hsetting
    rw [if_neg (by omega)]

/-- Steps within the limit are the beginning of a run, and the run goes on behind them. -/
theorem Steps.continue?_eq (h : machine.Steps n calls after) (patience steps : Nat)
    (hlimit : ∀ limit, machine.config.maxSteps = some limit → steps + n ≤ limit) :
    continue? (patience + n) steps machine
      = (continue? patience (steps + n) after).map fun run =>
          { run with calls := calls ++ run.calls } := by
  induction h generalizing steps with
  | zero => simp
  | @succ machine after n calls move hactive hmove hrest ih =>
    have hsetup : HasSetup machine.chart machine.config machine := ⟨rfl, rfl⟩
    -- The first step is still before the limit, so the run takes it like the row does.
    have hgoes : machine.ending? steps = none := by
      refine ending?_eq_none hactive fun limit hsetting => ?_
      have hle := hlimit limit hsetting
      omega
    have hlimit' : ∀ limit, machine.advance.machine.config.maxSteps = some limit →
        steps + 1 + n ≤ limit := by
      intro limit hsetting
      rw [hsetup.advance.2] at hsetting
      have hle := hlimit limit hsetting
      omega
    have hcount : steps + 1 + n = steps + (n + 1) := by omega
    rw [← Nat.add_assoc, continue?, hgoes]
    simp only [hmove]
    rw [ih (steps + 1) hlimit', hcount, Option.map_map]
    simp [Function.comp_def, List.append_assoc]

/-- A run waits for the steps that it may take. -/
theorem Steps.runToEnd?_eq (h : machine.Steps n calls after) (patience : Nat)
    (hwithin : n ≤ machine.config.maxSteps.getD patience) :
    machine.runToEnd? patience
      = (continue? (machine.config.maxSteps.getD patience - n) n after).map fun run =>
          { run with calls := calls ++ run.calls } := by
  have hsplit : machine.config.maxSteps.getD patience - n + n
      = machine.config.maxSteps.getD patience := by omega
  have hrun := h.continue?_eq (machine.config.maxSteps.getD patience - n) 0 ?_
  · rw [hsplit, Nat.zero_add] at hrun
    exact hrun
  · intro limit hsetting
    rw [hsetting, Option.getD_some] at hwithin
    omega

/-- Steps that complete the machine within the limit are the whole run. -/
theorem Completes.runToEnd?_eq (h : machine.Completes n calls after) {patience : Nat}
    (hwithin : n ≤ machine.config.maxSteps.getD patience) :
    machine.runToEnd? patience = some ⟨after, calls, after.result⟩ := by
  have hpassive : after.isActive = false := by simp [isActive, h.completed]
  rw [h.steps.runToEnd?_eq patience hwithin, continue?_of_passive _ _ hpassive]
  simp

/-- A run ends with a step that fails before the limit. -/
theorem Fails.runToEnd?_eq {before : Machine} {fault : Fault}
    (h : machine.Fails n calls before fault) {patience : Nat}
    (hwithin : n < machine.config.maxSteps.getD patience) :
    machine.runToEnd? patience
      = some ⟨before.advance.machine, calls ++ before.advance.calls, .error fault⟩ := by
  have hgoes : before.ending? n = none := by
    refine ending?_eq_none h.active fun limit hsetting => ?_
    rw [h.steps.config_eq] at hsetting
    rw [hsetting, Option.getD_some] at hwithin
    exact hwithin
  obtain ⟨rest, hrest⟩ : ∃ rest, machine.config.maxSteps.getD patience - n = rest + 1 :=
    ⟨machine.config.maxSteps.getD patience - n - 1, by omega⟩
  rw [h.steps.runToEnd?_eq patience (by omega), hrest, continue?, hgoes]
  simp [h.failed]

/-- A machine that can still take steps at the limit is stopped there. -/
theorem Steps.runToEnd?_limit {limit : Nat} (h : machine.Steps limit calls after)
    (hactive : after.isActive = true) (hsetting : machine.config.maxSteps = some limit)
    (patience : Nat) :
    machine.runToEnd? patience
      = some ⟨after.stop (.runtime (.stepLimit limit)), calls,
          .error (.runtime (.stepLimit limit))⟩ := by
  have hconfig : after.config.maxSteps = some limit := by rw [h.config_eq, hsetting]
  have hwithin : limit ≤ machine.config.maxSteps.getD patience := by simp [hsetting]
  rw [h.runToEnd?_eq patience hwithin]
  simp [hsetting, continue?, ending?, hactive, hconfig]

/-- Take any machine that is not stopped, whatever it has done before, and a number of steps to
wait for if its settings have no limit. A run does what the same steps do one by one.

If they complete the machine within the limit, the run leaves this machine and gives its
result. If one of them fails after fewer steps than the limit, the run gives the fault and
leaves the machine that the failing step has stopped. In every other case with a limit, the run
takes as many steps as the limit says, each adding one move to the history, and stops the
machine for the limit. The run of a machine with a limit always comes to its end, and without
one it does unless more steps can be taken than are waited for. A completed machine takes no
step and gives its result. -/
theorem run_law (hstatus : machine.status ≠ .fatal) (patience : Nat) :
    (∀ n calls after, machine.Completes n calls after →
        n ≤ machine.config.maxSteps.getD patience →
        machine.runToEnd? patience = some ⟨after, calls, after.result⟩)
      ∧ (∀ n calls before fault, machine.Fails n calls before fault →
        n < machine.config.maxSteps.getD patience →
        machine.runToEnd? patience
            = some ⟨before.advance.machine, calls ++ before.advance.calls, .error fault⟩
          ∧ before.advance.machine.status = .fatal)
      ∧ (∀ limit, machine.config.maxSteps = some limit →
        (¬ ∃ n calls after, n ≤ limit ∧ machine.Completes n calls after) →
        (¬ ∃ n calls before fault, n < limit ∧ machine.Fails n calls before fault) →
        ∃ calls after moves, machine.Steps limit calls after
          ∧ machine.runToEnd? patience
            = some ⟨after.stop (.runtime (.stepLimit limit)), calls,
                .error (.runtime (.stepLimit limit))⟩
          ∧ (after.stop (.runtime (.stepLimit limit))).StoppedFor (.runtime (.stepLimit limit))
          ∧ moves.length = limit
          ∧ (after.stop (.runtime (.stepLimit limit))).history.moves
            = machine.history.moves ++ moves)
      ∧ (machine.runToEnd? patience = none → machine.config.maxSteps = none
        ∧ ∃ calls after, machine.Steps patience calls after ∧ after.isActive = true)
      ∧ (machine.status = .completed →
        machine.runToEnd? patience = some ⟨machine, [], machine.result⟩) := by
  have hfault := fault_eq_none hstatus
  refine ⟨fun n calls after hend hwithin => hend.runToEnd?_eq hwithin,
    fun n calls before fault hend hwithin => ⟨hend.runToEnd?_eq hwithin, hend.status_eq⟩,
    ?_, ?_, fun hcompleted => ?_⟩
  · intro limit hsetting hcompletes hfails
    -- Neither end is reached within the limit, so all the steps up to it are taken.
    rcases steps_or_end hfault limit with hend | hend | ⟨calls, after, hsteps, hactive⟩
    · exact absurd hend hcompletes
    · exact absurd hend hfails
    · obtain ⟨moves, hlength, hmoves⟩ := hsteps.history_eq
      refine ⟨calls, after, moves, hsteps, hsteps.runToEnd?_limit hactive hsetting patience,
        stoppedFor_stop (hsteps.fault_eq_none hfault) (by simp [Fault.kind]), hlength, ?_⟩
      rw [stop_history, hmoves]
  · intro hnone
    -- Both ends would be the end of the run, and so would a limit.
    rcases steps_or_end hfault (machine.config.maxSteps.getD patience) with
      ⟨n, calls, after, hle, hend⟩ | ⟨n, calls, before, fault, hlt, hend⟩
        | ⟨calls, after, hsteps, hactive⟩
    · rw [hend.runToEnd?_eq hle] at hnone
      cases hnone
    · rw [hend.runToEnd?_eq hlt] at hnone
      cases hnone
    · cases hsetting : machine.config.maxSteps with
      | none =>
        rw [hsetting, Option.getD_none] at hsteps
        exact ⟨rfl, calls, after, hsteps, hactive⟩
      | some limit =>
        rw [hsetting, Option.getD_some] at hsteps
        rw [hsteps.runToEnd?_limit hactive hsetting patience] at hnone
        cases hnone
  · have hend : machine.Completes 0 [] machine := ⟨.zero, hcompleted⟩
    exact hend.runToEnd?_eq (Nat.zero_le _)

/-- With a limit of one step, a run from the root is stopped in the start state. If the step to
the start state is taken before, then the run is allowed the step to the final one, and it
completes. With a limit of two steps, the run ends with the fault of an action that fails in the
second one, and not for the limit. -/
theorem ledger_run :
    (∃ calls after, (Machine.new ledger { maxSteps := some 1 }).Steps 1 calls after
        ∧ (Machine.new ledger { maxSteps := some 1 }).runToEnd? 0
          = some ⟨after.stop (.runtime (.stepLimit 1)), calls,
              .error (.runtime (.stepLimit 1))⟩)
      ∧ (Machine.new ledger { maxSteps := some 1 }).advance.machine.history.size = 1
      ∧ (∃ calls after,
        (Machine.new ledger { maxSteps := some 1 }).advance.machine.runToEnd? 0
          = some ⟨after, calls, .ok (.bool true)⟩)
      ∧ ∃ calls before, (Machine.new depot { maxSteps := some 2 }).Steps 1 calls before
        ∧ (Machine.new depot { maxSteps := some 2 }).runToEnd? 0
          = some ⟨before.advance.machine, calls ++ before.advance.calls,
              .error (.callbackFailed .entryAction (.plain "jammed"))⟩
        ∧ before.advance.machine.status = .fatal := by
  have hidle : (Machine.new ledger { maxSteps := some 1 }).status ≠ .fatal := by decide
  have hrunning :
      (Machine.new ledger { maxSteps := some 1 }).advance.machine.status ≠ .fatal := by decide
  obtain ⟨-, -, hlimit, -⟩ := run_law hidle 0
  obtain ⟨hcompletes, -⟩ := run_law hrunning 0
  -- Neither the new machine nor the one in the start state is completed.
  have hunfinished : ¬ ∃ n calls after, n ≤ 1
      ∧ (Machine.new ledger { maxSteps := some 1 }).Completes n calls after := by
    rintro ⟨n, calls, after, hle, hsteps, hcompleted⟩
    cases hsteps with
    | zero => exact absurd hcompleted (by decide)
    | succ _ _ hrest =>
      cases hrest with
      | zero => exact absurd hcompleted (by decide)
      | succ => omega
  have hunfailed : ¬ ∃ n calls before fault, n < 1
      ∧ (Machine.new ledger { maxSteps := some 1 }).Fails n calls before fault := by
    rintro ⟨n, calls, before, fault, hlt, hsteps, -, hfailed⟩
    cases hsteps with
    | zero => cases hfailed
    | succ => omega
  have hend : (Machine.new ledger { maxSteps := some 1 }).advance.machine.Completes 1 _ _ :=
    ⟨.succ (by decide) rfl .zero, by decide⟩
  refine ⟨?_, rfl, ⟨_, _, hcompletes _ _ _ hend (by decide)⟩, ?_⟩
  · obtain ⟨calls, after, -, hsteps, hrun, -⟩ := hlimit 1 rfl hunfinished hunfailed
    exact ⟨calls, after, hsteps, hrun⟩
  · -- The step to the start state succeeds, and the action of the next one fails.
    have hjammed : (Machine.new depot { maxSteps := some 2 }).Fails 1 _ _
        (.callbackFailed .entryAction (.plain "jammed")) :=
      ⟨.succ (by decide) rfl .zero, by decide, rfl⟩
    have hfresh : (Machine.new depot { maxSteps := some 2 }).status ≠ .fatal := by decide
    obtain ⟨-, hfails, -⟩ := run_law hfresh 0
    exact ⟨_, _, hjammed.steps, hfails _ _ _ _ hjammed (by decide)⟩

end Machine

end Statechart
