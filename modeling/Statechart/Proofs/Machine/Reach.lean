import Statechart.Machine.Run
import Statechart.Proofs.Machine.ActivePath

/-!
# `Statechart.Proofs.Machine.Reach`: the machines that calls lead to

A new machine is changed by three calls: a step, a whole run, and a reset. `Reached` holds of
every machine that some sequence of these calls leads to, whatever comes of each call. A run
without a limit may go on forever; then the call leads nowhere.

A run is a row of steps: `continue?_succ_cases` says how it can begin and `ending?_cases` how
it can end, and `continue?_rule` takes the two together. So what steps and the stop at the limit
of a run keep, whole runs keep (`continue?_induction`), and if resets keep it too, every reached
machine has it (`Reached.invariant`, `Reached.aligned`).

`serve` makes a call with the callbacks and the answer that belong to it, and `serveAll`
makes calls one after the other. What every call keeps holds all the way
(`serveAll_invariant`).
-/

set_option autoImplicit false

namespace Statechart

namespace Machine

/-! ### Runs -/

/-- A machine can take steps if it is idle or running. -/
theorem isActive_iff {machine : Machine} :
    machine.isActive = true ↔ machine.status = .idle ∨ machine.status = .running := by
  simp [isActive]

/-- A completed or stopped machine can take no steps. -/
theorem not_isActive {machine : Machine}
    (hstatus : machine.status = .completed ∨ machine.status = .fatal) :
    ¬ machine.isActive = true := by
  rcases hstatus with hstatus | hstatus
  · simp [isActive, hstatus]
  · simp [isActive, hstatus]

/-- A machine that can take no steps stays as it is. -/
theorem advance_machine_of_passive {machine : Machine} (hpassive : machine.isActive = false) :
    machine.advance.machine = machine := by
  unfold Machine.advance
  split
  · next hidle => simp [isActive, hidle] at hpassive
  · next hrunning => simp [isActive, hrunning] at hpassive
  · rfl
  · rfl

/-- A machine that can take no steps is completed, if it is not stopped. -/
theorem status_eq_completed {machine : Machine} (hfault : machine.fault = none)
    (hpassive : machine.isActive = false) : machine.status = .completed := by
  cases hstatus : machine.status with
  | idle => simp [isActive, hstatus] at hpassive
  | running => simp [isActive, hstatus] at hpassive
  | completed => rfl
  | fatal =>
    rw [status_eq_fatal_iff, hfault] at hstatus
    cases hstatus

/-- A run ends where it is, if the machine can take no more steps, or it is stopped at its
limit. -/
theorem ending?_cases {machine : Machine} {steps : Nat} {taken : RunTaken}
    (h : machine.ending? steps = some taken) :
    (machine.isActive = false ∧ taken = ⟨machine, [], machine.result⟩)
      ∨ ∃ limit, machine.isActive = true ∧ machine.config.maxSteps = some limit ∧ limit ≤ steps
        ∧ taken = ⟨machine.stop (.runtime (.stepLimit limit)), [],
            .error (.runtime (.stepLimit limit))⟩ := by
  unfold ending? at h
  split at h
  · next hactive =>
    split at h
    · cases h
    · next limit hlimit =>
      split at h
      · next hreached =>
        cases h
        exact Or.inr ⟨limit, hactive, hlimit, hreached, rfl⟩
      · cases h
  · next hactive =>
    cases h
    exact Or.inl ⟨by simpa using hactive, rfl⟩

/-- A run goes on only if the machine can take steps. -/
theorem isActive_of_ending?_eq_none {machine : Machine} {steps : Nat}
    (h : machine.ending? steps = none) : machine.isActive = true := by
  unfold ending? at h
  split at h
  · next hactive => exact hactive
  · cases h

/-- A machine that can take no steps ends a run, whatever its limit. -/
theorem continue?_of_passive {machine : Machine} (patience steps : Nat)
    (hpassive : machine.isActive = false) :
    continue? patience steps machine = some ⟨machine, [], machine.result⟩ := by
  have hend : machine.ending? steps = some ⟨machine, [], machine.result⟩ := by
    simp [ending?, hpassive]
  cases patience with
  | zero => exact hend
  | succ patience => simp only [continue?, hend]

/-- A run ends here, or with its next step if that fails, or it goes on after the step. -/
theorem continue?_succ_cases {machine : Machine} {patience steps : Nat} {taken : RunTaken}
    (h : continue? (patience + 1) steps machine = some taken) :
    machine.ending? steps = some taken
      ∨ machine.isActive = true
        ∧ ((∃ fault, machine.advance.result = .error fault
            ∧ taken = ⟨machine.advance.machine, machine.advance.calls, .error fault⟩)
          ∨ ∃ move rest, machine.advance.result = .ok move
            ∧ continue? patience (steps + 1) machine.advance.machine = some rest
            ∧ taken = { rest with calls := machine.advance.calls ++ rest.calls }) := by
  unfold continue? at h
  split at h
  · next ended hend =>
    cases h
    exact Or.inl hend
  · next hend =>
    refine Or.inr ⟨isActive_of_ending?_eq_none hend, ?_⟩
    simp only at h
    split at h
    · next fault hresult =>
      cases h
      exact Or.inl ⟨fault, hresult, rfl⟩
    · next move hresult =>
      obtain ⟨rest, hrest, hsame⟩ := Option.map_eq_some_iff.1 h
      exact Or.inr ⟨move, rest, hresult, hrest, hsame.symm⟩

/-- What holds of every run that ends: it is enough to look at a machine that can take no more
steps, at the limit of steps, at a failing step, and at a step before the rest of a run. -/
theorem continue?_rule {P : Machine → RunTaken → Prop}
    (hpassive : ∀ machine : Machine, machine.isActive = false →
      P machine ⟨machine, [], machine.result⟩)
    (hlimit : ∀ (machine : Machine) (limit : Nat), machine.isActive = true →
      machine.config.maxSteps = some limit →
      P machine ⟨machine.stop (.runtime (.stepLimit limit)), [],
        .error (.runtime (.stepLimit limit))⟩)
    (hfailed : ∀ (machine : Machine) (fault : Fault), machine.isActive = true →
      machine.advance.result = .error fault →
      P machine ⟨machine.advance.machine, machine.advance.calls, .error fault⟩)
    (hstep : ∀ (machine : Machine) (move : Move) (rest : RunTaken), machine.isActive = true →
      machine.advance.result = .ok move → P machine.advance.machine rest →
      P machine { rest with calls := machine.advance.calls ++ rest.calls })
    {patience steps : Nat} {machine : Machine} {taken : RunTaken}
    (hrun : continue? patience steps machine = some taken) : P machine taken := by
  have hending : ∀ (steps : Nat) (machine : Machine) (taken : RunTaken),
      machine.ending? steps = some taken → P machine taken := by
    intro steps machine taken hend
    rcases ending?_cases hend with ⟨hstatus, rfl⟩ | ⟨limit, hactive, hsetting, -, rfl⟩
    · exact hpassive machine hstatus
    · exact hlimit machine limit hactive hsetting
  -- In between the run takes steps, one for each unit of patience.
  induction patience generalizing steps machine taken with
  | zero => exact hending steps machine taken hrun
  | succ patience ih =>
    rcases continue?_succ_cases hrun with
      hend | ⟨hactive, ⟨fault, hfault, rfl⟩ | ⟨move, rest, hmove, hrest, rfl⟩⟩
    · exact hending steps machine taken hend
    · exact hfailed machine fault hactive hfault
    · exact hstep machine move rest hactive hmove (ih hrest)

/-- What steps and stops keep, whole runs keep. -/
theorem continue?_induction {P : Machine → Prop}
    (hadvance : ∀ machine : Machine, P machine → P machine.advance.machine)
    (hstop : ∀ (machine : Machine) (cause : Fault), P machine → P (machine.stop cause))
    {patience steps : Nat} {machine : Machine} {taken : RunTaken} (h : P machine)
    (hrun : continue? patience steps machine = some taken) : P taken.machine := by
  -- At the limit the machine is stopped without a step; in all other cases steps are all there is.
  refine continue?_rule (P := fun machine taken => P machine → P taken.machine) ?_ ?_ ?_ ?_ hrun h
  · exact fun machine _ h => h
  · exact fun machine limit _ _ h => hstop machine _ h
  · exact fun machine fault _ _ h => hadvance machine h
  · exact fun machine move rest _ _ ih h => ih (hadvance machine h)

/-! ### Reached machines -/

/-- The machines that steps, runs and resets lead to from a new machine of a chart. -/
inductive Reached (chart : Chart) (config : Config) : Machine → Prop where
  /-- A new machine. -/
  | new : Reached chart config (Machine.new chart config)
  /-- A machine after a step, successful or not. -/
  | advance {machine : Machine} (h : Reached chart config machine) :
      Reached chart config machine.advance.machine
  /-- A machine after a run, whatever its result. -/
  | run {machine : Machine} {patience : Nat} {taken : RunTaken}
      (h : Reached chart config machine) (hrun : machine.runToEnd? patience = some taken) :
      Reached chart config taken.machine
  /-- A machine after a reset. -/
  | reset {machine : Machine} (h : Reached chart config machine) :
      Reached chart config machine.reset

/-- What holds of a new machine and is kept by steps, stops and resets holds of every reached
machine. -/
theorem Reached.invariant {chart : Chart} {config : Config} {machine : Machine}
    {P : Machine → Prop} (hnew : P (Machine.new chart config))
    (hadvance : ∀ machine : Machine, P machine → P machine.advance.machine)
    (hstop : ∀ (machine : Machine) (cause : Fault), P machine → P (machine.stop cause))
    (hreset : ∀ machine : Machine, P machine → P machine.reset)
    (h : Reached chart config machine) : P machine := by
  induction h with
  | new => exact hnew
  | advance _ ih => exact hadvance _ ih
  | run _ hrun ih => exact continue?_induction hadvance hstop ih hrun
  | reset _ ih => exact hreset _ ih

/-- Every machine that is reached on a tree has its chart and is aligned. -/
theorem Reached.aligned {chart : Chart} {config : Config} {machine : Machine}
    (htree : chart.Tree) (h : Reached chart config machine) :
    machine.chart = chart ∧ machine.Aligned := by
  -- Steps are known to keep the chart of an aligned machine, so the two go together.
  refine h.invariant (P := fun machine => machine.chart = chart ∧ machine.Aligned)
    ⟨rfl, .new htree config⟩ ?_ ?_ ?_
  · exact fun machine ⟨hchart, haligned⟩ =>
      ⟨haligned.advance_chart.trans hchart, haligned.advance⟩
  · exact fun machine cause ⟨hchart, haligned⟩ =>
      ⟨(stop_chart machine cause).trans hchart, haligned.stop cause⟩
  · exact fun machine ⟨hchart, haligned⟩ => ⟨hchart, haligned.reset⟩

/-! ### Calls with their answers -/

/-- What a machine can be called to do. -/
inductive Operation where
  /-- Take a step. -/
  | advance
  /-- Run to the end. Without a limit on its steps, the run is waited for as long as it takes
  no more than `patience` steps. -/
  | run (patience : Nat)
  /-- Give the result. -/
  | result
  /-- Give up the run. -/
  | reset

/-- What a call answers if it succeeds. -/
inductive Reply where
  /-- The move that was made. -/
  | moved (move : Move)
  /-- The result of the run. -/
  | value (value : Value)
  /-- The next run can begin. -/
  | ready

/-- What came of a call. -/
structure Served where
  /-- The machine afterwards. -/
  machine : Machine
  /-- The callbacks that were called, in order. -/
  calls : List Call
  /-- The answer. -/
  result : Except Fault Reply

/-- Calls a machine; `none` if that is a run that is not waited for. -/
def serve (machine : Machine) : Operation → Option Served
  | .advance => some ⟨machine.advance.machine, machine.advance.calls,
      machine.advance.result.map .moved⟩
  | .run patience => (machine.runToEnd? patience).map fun taken =>
      ⟨taken.machine, taken.calls, taken.result.map .value⟩
  | .result => some ⟨machine, [], machine.result.map .value⟩
  | .reset => some ⟨machine.reset, [], .ok .ready⟩

/-- Calls lead to reached machines. -/
theorem Reached.serve {chart : Chart} {config : Config} {machine : Machine}
    {operation : Operation} {served : Served} (h : Reached chart config machine)
    (hserve : machine.serve operation = some served) : Reached chart config served.machine := by
  cases operation with
  | advance =>
    cases hserve
    exact h.advance
  | run patience =>
    obtain ⟨taken, htaken, rfl⟩ := Option.map_eq_some_iff.1 hserve
    exact h.run htaken
  | result =>
    cases hserve
    exact h
  | reset =>
    cases hserve
    exact h.reset

/-- Makes calls one after the other. -/
def serveAll : Machine → List Operation → Option (List Served)
  | _, [] => some []
  | machine, operation :: rest => do
    let served ← machine.serve operation
    let others ← serveAll served.machine rest
    pure (served :: others)

/-- The first call is answered, and then the others are, by the machine that it leaves. -/
theorem serveAll_cons_eq_some_iff {machine : Machine} {operation : Operation}
    {rest : List Operation} {served : List Served} :
    machine.serveAll (operation :: rest) = some served
      ↔ ∃ first others, machine.serve operation = some first
        ∧ first.machine.serveAll rest = some others ∧ served = first :: others := by
  simp only [serveAll, Option.bind_eq_bind, Option.bind_eq_some_iff, Option.pure_def,
    Option.some.injEq]
  constructor
  · rintro ⟨first, hfirst, others, hothers, rfl⟩
    exact ⟨first, others, hfirst, hothers, rfl⟩
  · rintro ⟨first, others, hfirst, hothers, rfl⟩
    exact ⟨first, hfirst, others, hothers, rfl⟩

/-- What every call keeps holds of all machines on the way. -/
theorem serveAll_invariant {P : Machine → Prop}
    (hserve : ∀ (machine : Machine) (operation : Operation) (served : Served), P machine →
      machine.serve operation = some served → P served.machine)
    {machine : Machine} {operations : List Operation} {served : List Served} (h : P machine)
    (hserved : machine.serveAll operations = some served) :
    ∀ answer ∈ served, P answer.machine := by
  induction operations generalizing machine served with
  | nil =>
    cases hserved
    simp
  | cons operation rest ih =>
    obtain ⟨first, others, hfirst, hothers, rfl⟩ := serveAll_cons_eq_some_iff.1 hserved
    have hafter := hserve machine operation first h hfirst
    exact List.forall_mem_cons.2 ⟨hafter, ih hafter hothers⟩

/-- One more call is made to the machine that the others have left. -/
theorem serveAll_concat {machine : Machine} {operations : List Operation} {served : List Served}
    (hserved : machine.serveAll operations = some served) :
    ∃ before ∈ machine :: served.map (·.machine), ∀ operation,
      machine.serveAll (operations ++ [operation])
        = (before.serve operation).map fun answer => served ++ [answer] := by
  induction operations generalizing machine served with
  | nil =>
    cases hserved
    refine ⟨machine, by simp, fun operation => ?_⟩
    cases h : machine.serve operation <;> simp [serveAll, h]
  | cons first rest ih =>
    obtain ⟨answer, others, hfirst, hothers, rfl⟩ := serveAll_cons_eq_some_iff.1 hserved
    obtain ⟨before, hbefore, hlast⟩ := ih hothers
    refine ⟨before, List.mem_cons_of_mem _ hbefore, fun operation => ?_⟩
    rw [List.cons_append, serveAll, hfirst, Option.bind_eq_bind, Option.bind_some, hlast]
    cases before.serve operation <;> rfl

end Machine

end Statechart
