import Statechart.Proofs.Chart.Rejection
import Statechart.Proofs.Machine.Reach

/-!
# `Statechart.Proofs.Machine.Fatal`: stopped machines

A machine is `StoppedFor` a cause if it keeps the cause together with the dumps of its stack
and history as they are now. A call `Discloses` its stop: if it leaves the machine stopped,
it answers with the bare cause. Every phase of a step does so, whichever way it fails and
whatever has become of the stack by then (`discloses_advance`), and a run passes the answer of
its failing step on (`discloses_serve`).

A stopped machine answers every call but a reset with the fault that it keeps, and does
nothing else (`serveAll_of_fatal`). Nothing here depends on the chart or on how the machine
came about.
-/

set_option autoImplicit false

namespace Statechart

/-- A fault that is no stop is its own root. -/
theorem Fault.rootCause_eq_self {fault : Fault} (h : fault.kind ≠ .fatal) :
    fault.rootCause = fault := by
  cases fault with
  | fatal => exact absurd rfl h
  | _ => rfl

namespace Machine

variable {machine : Machine} {cause : Fault} {α β : Type}

/-- The machine is stopped for a cause that is no stop itself, and it keeps the dumps of its
stack and history. -/
structure StoppedFor (machine : Machine) (cause : Fault) : Prop where
  /-- The cause is bare. -/
  bare : cause.kind ≠ .fatal
  /-- The kept fault wraps the cause and the dumps of the machine as it is. -/
  kept : machine.fault = some (.fatal cause (machine.stack.outline.render 0)
    (machine.history.outline.render 0))

/-- The kept fault leads back to the cause. -/
theorem StoppedFor.rootCause_eq (h : machine.StoppedFor cause) {stored : Fault}
    (hstored : machine.fault = some stored) : stored.rootCause = cause := by
  rw [h.kept] at hstored
  cases hstored
  exact Fault.rootCause_eq_self h.bare

/-- The answer of a call that left the machine stopped is the bare cause. -/
def Discloses (machine : Machine) (result : Except Fault α) : Prop :=
  machine.fault.isSome → ∃ cause, result = .error cause ∧ machine.StoppedFor cause

/-! ### The call that stops a machine -/

/-- A machine that is not stopped has nothing to disclose. -/
theorem discloses_of_eq_none {result : Except Fault α} (hfault : machine.fault = none) :
    machine.Discloses result := by
  intro hstopped
  rw [hfault] at hstopped
  cases hstopped

/-- What is done with a value afterwards leaves the faults alone. -/
theorem Discloses.map {result : Except Fault α} (h : machine.Discloses result) (f : α → β) :
    machine.Discloses (result.map f) := by
  intro hstopped
  obtain ⟨cause, hresult, hcause⟩ := h hstopped
  exact ⟨cause, by rw [hresult]; rfl, hcause⟩

/-- A call that succeeds leaves the machine unstopped. -/
theorem Discloses.fault_eq_none {result : Except Fault α} {answer : α}
    (h : machine.Discloses result) (hresult : result = .ok answer) : machine.fault = none := by
  cases hstopped : machine.fault with
  | none => rfl
  | some fault =>
    obtain ⟨cause, hcause, -⟩ := h (by simp [hstopped])
    rw [hresult] at hcause
    cases hcause

/-- A machine that was not stopped yet is stopped for the cause. -/
theorem stoppedFor_stop (hfault : machine.fault = none) (hbare : cause.kind ≠ .fatal) :
    (machine.stop cause).StoppedFor cause := by
  refine ⟨hbare, ?_⟩
  rw [stop_eq hfault]

/-- A step that fails for a bare cause answers with it and keeps it. -/
theorem discloses_fail (calls : List Call) (hfault : machine.fault = none)
    (hbare : cause.kind ≠ .fatal) :
    (machine.fail calls cause).machine.Discloses (machine.fail calls cause).result :=
  fun _ => ⟨cause, rfl, stoppedFor_stop hfault hbare⟩

/-- An action that fails stops the machine with the stack as the action left it. -/
theorem discloses_act (calls : List Call) (way : Transition) (move : Move)
    (hfault : machine.fault = none) :
    (machine.act calls way move).machine.Discloses (machine.act calls way move).result := by
  unfold act
  split
  · exact discloses_of_eq_none hfault
  · simp only
    split
    · exact discloses_of_eq_none hfault
    · refine discloses_fail _ ?_ (by simp [Fault.kind])
      exact hfault

/-- A scope that cannot be opened stops the machine with the scopes closed. -/
theorem discloses_enter (calls : List Call) (source : String) (way : Transition) (next : State)
    (kept : Nat) (hfault : machine.fault = none) :
    (machine.enter calls source way next kept).machine.Discloses
      (machine.enter calls source way next kept).result := by
  unfold enter
  simp only
  split
  · refine discloses_fail _ ?_ (by simp [Fault.kind])
    exact hfault
  · refine discloses_act _ _ _ ?_
    exact hfault

/-- If leaving the active state stops the machine, the answer is the bare cause. -/
theorem discloses_leaveCurrent (hfault : machine.fault = none) :
    machine.leaveCurrent.machine.Discloses machine.leaveCurrent.result := by
  -- Up to the way to the target a failure finds the stack as it was; then the scopes are closed.
  unfold leaveCurrent
  split
  · exact discloses_fail _ hfault (by simp [Fault.kind])
  · next head _ =>
    split
    · exact discloses_fail _ hfault (by simp [Fault.kind])
    · next state _ =>
      rcases leave_cases machine head.name state.transitions with
        ⟨fault, hobstacle, hfail⟩ | ⟨way, target, kept, -, -, -, henter⟩
      · rw [hfail]
        refine discloses_fail _ hfault ?_
        rcases hobstacle.kind with hkind | hkind
        · simp [hkind]
        · simp [hkind]
      · rw [henter]
        exact discloses_enter _ _ _ _ _ hfault

/-- A step that stops the machine answers with the bare cause. -/
theorem discloses_advance (hfault : machine.fault = none) :
    machine.advance.machine.Discloses machine.advance.result := by
  unfold Machine.advance
  split
  · split
    · next fault hreport =>
      refine discloses_fail [] hfault ?_
      rcases Chart.kind_of_validate hreport with hkind | hkind
      · simp [hkind]
      · simp [hkind]
    · exact discloses_leaveCurrent hfault
  · exact discloses_leaveCurrent hfault
  · exact discloses_of_eq_none hfault
  · exact discloses_of_eq_none hfault

/-- A run that stops the machine answers with the bare cause: that of the step that failed, or
the limit of steps. -/
theorem discloses_continue? {patience steps : Nat} {taken : RunTaken}
    (hfault : machine.fault = none) (hrun : continue? patience steps machine = some taken) :
    taken.machine.Discloses taken.result := by
  refine continue?_rule (P := fun machine taken => machine.fault = none →
    taken.machine.Discloses taken.result) ?_ ?_ ?_ ?_ hrun hfault
  · intro machine _ hfault
    exact discloses_of_eq_none hfault
  · intro machine limit _ _ hfault _
    exact ⟨_, rfl, stoppedFor_stop hfault (by simp [Fault.kind])⟩
  · intro machine fault _ hfailed hfault hstopped
    obtain ⟨cause, hcause, hkept⟩ := discloses_advance hfault hstopped
    rw [hfailed] at hcause
    cases hcause
    exact ⟨fault, rfl, hkept⟩
  · -- Between two steps of the run the machine is not stopped.
    intro machine move rest _ hmove ih hfault
    exact ih ((discloses_advance hfault).fault_eq_none hmove)

/-- Whatever the call, if it stops the machine, it answers with the bare cause. -/
theorem discloses_serve {operation : Operation} {served : Served} (hfault : machine.fault = none)
    (hserve : machine.serve operation = some served) :
    served.machine.Discloses served.result := by
  cases operation with
  | advance =>
    cases hserve
    exact (discloses_advance hfault).map _
  | run patience =>
    obtain ⟨taken, htaken, rfl⟩ := Option.map_eq_some_iff.1 hserve
    exact (discloses_continue? hfault htaken).map _
  | result =>
    cases hserve
    exact discloses_of_eq_none hfault
  | reset =>
    cases hserve
    exact discloses_of_eq_none rfl

/-! ### Calls to a stopped machine -/

/-- Asked for its result, a stopped machine answers with the fault that it keeps. -/
theorem result_of_fatal (hstatus : machine.status = .fatal) :
    machine.result = .error machine.storedFault := by
  simp only [result, hstatus]

/-- A stopped machine ends a run before its first step, at any patience. -/
theorem runToEnd?_of_fatal (hstatus : machine.status = .fatal) (patience : Nat) :
    machine.runToEnd? patience = some ⟨machine, [], machine.result⟩ :=
  continue?_of_passive _ _ (by simp [isActive, hstatus])

/-- A stopped machine answers with the fault that it keeps, and calls nothing. -/
theorem serve_of_fatal {operation : Operation} (hstatus : machine.status = .fatal)
    (hkeep : operation ≠ .reset) :
    machine.serve operation = some ⟨machine, [], .error machine.storedFault⟩ := by
  cases operation with
  | advance => simp only [serve, Machine.advance, hstatus, Except.map]
  | run patience =>
    simp only [serve, runToEnd?_of_fatal hstatus, result_of_fatal hstatus, Option.map_some,
      Except.map]
  | result => simp only [serve, result_of_fatal hstatus, Except.map]
  | reset => exact absurd rfl hkeep

/-- Call after call, a stopped machine answers alike and stays as it is. -/
theorem serveAll_of_fatal (hstatus : machine.status = .fatal) {operations : List Operation}
    (hkeep : .reset ∉ operations) :
    machine.serveAll operations
      = some (List.replicate operations.length ⟨machine, [], .error machine.storedFault⟩) := by
  induction operations with
  | nil => rfl
  | cons operation rest ih =>
    rw [List.mem_cons, not_or] at hkeep
    obtain ⟨hfirst, hrest⟩ := hkeep
    simp only [serveAll, serve_of_fatal hstatus (Ne.symm hfirst), Option.bind_eq_bind,
      Option.bind_some, ih hrest]
    rfl

/-- Take any machine that is not stopped, and a call that stops it. The call answers with the
bare cause; the machine keeps the cause together with the dumps of its stack and history. From
then on every call but a reset is answered with the kept fault, calls no guard and no action,
and leaves the machine as it is, so that the kept dumps stay those of its stack and history. -/
theorem fatal_is_final {operation : Operation} {served : Served}
    (hstatus : machine.status ≠ .fatal) (hserve : machine.serve operation = some served)
    (hstopped : served.machine.status = .fatal) :
    ∃ cause, served.result = .error cause
      ∧ served.machine.StoppedFor cause
      ∧ served.machine.storedFault.rootCause = cause
      ∧ ∀ operations : List Operation, .reset ∉ operations →
        served.machine.serveAll operations
          = some (List.replicate operations.length
              ⟨served.machine, [], .error served.machine.storedFault⟩) := by
  obtain ⟨cause, hresult, hcause⟩ :=
    discloses_serve (fault_eq_none hstatus) hserve (status_eq_fatal_iff.1 hstopped)
  refine ⟨cause, hresult, hcause, ?_, fun operations hkeep => serveAll_of_fatal hstopped hkeep⟩
  -- The kept fault wraps the cause, which is no wrapper itself.
  calc served.machine.storedFault.rootCause
      = cause.rootCause := by simp only [storedFault, hcause.kept, Option.getD_some,
          Fault.rootCause]
    _ = cause := Fault.rootCause_eq_self hcause.bare

/-- A start state with a guard that fails. -/
def faulty : Chart :=
  [Chart.Addition.start (State.new "a"
      [⟨"go", "b", .custom fun _ => ⟨[], .error (.plain "broken")⟩, none⟩]) none,
    .plain (State.new "b" []) none].foldl Chart.perform Chart.new

/-- The run meets the failing guard in its second step, and the machine stays stopped. -/
theorem faulty_final :
    ∃ served, (Machine.new faulty {}).serve (.run 5) = some served
      ∧ served.result = .error (.callbackFailed .guard (.plain "broken"))
      ∧ served.machine.StoppedFor (.callbackFailed .guard (.plain "broken"))
      ∧ served.machine.serveAll [.advance, .result, .run 5]
        = some (List.replicate 3 ⟨served.machine, [], .error served.machine.storedFault⟩) := by
  -- The run is executed up to its fault; the law tells the rest.
  obtain ⟨served, hserve, hresult, hstopped⟩ :
      ∃ served, (Machine.new faulty {}).serve (.run 5) = some served
        ∧ served.result = .error (.callbackFailed .guard (.plain "broken"))
        ∧ served.machine.status = .fatal := ⟨_, rfl, rfl, rfl⟩
  have hstatus : (Machine.new faulty {}).status ≠ .fatal := by decide
  obtain ⟨cause, hcause, hkept, -, hlater⟩ := fatal_is_final hstatus hserve hstopped
  rw [hresult] at hcause
  cases hcause
  exact ⟨served, hserve, hresult, hkept, hlater [.advance, .result, .run 5] (by simp)⟩

end Machine

end Statechart
