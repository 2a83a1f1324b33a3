import Statechart.Proofs.Chart.Built
import Statechart.Proofs.Machine.Fatal

/-!
# `Statechart.Proofs.Machine.Causes`: why machines stop

A machine is prepared for more faults than it can meet (`Fault.isDefensive`). `Stops` lists
the ones that are left: those for which an active machine is stopped by its next step, or at
the limit of a run. Every other branch is closed by one of three facts about reached machines.

* The chart was checked by the first step (`Reached.checked`), so every target is there.
* The stack lists the lineage of the active state (`Aligned`), so that state is there, it has
  an ancestor in common with every target, and only the root cannot be opened.
* The target of a step is below the root, so its action finds two scopes at least and can
  write wherever it wants (`Aligned.two_le_depth`).

`report_law` puts this together for whole calls.
-/

set_option autoImplicit false

namespace Statechart

/-- The faults of a run that stand for states of a machine that do not come about. -/
def RunFault.isDefensive : RunFault → Bool
  | unknownHead | vanished _ | unknownTarget _ _ | noCommonParent _ _ | unrecorded
  | noGlobalScope | emptyStack | noParentScope => true
  | _ => false

/-- Whether a fault is one that a machine is prepared for but never meets. -/
def Fault.isDefensive : Fault → Bool
  | runtime cause => cause.isDefensive
  | _ => false

/-- Only a fault of a run can be defensive. -/
theorem Fault.isDefensive_eq_false {fault : Fault} (hkind : fault.kind ≠ .runtime) :
    fault.isDefensive = false := by
  cases fault with
  | runtime => exact absurd rfl hkind
  | _ => rfl

namespace Machine

variable {chart : Chart} {config : Config} {machine : Machine} {cause : Fault}

/-- Why a machine is stopped by its next step, or at the limit of a run. -/
inductive Stops (machine : Machine) : Fault → Prop where
  /-- The first step finds that the chart is not consistent. -/
  | invalid {cause : Fault} (hidle : machine.status = .idle)
      (hreport : machine.chart.validate = .error cause) : Stops machine cause
  /-- A guard of the active state fails. -/
  | guard {state : State} {way : Transition} {failure : Failure}
      (hcurrent : machine.current? = some state) (hway : way ∈ state.transitions)
      (hfails : (way.guard.check machine.stack.view).result = .error failure) :
      Stops machine (.callbackFailed .guard failure)
  /-- No transition of the active state is open. -/
  | closed {state : State} (hcurrent : machine.current? = some state)
      (hanswered : machine.Answered state.transitions)
      (hnone : state.transitions.filter machine.opens = []) :
      Stops machine (.runtime (.allClosed state.name))
  /-- More than one transition of the active state is open. -/
  | several {state : State} (hcurrent : machine.current? = some state)
      (hanswered : machine.Answered state.transitions)
      (hseveral : 1 < (state.transitions.filter machine.opens).length) :
      Stops machine (.runtime (.severalOpen state.name
        ((state.transitions.filter machine.opens).map (·.name))))
  /-- The one open transition leads down by more than one level. -/
  | tooDeep {state target : State} {way : Transition} (hcurrent : machine.current? = some state)
      (hanswered : machine.Answered state.transitions)
      (honly : state.transitions.filter machine.opens = [way])
      (hthere : machine.chart.get? way.target = some target)
      (hfar : ¬ Near machine.stack.states target) :
      Stops machine (.runtime (.tooDeep state.name target.name))
  /-- The one open transition leads to the root. -/
  | root (hheads : machine.HeadsForRoot) : Stops machine (.runtime (.pushFailed rootName))
  /-- The action of the one open transition fails. -/
  | action {state target : State} {way : Transition} {action : Action} {failure : Failure}
      (hchosen : machine.Chosen state way target) (haction : way.action = some action)
      (hfails : (action.run (machine.opened state.name way.target)).2.result = .error failure) :
      Stops machine (.callbackFailed .entryAction failure)
  /-- The run may not take another step. -/
  | limit {limit : Nat} (hactive : machine.isActive = true)
      (hlimit : machine.config.maxSteps = some limit) :
      Stops machine (.runtime (.stepLimit limit))

namespace Stops

/-- The causes are of four kinds. -/
theorem kind (h : machine.Stops cause) :
    cause.kind = .stateInvalid ∨ cause.kind = .chartInvalid ∨ cause.kind = .callbackFailed
      ∨ cause.kind = .runtime := by
  cases h with
  | invalid _ hreport =>
    rcases Chart.kind_of_validate hreport with hkind | hkind
    · exact Or.inl hkind
    · exact Or.inr (Or.inl hkind)
  | guard => simp [Fault.kind]
  | closed => simp [Fault.kind]
  | several => simp [Fault.kind]
  | tooDeep => simp [Fault.kind]
  | root => simp [Fault.kind]
  | action => simp [Fault.kind]
  | limit => simp [Fault.kind]

/-- A cause is no stop itself. -/
theorem bare (h : machine.Stops cause) : cause.kind ≠ .fatal := by
  rcases h.kind with hkind | hkind | hkind | hkind <;> simp [hkind]

/-- No machine is stopped for a call that its status forbids. -/
theorem kind_ne_wrongFlow (h : machine.Stops cause) : cause.kind ≠ .wrongFlow := by
  rcases h.kind with hkind | hkind | hkind | hkind <;> simp [hkind]

/-- No machine is stopped for one of the faults that cannot occur. -/
theorem isDefensive_eq_false (h : machine.Stops cause) : cause.isDefensive = false := by
  cases h with
  | invalid _ hreport =>
    exact Fault.isDefensive_eq_false (Chart.kind_ne_runtime_of_validate hreport)
  | guard => rfl
  | closed => rfl
  | several => rfl
  | tooDeep => rfl
  | root => rfl
  | action => rfl
  | limit => rfl

/-- A scope cannot be opened only if it is that of the root. -/
theorem headsForRoot {target : String} (h : machine.Stops (.runtime (.pushFailed target))) :
    target = rootName ∧ machine.HeadsForRoot := by
  cases h with
  | invalid _ hreport => exact absurd rfl (Chart.kind_ne_runtime_of_validate hreport)
  | root hheads => exact ⟨rfl, hheads⟩

end Stops

/-! ### The check of the chart -/

/-- The chart was checked, unless the machine is stopped or has not left the root. -/
def Checked (machine : Machine) : Prop :=
  machine.fault = none → 1 < machine.stack.depth → machine.chart.validate = .ok ()

/-- The first step checks the chart, and the chart stays as it is. -/
theorem Aligned.checked_advance (haligned : machine.Aligned) (hchecked : machine.Checked) :
    machine.advance.machine.Checked := by
  have htakes := haligned.takes_advance
  generalize machine.advance = step at htakes
  cases htakes with
  | refused => exact hchecked
  | stopped => exact fun hfault => absurd hfault (stop_fault_ne_none _ _)
  | barred => exact fun hfault => absurd hfault (stop_fault_ne_none _ _)
  | entered hchosen _ hvalid =>
    intro _ _
    rw [act_chart]
    show machine.chart.validate = .ok ()
    rcases hchosen.active with hidle | hrunning
    · exact hvalid hidle
    · exact hchecked (fault_eq_none_of_active hchosen.active) (one_lt_depth hrunning)

/-- On a tree every reached machine has checked its chart. -/
theorem Reached.checked (htree : chart.Tree) (h : Reached chart config machine) :
    machine.Checked := by
  have hinitial : ¬ 1 < initialStack.depth := by decide
  refine (h.invariant (P := fun machine => machine.Aligned ∧ machine.Checked) ?_ ?_ ?_ ?_).2
  · exact ⟨.new htree config, fun _ hdepth => absurd hdepth hinitial⟩
  · intro machine h
    exact ⟨h.1.advance, h.1.checked_advance h.2⟩
  · intro machine cause h
    exact ⟨h.1.stop cause, fun hfault => absurd hfault (stop_fault_ne_none machine cause)⟩
  · intro machine h
    exact ⟨h.1.reset, fun _ hdepth => absurd hdepth hinitial⟩

/-! ### Steps -/

/-- A failing action stops the machine. -/
theorem act_eq_error_cases {calls : List Call} {way : Transition} {move : Move}
    (h : (machine.act calls way move).result = .error cause) :
    ∃ action failure, way.action = some action
      ∧ (action.run machine.stack).2.result = .error failure
      ∧ cause = .callbackFailed .entryAction failure
      ∧ (machine.act calls way move).machine.fault ≠ none := by
  rw [act_machine]
  unfold act at h
  cases haction : way.action with
  | none =>
    rw [haction] at h
    cases h
  | some action =>
    rw [haction] at h
    simp only at h ⊢
    cases hresult : (action.run machine.stack).2.result with
    | ok =>
      rw [hresult] at h
      cases h
    | error failure =>
      rw [hresult] at h
      cases h
      exact ⟨action, failure, rfl, hresult, rfl, stop_fault_ne_none _ _⟩

/-- On a checked chart a step fails before it closes a scope for one of the known causes. -/
theorem Aligned.stops_of_halt (haligned : machine.Aligned) (hchecked : machine.Checked)
    (hactive : machine.status = .idle ∨ machine.status = .running) (hhalt : machine.Halt cause) :
    machine.Stops cause := by
  cases hhalt with
  | invalid hidle hreport => exact .invalid hidle hreport
  | @obstacle state _ hcurrent hvalid hobstacle =>
    obtain ⟨hget, hpath⟩ := haligned.lineage_current hcurrent
    cases hobstacle with
    | guard hway hfails => exact .guard hcurrent hway hfails
    | closed hanswered hnone => exact .closed hcurrent hanswered hnone
    | several hanswered hseveral => exact .several hcurrent hanswered hseveral
    | @astray way _ hanswered honly hroute =>
      -- The target is there, because the chart was accepted, now or by an earlier step.
      have hconsistent : machine.chart.Consistent := by
        refine Chart.consistent_of_validate haligned.tree.named ?_
        rcases hactive with hidle | hrunning
        · exact hvalid hidle
        · exact hchecked (fault_eq_none_of_active (Or.inr hrunning)) (one_lt_depth hrunning)
      obtain ⟨target, hthere⟩ :=
        Option.isSome_iff_exists.1 (hconsistent.known _ _ hget way (mem_of_only honly))
      obtain ⟨hfar, hfault⟩ := route_eq_error haligned.tree hpath hthere hroute
      rw [hfault]
      exact .tooDeep hcurrent hanswered honly hthere hfar

/-- A failing step of an active machine stops it for one of the known causes. -/
theorem Aligned.stops_advance (haligned : machine.Aligned) (hchecked : machine.Checked)
    (hactive : machine.isActive = true) (hfailed : machine.advance.result = .error cause) :
    machine.Stops cause ∧ machine.advance.machine.StoppedFor cause := by
  have hstatus := isActive_iff.1 hactive
  have hdiscloses := discloses_advance (fault_eq_none_of_active hstatus)
  suffices h : machine.Stops cause ∧ machine.advance.machine.fault ≠ none by
    refine ⟨h.1, ?_⟩
    obtain ⟨other, hother, hstopped⟩ := hdiscloses (Option.isSome_iff_ne_none.2 h.2)
    rw [hfailed] at hother
    cases hother
    exact hstopped
  -- An active machine is not refused, and every other outcome that fails stops it.
  have htakes := haligned.takes_advance
  generalize machine.advance = step at htakes hfailed ⊢
  cases htakes with
  | refused hpassive => exact absurd hactive (not_isActive hpassive)
  | stopped _ hhalt =>
    cases hfailed
    exact ⟨haligned.stops_of_halt hchecked hstatus hhalt, stop_fault_ne_none _ _⟩
  | barred hchosen hroot =>
    cases hfailed
    exact ⟨.root ⟨_, _, _, hchosen, hroot⟩, stop_fault_ne_none _ _⟩
  | entered hchosen =>
    obtain ⟨action, failure, haction, hfails, rfl, hstopped⟩ := act_eq_error_cases hfailed
    exact ⟨.action hchosen haction hfails, hstopped⟩

/-- The one callback that is called for an entered target is its action. -/
theorem mem_act_calls {calls : List Call} {way : Transition} {move : Move} {call : Call}
    (hcall : call ∈ (machine.act calls way move).calls) :
    call ∈ calls ∨ call.stack = machine.stack := by
  have hlast : ∀ last : Call, last.stack = machine.stack → call ∈ calls ++ [last] →
      call ∈ calls ∨ call.stack = machine.stack := by
    intro last hstack hmem
    rcases List.mem_append.1 hmem with hearlier | hlast
    · exact Or.inl hearlier
    · rw [List.mem_singleton.1 hlast]
      exact Or.inr hstack
  -- The call is recorded alike, whether the action succeeds or not.
  unfold act at hcall
  split at hcall
  · exact Or.inl hcall
  · simp only at hcall
    split at hcall
    · exact hlast _ rfl hcall
    · exact hlast _ rfl hcall

/-- An entered target is below the root, so its scope is not the only one. -/
theorem Aligned.two_le_depth_entering {state target : State} {way : Transition}
    (haligned : machine.Aligned) (hchosen : machine.Chosen state way target)
    (hinner : way.target ≠ rootName) : 2 ≤ (machine.entering state.name way).stack.depth := by
  obtain ⟨targetPath, htarget⟩ := haligned.tree.rooted _ _ hchosen.there
  have hlength : ¬ targetPath.length ≤ 1 := by
    rw [haligned.tree.length_le_one_iff htarget]
    exact hinner
  show 2 ≤ (machine.opened state.name way.target).depth
  rw [← ScopeStack.length_states,
    haligned.states_opened hchosen.current hchosen.there htarget hchosen.near]
  omega

/-- An action that a step runs finds two scopes at least. -/
theorem Aligned.two_le_depth (haligned : machine.Aligned) {call : Call}
    (hcall : call ∈ machine.advance.calls) (hrole : call.role = .entryAction) :
    2 ≤ call.stack.depth := by
  have hguard : ∀ calls : List Call, (∀ call ∈ calls, call.role = .guard) → call ∉ calls := by
    intro calls hguards hmem
    have hother := hguards call hmem
    rw [hrole] at hother
    cases hother
  -- Guards are asked first, so a call of another role is the last one of a step that enters.
  have htakes := haligned.takes_advance
  generalize machine.advance = step at htakes hcall
  cases htakes with
  | refused => cases hcall
  | stopped _ _ hguards => exact absurd hcall (hguard _ hguards)
  | barred _ _ hguards => exact absurd hcall (hguard _ hguards)
  | @entered state target way calls hchosen hinner _ hguards =>
    have hdepth := haligned.two_le_depth_entering hchosen hinner
    rcases mem_act_calls hcall with hmem | hstack
    · exact absurd hmem (hguard _ hguards)
    · rw [hstack]
      exact hdepth

/-! ### Calls -/

/-- The machine after some more steps, successful or not. -/
def afterSteps (machine : Machine) : (steps : Nat) → Machine
  | 0 => machine
  | steps + 1 => machine.advance.machine.afterSteps steps

/-- More steps lead from a reached machine to a reached one. -/
theorem Reached.afterSteps (h : Reached chart config machine) (steps : Nat) :
    Reached chart config (machine.afterSteps steps) := by
  induction steps generalizing machine with
  | zero => exact h
  | succ steps ih => exact ih h.advance

/-- A completed machine has a result, unless no action wrote one. -/
theorem Aligned.result_of_completed (haligned : machine.Aligned)
    (hstatus : machine.status = .completed) (hfailed : machine.result = .error cause) :
    cause = .keyNotFound resultKey := by
  obtain ⟨head, hpath⟩ := haligned.path
  have hroot : machine.stack.outermost?.map (·.state) = some rootName := by
    rw [ScopeStack.map_state_outermost?, haligned.tree.head?_eq_root hpath]
  obtain ⟨frame, hframe, -⟩ := Option.map_eq_some_iff.1 hroot
  simp only [result, hstatus, hframe, View.raw] at hfailed
  split at hfailed
  · cases hfailed
  · cases hfailed
    rfl

/-- After some more steps the machine meets one of the known causes, with which it answers and
for which it is stopped. -/
def StopsLater {α : Type} (machine after : Machine) (result : Except Fault α) : Prop :=
  ∃ steps cause, (machine.afterSteps steps).Stops cause ∧ result = .error cause
    ∧ after.StoppedFor cause

/-- A run of a machine that is not stopped comes to its end, with or without a result, or the
machine is stopped on the way. -/
theorem Reached.continue?_cases (htree : chart.Tree) {patience steps : Nat} {taken : RunTaken}
    (h : Reached chart config machine) (hfault : machine.fault = none)
    (hrun : continue? patience steps machine = some taken) :
    (taken.machine.fault = none
        ∧ ∀ fault, taken.result = .error fault → fault = .keyNotFound resultKey)
      ∨ machine.StopsLater taken.machine taken.result := by
  refine continue?_rule (P := fun machine taken => Reached chart config machine →
    machine.fault = none →
      (taken.machine.fault = none
          ∧ ∀ fault, taken.result = .error fault → fault = .keyNotFound resultKey)
        ∨ machine.StopsLater taken.machine taken.result) ?_ ?_ ?_ ?_ hrun h hfault
  · intro machine hpassive h hfault
    refine Or.inl ⟨hfault, ?_⟩
    intro fault hfailed
    exact (h.aligned htree).2.result_of_completed (status_eq_completed hfault hpassive) hfailed
  · intro machine limit hactive hlimit h hfault
    exact Or.inr ⟨0, _, .limit hactive hlimit, rfl,
      stoppedFor_stop hfault (by simp [Fault.kind])⟩
  · intro machine fault hactive hfailed h hfault
    have hstops := (h.aligned htree).2.stops_advance (h.checked htree) hactive hfailed
    exact Or.inr ⟨0, fault, hstops.1, rfl, hstops.2⟩
  · -- The steps of the rest come after this one.
    intro machine move rest _ hmove ih h hfault
    rcases ih h.advance ((discloses_advance hfault).fault_eq_none hmove) with
      hended | ⟨steps, cause, hstops, hstopped⟩
    · exact Or.inl hended
    · exact Or.inr ⟨steps + 1, cause, hstops, hstopped⟩

/-- What a call can answer besides a stop. -/
inductive Complaint (machine : Machine) : Operation → Fault → Prop where
  /-- A completed machine takes no step. -/
  | completed (hstatus : machine.status = .completed) :
      Complaint machine .advance (.wrongFlow (.forbidden .advance .completed))
  /-- An active machine has no result yet. -/
  | unfinished (hactive : machine.isActive = true) :
      Complaint machine .result (.wrongFlow (.forbidden .result machine.status))
  /-- No action wrote a result. -/
  | missing {operation : Operation} : Complaint machine operation (.keyNotFound resultKey)

/-- A machine that is not stopped has no result because it has not come to its end, or because
no action wrote one. -/
theorem Aligned.complaint_of_result (haligned : machine.Aligned) (hfault : machine.fault = none)
    (hfailed : machine.result = .error cause) : machine.Complaint .result cause := by
  by_cases hactive : machine.isActive = true
  · have hforbidden : machine.result = .error (.wrongFlow (.forbidden .result machine.status)) := by
      rcases isActive_iff.1 hactive with hstatus | hstatus
      · simp only [result, hstatus]
      · simp only [result, hstatus]
    rw [hforbidden] at hfailed
    cases hfailed
    exact .unfinished hactive
  · have hcompleted := status_eq_completed hfault (by simpa using hactive)
    rw [haligned.result_of_completed hcompleted hfailed]
    exact .missing

/-- A call to a machine that is not stopped leaves it so and perhaps complains, or the machine is
stopped on the way. -/
theorem Reached.serve_cases (htree : chart.Tree) {operation : Operation} {served : Served}
    (h : Reached chart config machine) (hfault : machine.fault = none)
    (hserve : machine.serve operation = some served) :
    (served.machine.fault = none
        ∧ ∀ fault, served.result = .error fault → machine.Complaint operation fault)
      ∨ machine.StopsLater served.machine served.result := by
  have haligned := (h.aligned htree).2
  cases operation with
  | advance =>
    -- A machine that is neither active nor stopped is completed, and refuses the step.
    cases hserve
    by_cases hactive : machine.isActive = true
    · cases hresult : machine.advance.result with
      | ok move =>
        refine Or.inl ⟨(discloses_advance hfault).fault_eq_none hresult, ?_⟩
        intro fault hfailed
        cases hfailed
      | error fault =>
        have hstops := haligned.stops_advance (h.checked htree) hactive hresult
        exact Or.inr ⟨0, fault, hstops.1, rfl, hstops.2⟩
    · have hcompleted := status_eq_completed hfault (by simpa using hactive)
      simp only [Machine.advance, hcompleted]
      refine Or.inl ⟨hfault, ?_⟩
      intro fault hfailed
      cases hfailed
      exact .completed hcompleted
  | run patience =>
    obtain ⟨taken, htaken, rfl⟩ := Option.map_eq_some_iff.1 hserve
    rcases h.continue?_cases htree hfault htaken with
      ⟨hafter, hended⟩ | ⟨steps, cause, hstops, hresult, hstopped⟩
    · refine Or.inl ⟨hafter, ?_⟩
      intro fault hfailed
      rw [hended fault (map_eq_error.1 hfailed)]
      exact .missing
    · exact Or.inr ⟨steps, cause, hstops, map_eq_error.2 hresult, hstopped⟩
  | result =>
    cases hserve
    refine Or.inl ⟨hfault, ?_⟩
    intro fault hfailed
    exact haligned.complaint_of_result hfault (map_eq_error.1 hfailed)
  | reset =>
    cases hserve
    refine Or.inl ⟨rfl, ?_⟩
    intro fault hfailed
    cases hfailed

/-- If the fault that a machine keeps has one of the known causes, then this is still so after a
call: the call leaves the fault alone, or it is the one that stops the machine. -/
theorem Reached.exists_stops_of_serve (htree : chart.Tree) {operation : Operation}
    {served : Served} (h : Reached chart config machine)
    (hserve : machine.serve operation = some served) (hkeep : operation ≠ .reset)
    (hbefore : ∀ stored, machine.fault = some stored →
      ∃ before, Reached chart config before ∧ before.Stops stored.rootCause)
    {stored : Fault} (hstored : served.machine.fault = some stored) :
    ∃ before, Reached chart config before ∧ before.Stops stored.rootCause := by
  cases hfault : machine.fault with
  | some fault =>
    have hstatus : machine.status = .fatal := status_eq_fatal_iff.2 (by simp [hfault])
    rw [serve_of_fatal hstatus hkeep] at hserve
    cases hserve
    exact hbefore stored hstored
  | none =>
    rcases h.serve_cases htree hfault hserve with
      ⟨hafter, -⟩ | ⟨steps, cause, hstops, -, hstopped⟩
    · rw [hafter] at hstored
      cases hstored
    · rw [hstopped.rootCause_eq hstored]
      exact ⟨_, h.afterSteps steps, hstops⟩

/-- The fault that a reached machine keeps has one of the known causes, which another reached
machine was stopped for. -/
theorem Reached.exists_stops (htree : chart.Tree) {stored : Fault}
    (h : Reached chart config machine) (hstored : machine.fault = some stored) :
    ∃ before, Reached chart config before ∧ before.Stops stored.rootCause := by
  induction h generalizing stored with
  | new => cases hstored
  | @advance machine h ih =>
    have hserve : machine.serve .advance = some ⟨machine.advance.machine, machine.advance.calls,
        machine.advance.result.map .moved⟩ := rfl
    exact h.exists_stops_of_serve htree hserve (by simp) (fun _ => ih) hstored
  | @run machine patience taken h hrun ih =>
    have hserve : machine.serve (.run patience)
        = some ⟨taken.machine, taken.calls, taken.result.map .value⟩ := by
      simp [Machine.serve, hrun]
    exact h.exists_stops_of_serve htree hserve (by simp) (fun _ => ih) hstored
  | reset => cases hstored

/-- An action that a call runs finds two scopes at least. -/
theorem Aligned.two_le_depth_of_serve (haligned : machine.Aligned) {operation : Operation}
    {served : Served} (hserve : machine.serve operation = some served) {call : Call}
    (hcall : call ∈ served.calls) (hrole : call.role = .entryAction) :
    2 ≤ call.stack.depth := by
  cases operation with
  | advance =>
    cases hserve
    exact haligned.two_le_depth hcall hrole
  | run patience =>
    obtain ⟨taken, htaken, rfl⟩ := Option.map_eq_some_iff.1 hserve
    refine continue?_rule (P := fun machine taken => machine.Aligned → call ∈ taken.calls →
      2 ≤ call.stack.depth) ?_ ?_ ?_ ?_ htaken haligned hcall
    · intro machine _ _ hmem
      cases hmem
    · intro machine limit _ _ _ hmem
      cases hmem
    · intro machine fault _ _ haligned hmem
      exact haligned.two_le_depth hmem hrole
    · intro machine move rest _ _ ih haligned hmem
      rcases List.mem_append.1 hmem with hfirst | hlater
      · exact haligned.two_le_depth hfirst hrole
      · exact ih haligned.advance hlater
  | result =>
    cases hserve
    cases hcall
  | reset =>
    cases hserve
    cases hcall

/-- What is known of a fault that a call answers with. -/
structure Explained (chart : Chart) (config : Config) (operation : Operation) (fault : Fault) :
    Prop where
  /-- It is no defensive fault, and it does not wrap one. -/
  possible : fault.rootCause.isDefensive = false
  /-- A scope that could not be opened is that of the root, to which the one open transition
  of a reached machine led. -/
  root : ∀ target, fault.rootCause = .runtime (.pushFailed target) →
    target = rootName ∧ ∃ before, Reached chart config before ∧ before.HeadsForRoot
  /-- A run never comes at the wrong time. -/
  timely : ∀ patience, operation = .run patience → fault.rootCause.kind ≠ .wrongFlow

/-- The causes that machines are stopped for explain a fault. -/
theorem Reached.explained_of_stops (h : Reached chart config machine) {operation : Operation}
    {fault : Fault} (hstops : machine.Stops fault.rootCause) :
    Explained chart config operation fault := by
  refine ⟨hstops.isDefensive_eq_false, ?_, fun _ _ => hstops.kind_ne_wrongFlow⟩
  intro target hpush
  rw [hpush] at hstops
  exact ⟨hstops.headsForRoot.1, machine, h, hstops.headsForRoot.2⟩

/-- Every fault that a call answers with is explained. -/
theorem Reached.explained (htree : chart.Tree) {operation : Operation} {served : Served}
    {fault : Fault} (h : Reached chart config machine)
    (hserve : machine.serve operation = some served) (hfailed : served.result = .error fault) :
    Explained chart config operation fault := by
  cases hfault : machine.fault with
  | some stored =>
    -- The answer is the kept fault, or the machine gets ready for the next run.
    by_cases hkeep : operation = .reset
    · subst hkeep
      cases hserve
      cases hfailed
    · have hstatus : machine.status = .fatal := status_eq_fatal_iff.2 (by simp [hfault])
      rw [serve_of_fatal hstatus hkeep] at hserve
      cases hserve
      cases hfailed
      simp only [storedFault, hfault, Option.getD_some]
      obtain ⟨before, hbefore, hstops⟩ := h.exists_stops htree hfault
      exact hbefore.explained_of_stops hstops
  | none =>
    rcases h.serve_cases htree hfault hserve with
      ⟨-, hcomplaint⟩ | ⟨steps, cause, hstops, hresult, -⟩
    · cases hcomplaint fault hfailed with
      | completed => exact ⟨rfl, by simp [Fault.rootCause], by simp⟩
      | unfinished => exact ⟨rfl, by simp [Fault.rootCause], by simp⟩
      | missing => exact ⟨rfl, by simp [Fault.rootCause], by simp [Fault.rootCause, Fault.kind]⟩
    · rw [hresult] at hfailed
      cases hfailed
      refine (h.afterSteps steps).explained_of_stops ?_
      rw [Fault.rootCause_eq_self hstops.bare]
      exact hstops

/-- Take a machine that steps, runs and resets lead to on a built chart, and any call to it. A
fault that the call answers with is `Explained`. Whatever an action does when the call runs it,
all its writes succeed. If the call stops the machine, then after some steps and for one of the
causes that `Stops` lists. -/
theorem report_law (hbuilt : chart.Built) (hreached : Reached chart config machine)
    {operation : Operation} {served : Served}
    (hserve : machine.serve operation = some served) :
    (∀ fault, served.result = .error fault → Explained chart config operation fault)
      ∧ (∀ call ∈ served.calls, call.role = .entryAction →
        ∀ script : Script, script.Succeeding call.stack)
      ∧ (machine.fault = none → ∀ stored, served.machine.fault = some stored →
        ∃ steps, (machine.afterSteps steps).Stops stored.rootCause) := by
  have htree := hbuilt.tree
  have haligned := (hreached.aligned htree).2
  refine ⟨fun fault hfailed => hreached.explained htree hserve hfailed, ?_, ?_⟩
  · intro call hcall hrole script
    exact script.succeeding (haligned.two_le_depth_of_serve hserve hcall hrole)
  · intro hfault stored hstored
    rcases hreached.serve_cases htree hfault hserve with
      ⟨hafter, -⟩ | ⟨steps, cause, hstops, -, hstopped⟩
    · rw [hafter] at hstored
      cases hstored
    · rw [hstopped.rootCause_eq hstored]
      exact ⟨steps, hstops⟩

/-- A start state with an action that writes outside its own scope and then fails. -/
def depot : Chart :=
  [Chart.Addition.start (State.new "a" [.always "go" "b" (some (.ofScript
      (.put (.parent "seen") (.bool true) (.put .result (.bool true)
        (.fail (.plain "jammed"))))))]) none,
    .plain (State.new "b" []) none].foldl Chart.perform Chart.new

/-- The action of the second step writes what it likes, and the machine is stopped because the
action fails. -/
theorem depot_report :
    ∃ served, (Machine.new depot {}).serve (.run 5) = some served
      ∧ served.result = .error (.callbackFailed .entryAction (.plain "jammed"))
      ∧ (∃ call ∈ served.calls, call.role = .entryAction
        ∧ ∀ script : Script, script.Succeeding call.stack)
      ∧ ∃ steps, ((Machine.new depot {}).afterSteps steps).Stops
        (.callbackFailed .entryAction (.plain "jammed")) := by
  obtain ⟨served, hserve, hresult, ⟨call, hcall, hrole⟩, stored, hstored, hroot⟩ :
      ∃ served, (Machine.new depot {}).serve (.run 5) = some served
        ∧ served.result = .error (.callbackFailed .entryAction (.plain "jammed"))
        ∧ (∃ call ∈ served.calls, call.role = .entryAction)
        ∧ ∃ stored, served.machine.fault = some stored
          ∧ stored.rootCause = .callbackFailed .entryAction (.plain "jammed") :=
    ⟨_, rfl, rfl, ⟨_, List.mem_of_mem_getLast? rfl, rfl⟩, _, rfl, rfl⟩
  obtain ⟨-, hwrites, hstops⟩ := report_law (Or.inl ⟨_, rfl⟩) .new hserve
  refine ⟨served, hserve, hresult, ⟨call, hcall, hrole, hwrites call hcall hrole⟩, ?_⟩
  rw [← hroot]
  exact hstops rfl stored hstored

end Machine

end Statechart
