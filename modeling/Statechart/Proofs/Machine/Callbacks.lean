import Statechart.Proofs.Chart.Built
import Statechart.Proofs.Machine.Frame

/-!
# `Statechart.Proofs.Machine.Callbacks`: which callbacks a step calls

A step of an active machine asks the guards of the active state, one by one, and calls one
action at most. The calls are given as lists, so they say how often and in which order each
callback is called, and on which stack.

* `askGuards_eq_error`, `askGuards_eq_ok`: the guards are asked up to the first one that fails,
  or all of them are.
* `Consults`: the calls of a step together with its answer. There is one way for each outcome,
  and a failing guard comes before everything else.
* `callbacks_law`: every step of a reached machine calls nothing, or it consults the active
  state.
-/

set_option autoImplicit false

namespace Statechart

namespace Machine

variable {chart : Chart} {config : Config} {machine : Machine} {state target : State}
  {way : Transition} {transitions before : List Transition} {failure : Failure}

/-- The call of the guard of a transition: it sees the stack as it is before the step. -/
def question (machine : Machine) (way : Transition) : Call :=
  ⟨.guard, way.name, machine.stack, machine.history.size,
    (way.guard.check machine.stack.view).notes⟩

/-- The call of the action of a transition: it sees the stack with the scope of the target, and
the history with the move. -/
def arrival (machine : Machine) (source : String) (way : Transition) (action : Action) : Call :=
  ⟨.entryAction, way.name, machine.opened source way.target, machine.history.size + 1,
    (action.run (machine.opened source way.target)).2.notes⟩

/-- The guard of a transition fails, and those of the transitions before it do not. -/
structure FailsFirst (machine : Machine) (transitions before : List Transition)
    (way : Transition) (failure : Failure) : Prop where
  /-- The transition comes after the others. -/
  split : ∃ after, transitions = before ++ way :: after
  /-- The guards before it do not fail. -/
  answered : machine.Answered before
  /-- Its own guard does. -/
  fails : (way.guard.check machine.stack.view).result = .error failure

/-! ### The guards -/

/-- The guards are asked up to the first one that fails, and its failure is the answer. -/
theorem askGuards_eq_error (h : machine.FailsFirst transitions before way failure) :
    machine.askGuards transitions = ((before ++ [way]).map machine.question, .error failure) := by
  obtain ⟨⟨after, rfl⟩, hanswered, hfails⟩ := h
  induction before with
  | nil =>
    rw [List.nil_append, askGuards]
    simp only [hfails]
    rfl
  | cons first before ih =>
    obtain ⟨⟨isOpen, hopen⟩, hrest⟩ := List.forall_mem_cons.1 hanswered
    rw [List.cons_append, askGuards]
    simp only [hopen, ih hrest]
    rfl

/-- If none fails, all guards are asked. -/
theorem askGuards_eq_ok (hanswered : machine.Answered transitions) :
    machine.askGuards transitions
      = (transitions.map machine.question, .ok (transitions.filter machine.opens)) := by
  have hopened := (askGuards_eq_ok_iff machine transitions _).2 ⟨hanswered, rfl⟩
  -- What the guards answer is known already, so only the calls are left to the induction.
  have hcalls : (machine.askGuards transitions).1 = transitions.map machine.question := by
    clear hopened
    induction transitions with
    | nil => rfl
    | cons first rest ih =>
      obtain ⟨⟨isOpen, hopen⟩, hrest⟩ := List.forall_mem_cons.1 hanswered
      rw [askGuards]
      simp only [hopen, ih hrest]
      rfl
  exact Prod.ext hcalls hopened

/-- Either no guard fails, or one of them is the first to fail. -/
theorem answered_or_failsFirst (machine : Machine) (transitions : List Transition) :
    machine.Answered transitions
      ∨ ∃ before way failure, machine.FailsFirst transitions before way failure := by
  induction transitions with
  | nil => exact Or.inl (by simp [Answered])
  | cons first rest ih =>
    cases hfirst : (first.guard.check machine.stack.view).result with
    | error failure =>
      exact Or.inr ⟨[], first, failure, ⟨rest, rfl⟩, by simp [Answered], hfirst⟩
    | ok isOpen =>
      rcases ih with hanswered | ⟨before, way, failure, ⟨after, rfl⟩, hanswered, hfails⟩
      · exact Or.inl (List.forall_mem_cons.2 ⟨⟨isOpen, hfirst⟩, hanswered⟩)
      · exact Or.inr ⟨first :: before, way, failure, ⟨after, rfl⟩,
          List.forall_mem_cons.2 ⟨⟨isOpen, hfirst⟩, hanswered⟩, hfails⟩

/-! ### The step -/

/-- The callbacks that a step from a state calls, and what it answers. -/
inductive Consults (machine : Machine) (state : State) (step : StepTaken) : Prop where
  /-- A guard fails. It is the last callback, and its failure is the answer, whichever of the
  transitions before it are open. -/
  | failed {before : List Transition} {way : Transition} {failure : Failure}
      (hfirst : machine.FailsFirst state.transitions before way failure)
      (hcalls : step.calls = (before ++ [way]).map machine.question)
      (hresult : step.result = .error (.callbackFailed .guard failure))
  /-- No guard fails, but there is not just one open transition. -/
  | undecided {fault : Fault} (hanswered : machine.Answered state.transitions)
      (hopen : (state.transitions.filter machine.opens).length ≠ 1)
      (hcalls : step.calls = state.transitions.map machine.question)
      (hresult : step.result = .error fault) (hkind : fault.kind = .runtime)
  /-- The one open transition leads to the root or too far. -/
  | astray {way : Transition} {fault : Fault}
      (hanswered : machine.Answered state.transitions)
      (honly : state.transitions.filter machine.opens = [way])
      (hastray : ∀ target, machine.Chosen state way target → way.target = rootName)
      (hcalls : step.calls = state.transitions.map machine.question)
      (hresult : step.result = .error fault) (hkind : fault.kind = .runtime)
  /-- The target of the one open transition is entered: its empty scope is opened and the move
  recorded, and then the action is called, if there is one. -/
  | entered {way : Transition} {target : State} (hchosen : machine.Chosen state way target)
      (hinner : way.target ≠ rootName)
      (hscope : (machine.opened state.name way.target).head? = some ⟨way.target, Dict.empty⟩)
      (hhistory : step.machine.history.moves
        = machine.history.moves ++ [⟨state.name, way.target, way.name⟩])
      (hcalls : step.calls = state.transitions.map machine.question
        ++ (way.action.map (machine.arrival state.name way)).toList)
      (hresult : (step.result = .ok ⟨state.name, way.target, way.name⟩
          ∧ ∀ action, way.action = some action →
            (action.run (machine.opened state.name way.target)).2.result = .ok ())
        ∨ ∃ action failure, way.action = some action
          ∧ (action.run (machine.opened state.name way.target)).2.result = .error failure
          ∧ step.result = .error (.callbackFailed .entryAction failure))

/-- A failing guard stops the step, and no callback comes after it. -/
theorem consults_of_failsFirst (h : machine.FailsFirst state.transitions before way failure) :
    machine.Consults state (machine.leave state.name state.transitions) := by
  have hleave : machine.leave state.name state.transitions
      = machine.fail ((before ++ [way]).map machine.question)
        (.callbackFailed .guard failure) := by
    unfold leave
    rw [askGuards_eq_error h]
  rw [hleave]
  exact .failed h rfl rfl

/-- Entering a target calls its action behind the guards. -/
theorem consults_act (hchosen : machine.Chosen state way target)
    (hinner : way.target ≠ rootName) :
    machine.Consults state ((machine.entering state.name way).act
      (machine.askGuards state.transitions).1 way ⟨state.name, way.target, way.name⟩) := by
  rw [askGuards_eq_ok hchosen.answered]
  refine .entered hchosen hinner rfl ?_ ?_ ?_
  · rw [act_history]
    rfl
  · -- The calls: those of the guards, and behind them that of the action if there is one.
    rw [act_calls]
    cases way.action with
    | none => exact (List.append_nil _).symm
    | some action =>
      show _ ++ [_] = _ ++ [_]
      simp [arrival, entering, History.size, History.record]
  · -- The answer: the move, unless there is an action and it fails.
    cases haction : way.action with
    | none =>
      refine Or.inl ⟨by simp [act, haction], ?_⟩
      intro other hother
      cases hother
    | some action =>
      cases houtcome : (action.run (machine.opened state.name way.target)).2.result with
      | ok =>
        refine Or.inl ⟨?_, ?_⟩
        · simp [act, haction, entering, houtcome]
        · intro other hother
          cases hother
          exact houtcome
      | error failure =>
        refine Or.inr ⟨action, failure, rfl, houtcome, ?_⟩
        simp [act, haction, entering, houtcome, fail]

namespace Aligned

/-- If no guard fails, all of them are called, and the action only if the target is entered. -/
theorem consults_of_answered (haligned : machine.Aligned)
    (hactive : machine.status = .idle ∨ machine.status = .running)
    (hcurrent : machine.current? = some state)
    (hanswered : machine.Answered state.transitions) :
    machine.Consults state (machine.leave state.name state.transitions) := by
  have hsource := (haligned.lineage_current hcurrent).2
  have hcalls : (machine.askGuards state.transitions).1 = state.transitions.map machine.question :=
    congrArg Prod.fst (askGuards_eq_ok hanswered)
  rcases leave_cases machine state.name state.transitions with
    ⟨fault, hobstacle, hfail⟩ | ⟨way, target, kept, -, honly, hroute, henter⟩
  · rw [hfail]
    cases hobstacle with
    -- A guard that fails is no obstacle here, as all of them answer.
    | guard hway hfails =>
      obtain ⟨isOpen, hopen⟩ := hanswered _ hway
      rw [hfails] at hopen
      cases hopen
    | closed _ hnone => exact .undecided hanswered (by simp [hnone]) hcalls rfl rfl
    | several _ hseveral => exact .undecided hanswered (by omega) hcalls rfl rfl
    | astray _ honly hroute =>
      refine .astray hanswered honly (fun target hchosen => ?_) hcalls rfl (kind_of_route hroute)
      exact absurd hchosen.near (route_eq_error haligned.tree hsource hchosen.there hroute).1
  · obtain ⟨hchosen, ⟨hroot, hfail⟩ | ⟨hinner, hact⟩⟩ :=
      haligned.enter_cases hactive hcurrent hanswered honly hroute
        (machine.askGuards state.transitions).1
    · rw [henter, hfail]
      exact .astray hanswered honly (fun _ _ => hroot) hcalls rfl rfl
    · rw [henter, hact]
      exact consults_act hchosen hinner

/-- An active machine whose chart passes the check of the first step leaves its active state. -/
theorem advance_eq_leave (haligned : machine.Aligned) (hcurrent : machine.current? = some state)
    (hgoes : machine.status = .running
      ∨ machine.status = .idle ∧ machine.chart.validate = .ok ()) :
    machine.advance = machine.leave state.name state.transitions := by
  unfold Machine.advance
  rcases hgoes with hrunning | ⟨hidle, hvalid⟩
  · simp only [hrunning]
    exact haligned.leaveCurrent_eq hcurrent
  · simp only [hidle, hvalid]
    exact haligned.leaveCurrent_eq hcurrent

end Aligned

/-- A step that is refused, or that finds the chart inconsistent, calls nothing. -/
theorem advance_calls_eq_nil (hquiet : machine.status = .completed ∨ machine.status = .fatal
      ∨ machine.status = .idle ∧ machine.chart.validate ≠ .ok ()) :
    machine.advance.calls = [] := by
  unfold advance
  rcases hquiet with hcompleted | hfatal | ⟨hidle, hinvalid⟩
  · simp only [hcompleted]
  · simp only [hfatal]
  · simp only [hidle]
    cases hvalid : machine.chart.validate with
    | error fault => rfl
    | ok answer => exact absurd hvalid hinvalid

/-- Take a machine that steps, runs and resets lead to on a built chart, whatever its guards and
actions do. A step that is refused, or that finds the chart inconsistent, calls nothing. Any
other step consults the active state: it calls guards of that state, each at most once and in
order, and then perhaps the action of the one open transition. The transitions of the state have
different names, so the calls show whose they are. -/
theorem callbacks_law (hbuilt : chart.Built) (hreached : Reached chart config machine) :
    (machine.status = .completed ∨ machine.status = .fatal
        ∨ machine.status = .idle ∧ chart.validate ≠ .ok () → machine.advance.calls = [])
      ∧ (machine.status = .running ∨ machine.status = .idle ∧ chart.validate = .ok () →
        ∃ state, machine.current? = some state ∧ (state.transitions.map (·.name)).Nodup
          ∧ machine.Consults state machine.advance) := by
  obtain ⟨rfl, haligned⟩ := hreached.aligned hbuilt.tree
  refine ⟨advance_calls_eq_nil, fun hgoes => ?_⟩
  obtain ⟨state, hcurrent, hget, -⟩ := haligned.exists_current
  refine ⟨state, hcurrent, (haligned.tree.sound _ _ hget).distinct, ?_⟩
  rw [haligned.advance_eq_leave hcurrent hgoes]
  -- A failing guard settles the step before the choice is made, so it is split off first.
  rcases answered_or_failsFirst machine state.transitions with
    hanswered | ⟨before, way, failure, hfirst⟩
  · have hactive : machine.status = .idle ∨ machine.status = .running := by
      rcases hgoes with hrunning | ⟨hidle, -⟩
      · exact Or.inr hrunning
      · exact Or.inl hidle
    exact haligned.consults_of_answered hactive hcurrent hanswered
  · exact consults_of_failsFirst hfirst

/-- A state with two ways out that are open, and between them one whose guard fails. -/
def turnstile : Chart :=
  [Chart.Addition.start (State.new "queue" [.always "push" "gate" none,
      ⟨"pay", "gate", .ofCondition "pay" (.fail (.plain "no coins")), none⟩,
      .always "jump" "gate" none]) none,
    .plain (State.new "gate" []) none].foldl Chart.perform Chart.new

/-- The guard that fails is the last one asked, and the step answers with its failure. -/
theorem turnstile_callbacks :
    ∃ machine state, Reached turnstile {} machine ∧ machine.current? = some state
      ∧ machine.Consults state machine.advance
      ∧ machine.advance.calls.map (·.transition) = ["push", "pay"]
      ∧ machine.advance.result = .error (.callbackFailed .guard (.plain "no coins")) := by
  have hreached : Reached turnstile {} (Machine.new turnstile {}).advance.machine := .advance .new
  obtain ⟨state, hcurrent, -, hconsults⟩ :=
    (callbacks_law (Or.inl ⟨_, rfl⟩) hreached).2 (Or.inl (by decide))
  exact ⟨_, state, hreached, hcurrent, hconsults, rfl, rfl⟩

end Machine

end Statechart
