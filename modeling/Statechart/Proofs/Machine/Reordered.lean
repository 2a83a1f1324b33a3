import Statechart.Proofs.Chart.Built
import Statechart.Proofs.Chart.Reordered
import Statechart.Proofs.Machine.Fatal

/-!
# `Statechart.Proofs.Machine.Reordered`: runs of reordered charts

Take two machines on charts that differ by the order of transitions. They are `Alike` if they
have the same settings, scopes and history, and if both are stopped or neither is, with faults
of the same kind. A call that is made on both keeps them alike, and its results `Agree`: they
are the same value, or faults of the same kind (`Alike.serve`).

The guards are asked in the order of the transitions, but the choice is made when all have
answered. So a guard that fails is met in every order, though perhaps another one, and it wins
over transitions that are closed or too many (`Alike.leave`).
-/

set_option autoImplicit false

namespace Statechart

/-! ### Agreement -/

/-- Two faults are of the same kind, and so are the faults at their roots. -/
structure Fault.Akin (fault fault' : Fault) : Prop where
  /-- The faults are of the same kind. -/
  kind : fault.kind = fault'.kind
  /-- So are the faults at their roots. -/
  root : fault.rootCause.kind = fault'.rootCause.kind

/-- Which of the two faults comes first is no matter. -/
theorem Fault.Akin.symm {fault fault' : Fault} (h : fault.Akin fault') : fault'.Akin fault :=
  ⟨h.kind.symm, h.root.symm⟩

/-- Faults that are no stops are their own roots. -/
theorem Fault.akin_of_kind {fault fault' : Fault} (hkind : fault.kind = fault'.kind)
    (hbare : fault.kind ≠ .fatal) : fault.Akin fault' := by
  have hbare' : fault'.kind ≠ .fatal := by
    rw [← hkind]
    exact hbare
  refine ⟨hkind, ?_⟩
  rw [Fault.rootCause_eq_self hbare, Fault.rootCause_eq_self hbare', hkind]

/-- Two results that are the same value, or faults of the same kind. -/
inductive Agree {α : Type} : Except Fault α → Except Fault α → Prop where
  /-- Both are this value. -/
  | ok {value : α} : Agree (.ok value) (.ok value)
  /-- Both are faults. -/
  | error {fault fault' : Fault} (h : fault.Akin fault') : Agree (.error fault) (.error fault')

namespace Agree

variable {α β : Type} {result result' : Except Fault α}

/-- A result agrees with itself. -/
theorem refl (result : Except Fault α) : Agree result result := by
  cases result with
  | ok => exact .ok
  | error => exact .error ⟨rfl, rfl⟩

/-- Which of the two results comes first is no matter. -/
theorem symm (h : Agree result result') : Agree result' result := by
  cases h with
  | ok => exact .ok
  | error hfault => exact .error hfault.symm

/-- Results that agree do so after anything is done with their values. -/
theorem map (h : Agree result result') (f : α → β) : Agree (result.map f) (result'.map f) := by
  cases h with
  | ok => exact .ok
  | error hfault => exact .error hfault

end Agree

namespace Machine

variable {machine machine' : Machine} {source : String} {way : Transition}
  {ways ways' : List Transition} {path : List String} {target target' : State} {kept : Nat}

/-- Two machines that differ by the order of the transitions of their states at most, and by
the wording of the faults that they keep. -/
structure Alike (machine machine' : Machine) : Prop where
  /-- The charts differ by the order of transitions. -/
  chart : machine.chart.Reordered machine'.chart
  /-- The settings are the same. -/
  config : machine.config = machine'.config
  /-- The scopes are the same. -/
  stack : machine.stack = machine'.stack
  /-- The history is the same. -/
  history : machine.history = machine'.history
  /-- Both are stopped or neither is. -/
  fault : Option.Rel Fault.Akin machine.fault machine'.fault

/-- What came of the same call to two machines: they are alike afterwards, and the results
agree. -/
structure Matching {α : Type} (after after' : Machine) (result result' : Except Fault α) :
    Prop where
  /-- The machines are alike. -/
  machines : after.Alike after'
  /-- The results agree. -/
  results : Agree result result'

namespace Alike

/-- Which of the two machines comes first is no matter. -/
theorem symm (h : machine.Alike machine') : machine'.Alike machine :=
  ⟨h.chart.symm, h.config.symm, h.stack.symm, h.history.symm,
    rel_swap (fun _ _ hakin => hakin.symm) h.fault⟩

/-! ### What is seen of the machines -/

/-- The active states of alike machines differ by the order of their transitions at most. -/
theorem current? (h : machine.Alike machine') :
    Option.Rel State.Reordered machine.current? machine'.current? := by
  unfold Machine.current?
  rw [← h.stack]
  cases machine.stack.head? with
  | none => exact .none
  | some head => exact h.chart head.state

/-- Alike machines have the same status: a state is final if it has no transitions, in any
order. -/
theorem status (h : machine.Alike machine') : machine.status = machine'.status := by
  have hstopped : machine.fault.isSome = machine'.fault.isSome := isSome_eq_of_rel h.fault
  have hfinal : machine.current?.map State.isFinal = machine'.current?.map State.isFinal :=
    map_eq_of_rel (fun _ _ hstate => hstate.transitions.isEmpty_eq) h.current?
  unfold Machine.status
  rw [hstopped, hfinal, h.stack]

/-- Of two alike machines both can take steps or neither can. -/
theorem isActive (h : machine.Alike machine') : machine.isActive = machine'.isActive := by
  unfold Machine.isActive
  rw [h.status]

/-- Stopped machines that are alike keep faults of the same kind. -/
theorem storedFault (h : machine.Alike machine') :
    machine.storedFault.Akin machine'.storedFault := by
  have hfault := h.fault
  unfold Machine.storedFault
  generalize machine.fault = stored at hfault
  generalize machine'.fault = stored' at hfault
  cases hfault with
  | some hakin => exact hakin
  | none => exact ⟨rfl, rfl⟩

/-- The results of alike machines agree. -/
theorem result (h : machine.Alike machine') : Agree machine.result machine'.result := by
  unfold Machine.result
  rw [← h.status, ← h.stack]
  cases machine.status with
  | idle => exact .refl _
  | running => exact .refl _
  | completed => exact .refl _
  | fatal => exact .error h.storedFault

/-! ### The guards and the way to the target -/

/-- A transition is open on both machines or on neither, as guards see the scopes only. -/
theorem opens (h : machine.Alike machine') : machine.opens = machine'.opens := by
  funext way
  unfold Machine.opens
  rw [h.stack]

/-- Whether a guard fails does not depend on the order. -/
theorem answered_iff (h : machine.Alike machine') (hperm : ways.Perm ways') :
    machine.Answered ways ↔ machine'.Answered ways' := by
  unfold Answered
  rw [h.stack]
  simp only [hperm.mem_iff]

/-- A transition that is the only open one is so in every order. -/
theorem only (h : machine.Alike machine') (hperm : ways.Perm ways')
    (honly : ways.filter machine.opens = [way]) : ways'.filter machine'.opens = [way] := by
  have hopen := hperm.filter machine.opens
  rw [honly, h.opens] at hopen
  exact List.perm_singleton.1 hopen.symm

/-- A transition leads on in both charts alike. -/
theorem route (h : machine.Alike machine') (htree : machine.chart.Tree)
    (htree' : machine'.chart.Tree) (hpath : machine.chart.Lineage source path)
    (hroute : route machine.chart source way = .ok (target, kept)) :
    ∃ target', Machine.route machine'.chart source way = .ok (target', kept)
      ∧ target.name = target'.name := by
  obtain ⟨hthere, hnear, targetPath, htarget, hkept⟩ := (route_eq_ok_iff htree hpath).1 hroute
  obtain ⟨target', hthere', hsame⟩ := h.chart.exists_get? hthere
  have hnear' : Near path target' := by
    unfold Near
    rw [← hsame.name, ← hsame.parent]
    exact hnear
  exact ⟨target', (route_eq_ok_iff htree' (h.chart.lineage hpath)).2
    ⟨hthere', hnear', targetPath, h.chart.lineage htarget, hkept⟩, hsame.name⟩

/-! ### Steps -/

/-- Stops for causes of the same kind keep machines alike. -/
theorem stop (h : machine.Alike machine') {cause cause' : Fault} (hcause : cause.Akin cause') :
    (machine.stop cause).Alike (machine'.stop cause') := by
  have hfault := h.fault
  unfold Machine.stop
  cases hstored : machine.fault with
  | some stored =>
    cases hstored' : machine'.fault with
    | some stored' => exact h
    | none =>
      rw [hstored, hstored'] at hfault
      cases hfault
  | none =>
    cases hstored' : machine'.fault with
    | some stored' =>
      rw [hstored, hstored'] at hfault
      cases hfault
    | none => exact ⟨h.chart, h.config, h.stack, h.history, .some ⟨rfl, hcause.root⟩⟩

/-- Steps that fail for causes of the same kind keep machines alike. -/
theorem fail (h : machine.Alike machine') (calls calls' : List Call) {cause cause' : Fault}
    (hcause : cause.Akin cause') :
    Matching (machine.fail calls cause).machine (machine'.fail calls' cause').machine
      (machine.fail calls cause).result (machine'.fail calls' cause').result :=
  ⟨h.stop hcause, .error hcause⟩

/-- One action on two alike machines does the same to both: it sees the same scopes. -/
theorem act (h : machine.Alike machine') (calls calls' : List Call) (way : Transition)
    (move : Move) :
    Matching (machine.act calls way move).machine (machine'.act calls' way move).machine
      (machine.act calls way move).result (machine'.act calls' way move).result := by
  unfold Machine.act
  cases way.action with
  | none => exact ⟨h, .refl _⟩
  | some action =>
    simp only
    rw [← h.stack]
    have hafter : Alike { machine with stack := (action.run machine.stack).1 }
        { machine' with stack := (action.run machine.stack).1 } :=
      ⟨h.chart, h.config, rfl, h.history, h.fault⟩
    cases (action.run machine.stack).2.result with
    | ok => exact ⟨hafter, .refl _⟩
    | error failure => exact hafter.fail _ _ ⟨rfl, rfl⟩

/-- States of the same name are entered alike, as both stacks are the same. -/
theorem enter (h : machine.Alike machine') (calls calls' : List Call) (source : String)
    (way : Transition) (hname : target.name = target'.name) (kept : Nat) :
    Matching (machine.enter calls source way target kept).machine
      (machine'.enter calls' source way target' kept).machine
      (machine.enter calls source way target kept).result
      (machine'.enter calls' source way target' kept).result := by
  unfold Machine.enter
  simp only
  rw [← hname, ← h.stack]
  -- Both stacks are cut to the same height, so the scope can be opened on both or on neither.
  cases (machine.stack.truncate kept).push? target.name with
  | none =>
    have hclosed : Alike { machine with stack := machine.stack.truncate kept }
        { machine' with stack := machine.stack.truncate kept } :=
      ⟨h.chart, h.config, rfl, h.history, h.fault⟩
    exact hclosed.fail calls calls' ⟨rfl, rfl⟩
  | some stack =>
    rw [← h.history]
    have hentered : Alike
        { machine with
            stack := stack
            history := machine.history.record ⟨source, target.name, way.name⟩ }
        { machine' with
            stack := stack
            history := machine.history.record ⟨source, target.name, way.name⟩ } :=
      ⟨h.chart, h.config, rfl, rfl, h.fault⟩
    exact hentered.act calls calls' way _

/-- If the first machine can leave the state, then both enter the target. -/
theorem leave_of_route (h : machine.Alike machine') (htree : machine.chart.Tree)
    (htree' : machine'.chart.Tree) (hpath : machine.chart.Lineage source path)
    (hperm : ways.Perm ways') (hanswered : machine.Answered ways)
    (honly : ways.filter machine.opens = [way])
    (hroute : Machine.route machine.chart source way = .ok (target, kept)) :
    Matching (machine.leave source ways).machine (machine'.leave source ways').machine
      (machine.leave source ways).result (machine'.leave source ways').result := by
  obtain ⟨target', hroute', hname⟩ := h.route htree htree' hpath hroute
  rw [leave_eq_enter hanswered honly hroute,
    leave_eq_enter ((h.answered_iff hperm).1 hanswered) (h.only hperm honly) hroute']
  exact h.enter _ _ _ _ hname _

/-- A state is left alike whatever the order of its transitions is. If one machine can leave it,
both enter the target; if neither can, the faults are of the same kind. -/
theorem leave (h : machine.Alike machine') (htree : machine.chart.Tree)
    (htree' : machine'.chart.Tree) (hpath : machine.chart.Lineage source path)
    (hperm : ways.Perm ways') :
    Matching (machine.leave source ways).machine (machine'.leave source ways').machine
      (machine.leave source ways).result (machine'.leave source ways').result := by
  rcases leave_cases machine source ways with
    ⟨fault, hobstacle, hfail⟩ | ⟨way, target, kept, hanswered, honly, hroute, -⟩
  · rcases leave_cases machine' source ways' with
      ⟨fault', hobstacle', hfail'⟩ | ⟨way, target, kept, hanswered, honly, hroute, -⟩
    · -- Neither can leave the state: a guard fails in both, or in neither.
      have hkind : fault.kind = fault'.kind := by
        have hguard : fault.kind = .callbackFailed ↔ fault'.kind = .callbackFailed := by
          rw [hobstacle.kind_eq_callbackFailed_iff, hobstacle'.kind_eq_callbackFailed_iff,
            h.answered_iff hperm]
        rcases hobstacle.kind with hcallback | hrun
        · rw [hcallback, hguard.1 hcallback]
        · rcases hobstacle'.kind with hcallback' | hrun'
          · rw [hguard.2 hcallback', hcallback']
          · rw [hrun, hrun']
      rw [hfail, hfail']
      refine h.fail _ _ (Fault.akin_of_kind hkind ?_)
      rcases hobstacle.kind with hcallback | hrun
      · simp [hcallback]
      · simp [hrun]
    · -- What the second machine can leave by, the first one can, too.
      have hleave := h.symm.leave_of_route htree' htree (h.chart.lineage hpath) hperm.symm
        hanswered honly hroute
      exact ⟨hleave.machines.symm, hleave.results.symm⟩
  · exact h.leave_of_route htree htree' hpath hperm hanswered honly hroute

/-- The active states of two alike machines are left alike. -/
theorem leaveCurrent (h : machine.Alike machine') (haligned : machine.Aligned)
    (haligned' : machine'.Aligned) :
    Matching machine.leaveCurrent.machine machine'.leaveCurrent.machine
      machine.leaveCurrent.result machine'.leaveCurrent.result := by
  obtain ⟨state, hcurrent, -, hpath⟩ := haligned.exists_current
  obtain ⟨state', hcurrent', -, -⟩ := haligned'.exists_current
  have hstates := h.current?
  rw [hcurrent, hcurrent'] at hstates
  cases hstates with
  | some hsame =>
    rw [haligned.leaveCurrent_eq hcurrent, haligned'.leaveCurrent_eq hcurrent', ← hsame.name]
    exact h.leave haligned.tree haligned'.tree hpath hsame.transitions

/-- A step keeps machines alike, and the results agree. -/
theorem advance (h : machine.Alike machine') (haligned : machine.Aligned)
    (haligned' : machine'.Aligned) :
    Matching machine.advance.machine machine'.advance.machine machine.advance.result
      machine'.advance.result := by
  have hleave := h.leaveCurrent haligned haligned'
  unfold Machine.advance
  rw [← h.status]
  cases machine.status with
  | idle =>
    -- The two checks may report different transitions, but reports are of one kind.
    have hvalid := h.chart.validate_eq_ok_iff haligned.tree haligned'.tree
    simp only
    cases hreport : machine.chart.validate with
    | ok =>
      rw [hvalid.1 hreport]
      exact hleave
    | error fault =>
      cases hreport' : machine'.chart.validate with
      | ok =>
        rw [hvalid.2 hreport'] at hreport
        cases hreport
      | error fault' =>
        have hkind := haligned.tree.kind_of_validate hreport
        have hkind' := haligned'.tree.kind_of_validate hreport'
        exact h.fail [] [] (Fault.akin_of_kind (hkind.trans hkind'.symm) (by simp [hkind]))
  | running => exact hleave
  | completed => exact ⟨h, .refl _⟩
  | fatal => exact ⟨h, .error h.storedFault⟩

/-! ### Runs -/

variable {chart chart' : Chart} {config : Config}

/-- Runs of alike machines end at the same steps, and in the same way. -/
theorem ending? (h : machine.Alike machine') (steps : Nat) :
    Option.Rel (fun taken taken' : RunTaken =>
        Matching taken.machine taken'.machine taken.result taken'.result)
      (machine.ending? steps) (machine'.ending? steps) := by
  unfold Machine.ending?
  rw [← h.isActive, ← h.config]
  split
  · split
    · exact .none
    · split
      · exact .some ⟨h.stop ⟨rfl, rfl⟩, .refl _⟩
      · exact .none
  · exact .some ⟨h, h.result⟩

/-- Runs of alike machines end at the same step, if they end at all. -/
theorem continue? (h : machine.Alike machine') (haligned : machine.Aligned)
    (haligned' : machine'.Aligned) (patience steps : Nat) :
    Option.Rel (fun taken taken' : RunTaken =>
        Matching taken.machine taken'.machine taken.result taken'.result)
      (Machine.continue? patience steps machine) (Machine.continue? patience steps machine') := by
  induction patience generalizing steps machine machine' with
  | zero => exact h.ending? steps
  | succ patience ih =>
    have hending := h.ending? steps
    have hstep := h.advance haligned haligned'
    have hrest := ih hstep.machines haligned.advance haligned'.advance (steps + 1)
    unfold Machine.continue?
    generalize machine.ending? steps = ending at hending ⊢
    generalize machine'.ending? steps = ending' at hending ⊢
    cases hending with
    | some hmatching => exact .some hmatching
    | none =>
      -- Both go on with a step, which fails on both sides or on neither.
      obtain ⟨hmachines, hresults⟩ := hstep
      simp only
      generalize machine.advance.result = result at hresults ⊢
      generalize machine'.advance.result = result' at hresults ⊢
      cases hresults with
      | error hfault => exact .some ⟨hmachines, .error hfault⟩
      | ok => exact rel_map (fun _ _ hmatching => ⟨hmatching.machines, hmatching.results⟩) hrest

/-! ### Calls -/

/-- A call that is made on both keeps machines alike, and the results agree. -/
theorem serve (h : machine.Alike machine') (haligned : machine.Aligned)
    (haligned' : machine'.Aligned) (operation : Operation) :
    Option.Rel (fun served served' : Served =>
        Matching served.machine served'.machine served.result served'.result)
      (machine.serve operation) (machine'.serve operation) := by
  cases operation with
  | advance =>
    have hstep := h.advance haligned haligned'
    exact .some ⟨hstep.machines, hstep.results.map _⟩
  | run patience =>
    have hrun : Option.Rel (fun taken taken' : RunTaken =>
        Matching taken.machine taken'.machine taken.result taken'.result)
        (machine.runToEnd? patience) (machine'.runToEnd? patience) := by
      unfold runToEnd?
      rw [← h.config]
      exact h.continue? haligned haligned' _ 0
    exact rel_map (fun _ _ hmatching => ⟨hmatching.machines, hmatching.results.map _⟩) hrun
  | result => exact .some ⟨h, h.result.map _⟩
  | reset => exact .some ⟨⟨h.chart, h.config, rfl, rfl, .none⟩, .ok⟩

end Alike

variable {chart chart' : Chart} {config : Config}

/-- What is seen of a call and its machine is the same on both sides, but for the wording of
faults. -/
structure Served.Same (served served' : Served) : Prop where
  /-- The machines have the same status. -/
  status : served.machine.status = served'.machine.status
  /-- The stacks have the same states with the same scopes. -/
  stack : served.machine.stack = served'.machine.stack
  /-- The histories list the same moves. -/
  history : served.machine.history = served'.machine.history
  /-- The answers agree. -/
  result : Agree served.result served'.result

/-- Calls that are made on both machines in parallel are the same call by call. -/
theorem Alike.serveAll (h : machine.Alike machine') (htree : chart.Tree) (htree' : chart'.Tree)
    (hreached : Reached chart config machine) (hreached' : Reached chart' config machine')
    (operations : List Operation) :
    Option.Rel (List.Forall₂ Served.Same) (machine.serveAll operations)
      (machine'.serveAll operations) := by
  induction operations generalizing machine machine' with
  | nil => exact .some .nil
  | cons operation rest ih =>
    refine rel_bind ?_ (h.serve (hreached.aligned htree).2 (hreached'.aligned htree').2 operation)
    intro served served' hserve hserve' hmatching
    -- The remaining calls find alike machines again.
    have hmachines := hmatching.machines
    have hsame : served.Same served' :=
      ⟨hmachines.status, hmachines.stack, hmachines.history, hmatching.results⟩
    refine rel_bind ?_ (ih hmachines (hreached.serve hserve) (hreached'.serve hserve'))
    intro others others' _ _ hrest
    exact .some (.cons hsame hrest)

/-- Take two built charts that have the same states up to the order of the transitions of each
state, and make the same calls on a new machine of each. After each call the machines have the
same status, the same states and scopes on the stack and the same history, and both calls
succeed with the same value, or both fail with faults of the same kind. -/
theorem reordering_law (hbuilt : chart.Built) (hbuilt' : chart'.Built)
    (hsame : chart.Reordered chart') (config : Config) (operations : List Operation) :
    Option.Rel (List.Forall₂ Served.Same) ((Machine.new chart config).serveAll operations)
      ((Machine.new chart' config).serveAll operations) := by
  have halike : (Machine.new chart config).Alike (Machine.new chart' config) :=
    ⟨hsame, rfl, rfl, rfl, .none⟩
  exact halike.serveAll hbuilt.tree hbuilt'.tree .new .new operations

/-- A transition with a guard that fails. -/
def washout : Transition :=
  ⟨"ford", "b", .custom fun _ => ⟨[], .error (.plain "washed out")⟩, none⟩

/-- A start state with the given transitions to a final one. -/
def junction (ways : List Transition) : Chart :=
  [Chart.Addition.start (State.new "a" ways) none,
    .plain (State.new "b" []) none].foldl Chart.perform Chart.new

/-- The failing guard is asked before the open transitions or behind them. -/
theorem junction_reordered :
    ∃ served served',
      (Machine.new (junction [washout, .always "road" "b" none, .always "rail" "b" none])
          {}).serveAll [.run 5, .result, .reset, .advance] = some served
        ∧ (Machine.new (junction [.always "rail" "b" none, .always "road" "b" none, washout])
          {}).serveAll [.run 5, .result, .reset, .advance] = some served'
        ∧ List.Forall₂ Served.Same served served' := by
  have hsame :
      (junction [washout, .always "road" "b" none, .always "rail" "b" none]).Reordered
        (junction [.always "rail" "b" none, .always "road" "b" none, washout]) := by
    refine Chart.reordered_of_entries ?_
    refine .cons ⟨rfl, rfl, rfl, rfl, ?_⟩ (.cons ⟨rfl, .refl _⟩ (.cons ⟨rfl, .refl _⟩ .nil))
    exact (List.reverse_perm [washout, .always "road" "b" none, .always "rail" "b" none]).symm
  have hbuilt : ∀ ways, (junction ways).Built := fun ways => Or.inl ⟨_, rfl⟩
  have hlaw := reordering_law (hbuilt _) (hbuilt _) hsame {} [.run 5, .result, .reset, .advance]
  obtain ⟨served, hserved⟩ : ∃ served,
      (Machine.new (junction [washout, .always "road" "b" none, .always "rail" "b" none])
          {}).serveAll [.run 5, .result, .reset, .advance] = some served := ⟨_, rfl⟩
  rw [hserved] at hlaw
  generalize (Machine.new (junction [.always "rail" "b" none, .always "road" "b" none, washout])
    {}).serveAll [.run 5, .result, .reset, .advance] = answers at hlaw ⊢
  cases hlaw with
  | some hall => exact ⟨served, _, hserved, rfl, hall⟩

end Machine

end Statechart
