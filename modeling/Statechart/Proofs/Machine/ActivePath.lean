import Statechart.Proofs.Machine.Step

/-!
# `Statechart.Proofs.Machine.ActivePath`: the stack follows the active path

A machine is `Aligned` if its chart is a tree and its stack lists the lineage of a state.
That state is the active one. For aligned machines `Takes` says all that a step can come to
(`Aligned.takes_advance`): it is refused, or it stops the machine with all scopes as they
were, or it meets the root as target, or it enters the target of the one open transition.
In each of these cases the machine stays aligned (`Aligned.advance`).
-/

set_option autoImplicit false

namespace Statechart

namespace Machine

variable {machine : Machine} {source : String} {state : State} {way : Transition}
  {path targetPath : List String}

/-- The stack that a target finds when it is entered, before the action runs: the scopes that
stay, and an empty one for the target. -/
def opened (machine : Machine) (source target : String) : ScopeStack :=
  let path := (machine.chart.lineage? source).getD []
  let targetPath := (machine.chart.lineage? target).getD []
  ⟨⟨target, Dict.empty⟩
    :: (machine.stack.truncate (keptPath path targetPath target).length).frames⟩

/-- The machine when a target is entered, before the action runs. -/
def entering (machine : Machine) (source : String) (way : Transition) : Machine :=
  { machine with
      stack := machine.opened source way.target
      history := machine.history.record ⟨source, way.target, way.name⟩ }

/-- The states on the stack are those on the way from the root to the innermost one, and the
chart is a tree. -/
structure Aligned (machine : Machine) : Prop where
  /-- The chart is a tree. -/
  tree : machine.chart.Tree
  /-- The stack lists the lineage of a state. -/
  path : ∃ head, machine.chart.Lineage head machine.stack.states

/-- A transition of the active state that is the only open one, while no guard fails, and
that leads to a near target. -/
structure Chosen (machine : Machine) (state : State) (way : Transition) (target : State) :
    Prop where
  /-- The machine can take steps. -/
  active : machine.status = .idle ∨ machine.status = .running
  /-- The state is active. -/
  current : machine.current? = some state
  /-- No guard fails. -/
  answered : machine.Answered state.transitions
  /-- One transition is open. -/
  only : state.transitions.filter machine.opens = [way]
  /-- The target is there. -/
  there : machine.chart.get? way.target = some target
  /-- The target is near. -/
  near : Near machine.stack.states target

/-- A chosen transition is one of its state. -/
theorem Chosen.mem {target : State} (hchosen : machine.Chosen state way target) :
    way ∈ state.transitions :=
  mem_of_only hchosen.only

/-- The one open transition of the active state leads to the root. -/
def HeadsForRoot (machine : Machine) : Prop :=
  ∃ state way target, machine.Chosen state way target ∧ way.target = rootName

/-- Why a step fails before it closes a scope. -/
inductive Halt (machine : Machine) : Fault → Prop where
  /-- The first step finds that the chart is not consistent. -/
  | invalid {fault : Fault} (hidle : machine.status = .idle)
      (hreport : machine.chart.validate = .error fault) : Halt machine fault
  /-- The active state cannot be left. -/
  | obstacle {state : State} {fault : Fault} (hcurrent : machine.current? = some state)
      (hchecked : machine.status = .idle → machine.chart.validate = .ok ())
      (hobstacle : machine.Obstacle state.name state.transitions fault) : Halt machine fault

/-- What a step can come to. Up to the action, only guards are called. -/
inductive Takes (machine : Machine) : StepTaken → Prop where
  /-- A completed or stopped machine takes no step. -/
  | refused {fault : Fault} (hstatus : machine.status = .completed ∨ machine.status = .fatal) :
      Takes machine ⟨machine, [], .error fault⟩
  /-- The step fails before any scope is closed. -/
  | stopped {calls : List Call} {fault : Fault}
      (hactive : machine.status = .idle ∨ machine.status = .running)
      (hhalt : machine.Halt fault) (hguards : ∀ call ∈ calls, call.role = .guard) :
      Takes machine (machine.fail calls fault)
  /-- The root cannot be entered again; all scopes but its own are closed. -/
  | barred {state target : State} {way : Transition} {calls : List Call}
      (hchosen : machine.Chosen state way target) (hroot : way.target = rootName)
      (hguards : ∀ call ∈ calls, call.role = .guard) :
      Takes machine ({ machine with stack := machine.stack.truncate 1 }.fail calls
        (.runtime (.pushFailed rootName)))
  /-- The target is entered and the action runs. -/
  | entered {state target : State} {way : Transition} {calls : List Call}
      (hchosen : machine.Chosen state way target) (hinner : way.target ≠ rootName)
      (hchecked : machine.status = .idle → machine.chart.validate = .ok ())
      (hguards : ∀ call ∈ calls, call.role = .guard) :
      Takes machine ((machine.entering state.name way).act calls way
        ⟨state.name, way.target, way.name⟩)

namespace Aligned

/-- The active state is the innermost one on the stack. -/
theorem exists_current (haligned : machine.Aligned) :
    ∃ state, machine.current? = some state ∧ machine.chart.get? state.name = some state
      ∧ machine.chart.Lineage state.name machine.stack.states := by
  obtain ⟨head, hpath⟩ := haligned.path
  obtain ⟨state, hget⟩ := hpath.exists_get? hpath.self_mem
  have hname : state.name = head := haligned.tree.named _ _ hget
  have hhead : machine.stack.head?.map (·.state) = some head := by
    rw [ScopeStack.map_state_head?, hpath.getLast?]
  obtain ⟨frame, hframe, hstate⟩ := Option.map_eq_some_iff.1 hhead
  refine ⟨state, ?_, by rw [hname]; exact hget, by rw [hname]; exact hpath⟩
  simp [current?, hframe, hstate, hget]

/-- The active state stands under its own name, and its lineage is on the stack. -/
theorem lineage_current (haligned : machine.Aligned) (hcurrent : machine.current? = some state) :
    machine.chart.get? state.name = some state
      ∧ machine.chart.Lineage state.name machine.stack.states := by
  obtain ⟨other, hother, hget, hpath⟩ := haligned.exists_current
  rw [hcurrent] at hother
  cases hother
  exact ⟨hget, hpath⟩

/-- On an aligned machine the active state is found, so a step comes down to leaving it. -/
theorem leaveCurrent_eq (haligned : machine.Aligned) (hcurrent : machine.current? = some state) :
    machine.leaveCurrent = machine.leave state.name state.transitions := by
  have hget := (haligned.lineage_current hcurrent).1
  simp only [leaveCurrent, hcurrent, hget]

variable {target : State}

/-- The stack of an entered target, in terms of the lineages of the two states. -/
theorem opened_eq (haligned : machine.Aligned) (hcurrent : machine.current? = some state)
    (htarget : machine.chart.Lineage way.target targetPath) :
    machine.opened state.name way.target
      = ⟨⟨way.target, Dict.empty⟩ :: (machine.stack.truncate
          (keptPath machine.stack.states targetPath way.target).length).frames⟩ := by
  have hsource := haligned.tree.lineage?_eq_some_iff.2 (haligned.lineage_current hcurrent).2
  have htarget' := haligned.tree.lineage?_eq_some_iff.2 htarget
  simp only [opened, hsource, htarget', Option.getD_some]

/-- The stack of an entered target lists the lineage of the target. -/
theorem states_opened (haligned : machine.Aligned) (hcurrent : machine.current? = some state)
    (hget : machine.chart.get? way.target = some target)
    (htarget : machine.chart.Lineage way.target targetPath)
    (hnear : Near machine.stack.states target) :
    (machine.opened state.name way.target).states = targetPath := by
  have hsource := (haligned.lineage_current hcurrent).2
  have happend := keptPath_append haligned.tree hsource hget htarget hnear
  have hkept := List.prefix_iff_eq_take.1
    (keptPath_begins machine.stack.states targetPath way.target)
  have hstates : (machine.opened state.name way.target).states
      = (machine.stack.truncate
          (keptPath machine.stack.states targetPath way.target).length).states ++ [way.target] := by
    rw [haligned.opened_eq hcurrent htarget]
    simp [ScopeStack.states]
  rw [hstates, ScopeStack.states_truncate, ← hkept, happend]

/-- Entering the root fails, once all scopes but its own are closed. -/
theorem enter_eq_fail (haligned : machine.Aligned) (hcurrent : machine.current? = some state)
    (hget : machine.chart.get? way.target = some target)
    (htarget : machine.chart.Lineage way.target targetPath)
    (hnear : Near machine.stack.states target) (hroot : way.target = rootName)
    (calls : List Call) :
    machine.enter calls state.name way target
        (max 1 (keptPath machine.stack.states targetPath way.target).length)
      = { machine with stack := machine.stack.truncate 1 }.fail calls
          (.runtime (.pushFailed rootName)) := by
  have hname : target.name = way.target := haligned.tree.named _ _ hget
  have hsource := (haligned.lineage_current hcurrent).2
  have happend := keptPath_append haligned.tree hsource hget htarget hnear
  -- Nothing but the scope of the root stays, and a head is not opened again.
  have htargetPath : targetPath = [rootName] := by
    rw [hroot] at htarget
    exact haligned.tree.root_lineage.unique htarget
  have hkept : keptPath machine.stack.states targetPath way.target = [] := by
    have hlength := congrArg List.length happend
    rw [htargetPath, List.length_append, List.length_singleton, List.length_singleton]
      at hlength
    rw [htargetPath]
    exact List.length_eq_zero_iff.1 (by omega)
  have hhead : (machine.stack.truncate 1).states = [rootName] := by
    rw [ScopeStack.states_truncate, List.take_one, haligned.tree.head?_eq_root hsource]
    rfl
  have hpush : (machine.stack.truncate 1).push? target.name = none := by
    cases h : (machine.stack.truncate 1).push? target.name with
    | none => rfl
    | some after =>
      obtain ⟨-, hfresh, -⟩ := ScopeStack.push?_eq_some_iff.1 h
      rw [hhead, hname, hroot] at hfresh
      exact absurd rfl hfresh
  unfold enter
  simp only [hkept, List.length_nil, Nat.max_zero, hpush]
  rw [hname, hroot]

/-- Every near target but the root is entered. -/
theorem enter_eq_act (haligned : machine.Aligned) (hcurrent : machine.current? = some state)
    (hget : machine.chart.get? way.target = some target)
    (htarget : machine.chart.Lineage way.target targetPath)
    (hnear : Near machine.stack.states target) (hinner : way.target ≠ rootName)
    (calls : List Call) :
    machine.enter calls state.name way target
        (max 1 (keptPath machine.stack.states targetPath way.target).length)
      = (machine.entering state.name way).act calls way
          ⟨state.name, way.target, way.name⟩ := by
  have hname : target.name = way.target := haligned.tree.named _ _ hget
  have hsource := (haligned.lineage_current hcurrent).2
  have happend := keptPath_append haligned.tree hsource hget htarget hnear
  have hbegins := keptPath_begins machine.stack.states targetPath way.target
  -- If no state was kept, the target would begin its own lineage, as only the root does.
  have hnonempty : keptPath machine.stack.states targetPath way.target ≠ [] := by
    intro hkept
    rw [hkept, List.nil_append] at happend
    have hhead := haligned.tree.head?_eq_root htarget
    rw [← happend] at hhead
    exact hinner (Option.some.inj hhead)
  have hmax : max 1 (keptPath machine.stack.states targetPath way.target).length
      = (keptPath machine.stack.states targetPath way.target).length := by
    have hpositive := List.length_pos_iff.2 hnonempty
    omega
  have hpush : (machine.stack.truncate
        (keptPath machine.stack.states targetPath way.target).length).push? target.name
      = some (machine.opened state.name way.target) := by
    rw [ScopeStack.push?_eq_some_iff]
    refine ⟨(haligned.tree.sound _ _ hget).named, ?_, ?_⟩
    · -- The target comes once on its lineage, so the kept states end with another one.
      rw [ScopeStack.states_truncate, ← List.prefix_iff_eq_take.1 hbegins, hname]
      intro hlast
      have hmem := List.mem_of_getLast? hlast
      have hnodup := htarget.nodup
      rw [← happend] at hnodup
      exact (List.nodup_append.1 hnodup).2.2 _ hmem _ (List.mem_singleton_self _) rfl
    · rw [haligned.opened_eq hcurrent htarget, hname]
  rw [hname] at hpush
  unfold enter
  simp only [hmax, hname, hpush]
  rfl

/-- The one open transition that leads on is a chosen one. Its target is the root, and then it
cannot be entered, or it is entered and the action runs. -/
theorem enter_cases (haligned : machine.Aligned)
    (hactive : machine.status = .idle ∨ machine.status = .running)
    (hcurrent : machine.current? = some state) (hanswered : machine.Answered state.transitions)
    (honly : state.transitions.filter machine.opens = [way]) {kept : Nat}
    (hroute : route machine.chart state.name way = .ok (target, kept)) (calls : List Call) :
    machine.Chosen state way target
      ∧ (way.target = rootName ∧ machine.enter calls state.name way target kept
          = { machine with stack := machine.stack.truncate 1 }.fail calls
            (.runtime (.pushFailed rootName))
        ∨ way.target ≠ rootName ∧ machine.enter calls state.name way target kept
          = (machine.entering state.name way).act calls way
            ⟨state.name, way.target, way.name⟩) := by
  have hsource := (haligned.lineage_current hcurrent).2
  obtain ⟨hthere, hnear, targetPath, htarget, rfl⟩ :=
    (route_eq_ok_iff haligned.tree hsource).1 hroute
  refine ⟨⟨hactive, hcurrent, hanswered, honly, hthere, hnear⟩, ?_⟩
  by_cases hroot : way.target = rootName
  · exact Or.inl ⟨hroot, haligned.enter_eq_fail hcurrent hthere htarget hnear hroot calls⟩
  · exact Or.inr ⟨hroot, haligned.enter_eq_act hcurrent hthere htarget hnear hroot calls⟩

/-- A step comes to one of the four outcomes. -/
theorem takes_advance (haligned : machine.Aligned) : machine.Takes machine.advance := by
  obtain ⟨state, hcurrent, -, -⟩ := haligned.exists_current
  -- An idle machine checks its chart first; from there on it does what a running one does.
  have hleave : (machine.status = .idle ∨ machine.status = .running) →
      (machine.status = .idle → machine.chart.validate = .ok ()) →
      machine.Takes machine.leaveCurrent := by
    intro hactive hchecked
    have hguards : ∀ call ∈ (machine.askGuards state.transitions).1, call.role = .guard :=
      fun call hcall => role_of_askGuards hcall
    rw [haligned.leaveCurrent_eq hcurrent]
    rcases leave_cases machine state.name state.transitions with
      ⟨fault, hobstacle, hfail⟩ | ⟨way, target, kept, hanswered, honly, hroute, henter⟩
    · rw [hfail]
      exact .stopped hactive (.obstacle hcurrent hchecked hobstacle) hguards
    · obtain ⟨hchosen, ⟨hroot, hfail⟩ | ⟨hinner, hact⟩⟩ :=
        haligned.enter_cases hactive hcurrent hanswered honly hroute
          (machine.askGuards state.transitions).1
      · rw [henter, hfail]
        exact .barred hchosen hroot hguards
      · rw [henter, hact]
        exact .entered hchosen hinner hchecked hguards
  unfold Machine.advance
  split
  · next hidle =>
    split
    · next fault hreport => exact .stopped (Or.inl hidle) (.invalid hidle hreport) (by simp)
    · next hvalid => exact hleave (Or.inl hidle) fun _ => hvalid
  · next hrunning =>
    exact hleave (Or.inr hrunning) fun hidle => absurd (hidle.symm.trans hrunning) (by decide)
  · next hstatus => exact .refused (Or.inl hstatus)
  · next hstatus => exact .refused (Or.inr hstatus)

/-- On a valid chart, a chosen transition to another target than the root is taken. -/
theorem advance_eq_act {target : State} (haligned : machine.Aligned)
    (hvalid : machine.chart.validate = .ok ()) (hchosen : machine.Chosen state way target)
    (hinner : way.target ≠ rootName) :
    machine.advance = (machine.entering state.name way).act
      (machine.askGuards state.transitions).1 way ⟨state.name, way.target, way.name⟩ := by
  have hsource := (haligned.lineage_current hchosen.current).2
  obtain ⟨targetPath, htarget⟩ := haligned.tree.rooted _ _ hchosen.there
  have hroute := (route_eq_ok_iff haligned.tree hsource).2
    ⟨hchosen.there, hchosen.near, targetPath, htarget, rfl⟩
  have hleave : machine.leaveCurrent = (machine.entering state.name way).act
      (machine.askGuards state.transitions).1 way ⟨state.name, way.target, way.name⟩ := by
    rw [haligned.leaveCurrent_eq hchosen.current,
      leave_eq_enter hchosen.answered hchosen.only hroute,
      haligned.enter_eq_act hchosen.current hchosen.there htarget hchosen.near hinner]
  unfold Machine.advance
  -- An idle machine finds its chart valid, and a running one does not ask.
  rcases hchosen.active with hstatus | hstatus
  · simp only [hstatus, hvalid, hleave]
  · simp only [hstatus, hleave]

/-- A chosen transition to the root stops a running machine with the scope of the root alone. -/
theorem advance_eq_fail {target : State} (haligned : machine.Aligned)
    (hrunning : machine.status = .running) (hchosen : machine.Chosen state way target)
    (hroot : way.target = rootName) :
    machine.advance = { machine with stack := machine.stack.truncate 1 }.fail
      (machine.askGuards state.transitions).1 (.runtime (.pushFailed rootName)) := by
  have hsource := (haligned.lineage_current hchosen.current).2
  obtain ⟨targetPath, htarget⟩ := haligned.tree.rooted _ _ hchosen.there
  have hroute := (route_eq_ok_iff haligned.tree hsource).2
    ⟨hchosen.there, hchosen.near, targetPath, htarget, rfl⟩
  unfold Machine.advance
  simp only [hrunning]
  rw [haligned.leaveCurrent_eq hchosen.current,
    leave_eq_enter hchosen.answered hchosen.only hroute,
    haligned.enter_eq_fail hchosen.current hchosen.there htarget hchosen.near hroot]

end Aligned

/-! ### Steps and runs keep the alignment -/

/-- What a machine is left with by an action: the stack that the action made. -/
theorem act_machine (machine : Machine) (calls : List Call) (way : Transition) (move : Move) :
    (machine.act calls way move).machine
      = match way.action with
        | none => machine
        | some action =>
          match (action.run machine.stack).2.result with
          | .ok _ => { machine with stack := (action.run machine.stack).1 }
          | .error failure =>
            { machine with stack := (action.run machine.stack).1 }.stop
              (.callbackFailed .entryAction failure) := by
  unfold act
  cases way.action with
  | none => rfl
  | some action =>
    simp only
    cases (action.run machine.stack).2.result with
    | ok => rfl
    | error => rfl

/-- A stop keeps the chart. -/
@[simp] theorem stop_chart (machine : Machine) (cause : Fault) :
    (machine.stop cause).chart = machine.chart := by
  unfold stop
  split <;> rfl

/-- A stop closes no scope. -/
@[simp] theorem stop_stack (machine : Machine) (cause : Fault) :
    (machine.stop cause).stack = machine.stack := by
  unfold stop
  split <;> rfl

/-- A stop adds nothing to the history. -/
@[simp] theorem stop_history (machine : Machine) (cause : Fault) :
    (machine.stop cause).history = machine.history := by
  unfold stop
  split <;> rfl

/-- A machine that is not stopped yet keeps the cause with the dumps of its stack and history. -/
theorem stop_eq (hfault : machine.fault = none) (cause : Fault) :
    machine.stop cause = { machine with
      fault := some (.fatal cause (machine.stack.outline.render 0)
        (machine.history.outline.render 0)) } := by
  simp only [stop, hfault]

/-- After a stop a fault is kept, the new one or one from before. -/
theorem stop_fault_ne_none (machine : Machine) (cause : Fault) :
    (machine.stop cause).fault ≠ none := by
  unfold stop
  split
  · next fault hfault => simp [hfault]
  · simp

/-- An action keeps the chart, whether it succeeds or fails. -/
theorem act_chart (machine : Machine) (calls : List Call) (way : Transition) (move : Move) :
    (machine.act calls way move).machine.chart = machine.chart := by
  rw [act_machine]
  split
  · rfl
  · split
    · rfl
    · exact stop_chart _ _

/-- An action adds nothing to the history, whether it succeeds or fails. The move is recorded
before it runs. -/
theorem act_history (machine : Machine) (calls : List Call) (way : Transition) (move : Move) :
    (machine.act calls way move).machine.history = machine.history := by
  rw [act_machine]
  split
  · rfl
  · split
    · rfl
    · exact stop_history _ _

/-- An action changes no state on the stack, as it can only read and write. -/
theorem states_act (machine : Machine) (calls : List Call) (way : Transition) (move : Move) :
    (machine.act calls way move).machine.stack.states = machine.stack.states := by
  rw [act_machine]
  split
  · rfl
  · next action _ =>
    split
    · exact action.states_run machine.stack
    · rw [stop_stack]
      exact action.states_run machine.stack

namespace Aligned

/-- A new machine is aligned: the scope of the root is open, and the lineage of the root is the
root alone. -/
theorem new {chart : Chart} (htree : chart.Tree) (config : Config) :
    (Machine.new chart config).Aligned :=
  ⟨htree, rootName, htree.root_lineage⟩

/-- A machine is aligned again after a reset. -/
theorem reset (haligned : machine.Aligned) : machine.reset.Aligned :=
  ⟨haligned.tree, rootName, haligned.tree.root_lineage⟩

/-- A stop keeps chart and stack, and so a machine stays aligned. -/
theorem stop (haligned : machine.Aligned) (cause : Fault) : (machine.stop cause).Aligned := by
  refine ⟨?_, ?_⟩
  · rw [stop_chart]
    exact haligned.tree
  · rw [stop_chart, stop_stack]
    exact haligned.path

/-- A step keeps the chart. -/
theorem advance_chart (haligned : machine.Aligned) :
    machine.advance.machine.chart = machine.chart := by
  have htakes := haligned.takes_advance
  generalize machine.advance = step at htakes
  cases htakes with
  | refused => rfl
  | stopped => exact stop_chart _ _
  | barred => exact stop_chart _ _
  | entered => rw [act_chart]; rfl

/-- A step keeps the stack on the active path. -/
theorem advance (haligned : machine.Aligned) : machine.advance.machine.Aligned := by
  refine ⟨by rw [haligned.advance_chart]; exact haligned.tree, ?_⟩
  rw [haligned.advance_chart]
  have htakes := haligned.takes_advance
  generalize machine.advance = step at htakes
  cases htakes with
  | refused => exact haligned.path
  | stopped =>
    show ∃ head, machine.chart.Lineage head (machine.stop _).stack.states
    rw [stop_stack]
    exact haligned.path
  | barred hchosen hroot =>
    -- Only the scope of the root is left, and the root is its own lineage.
    have hsource := (haligned.lineage_current hchosen.current).2
    refine ⟨rootName, ?_⟩
    show machine.chart.Lineage rootName (Machine.stop _ _).stack.states
    rw [stop_stack, ScopeStack.states_truncate, List.take_one,
      haligned.tree.head?_eq_root hsource]
    exact haligned.tree.root_lineage
  | @entered state target way calls hchosen hinner =>
    obtain ⟨targetPath, htarget⟩ := haligned.tree.rooted _ _ hchosen.there
    refine ⟨way.target, ?_⟩
    rw [states_act]
    show machine.chart.Lineage way.target (machine.opened state.name way.target).states
    rw [haligned.states_opened hchosen.current hchosen.there htarget hchosen.near]
    exact htarget

end Aligned

end Machine

end Statechart
