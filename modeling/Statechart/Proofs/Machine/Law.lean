import Statechart.Proofs.Chart.Built
import Statechart.Proofs.Machine.Reach

/-!
# `Statechart.Proofs.Machine.Law`: what steps do on built charts

The two theorems are about all machines that calls lead to on a built chart.

* `stack_follows_lineage`: the stack lists the lineage of the active state, whatever has
  happened to the machine.
* `advance_law`: on a valid chart, an active machine takes a step exactly if one of the
  transitions of its state is `Passable`, and `Passed` says what the step does.
-/

set_option autoImplicit false

namespace Statechart

namespace Machine

variable {chart : Chart} {config : Config} {machine : Machine} {state target : State}
  {way : Transition}

/-! ### The stack -/

/-- Take a machine that steps, runs and resets lead to on a built chart, stopped or not. The
states on its stack, the outermost first, are the lineage of the innermost one. So there is a
scope, the outermost one is the root's, the innermost state is in the chart, no state comes
twice, and there are no more scopes than states. -/
theorem stack_follows_lineage (hbuilt : chart.Built) (hreached : Reached chart config machine) :
    ∃ head, machine.stack.head? = some head
      ∧ chart.lineage? head.state = some machine.stack.states
      ∧ machine.stack.outermost?.map (·.state) = some rootName
      ∧ (chart.get? head.state).isSome
      ∧ machine.stack.states.Nodup
      ∧ machine.stack.depth ≤ chart.size := by
  have htree := hbuilt.tree
  obtain ⟨rfl, haligned⟩ := hreached.aligned htree
  obtain ⟨name, hpath⟩ := haligned.path
  have hhead : machine.stack.head?.map (·.state) = some name := by
    rw [ScopeStack.map_state_head?, hpath.getLast?]
  obtain ⟨head, hfirst, rfl⟩ := Option.map_eq_some_iff.1 hhead
  obtain ⟨state, hget⟩ := hpath.exists_get? hpath.self_mem
  refine ⟨head, hfirst, htree.lineage?_eq_some_iff.2 hpath, ?_, by simp [hget], hpath.nodup, ?_⟩
  · rw [ScopeStack.map_state_outermost?, htree.head?_eq_root hpath]
  · rw [← ScopeStack.length_states]
    exact hpath.length_le_size

/-- A start state with a transition to a sibling. -/
def siblings : Chart :=
  [Chart.Addition.start (State.new "a" [.always "go" "b" none]) none,
    .plain (State.new "b" []) none].foldl Chart.perform Chart.new

/-- After a step from the root, the stack lists the root and the start state. -/
theorem siblings_stack :
    ∃ head, (Machine.new siblings {}).advance.machine.stack.head? = some head
      ∧ siblings.lineage? head.state = some ["global", "a"] := by
  have hreached : Reached siblings {} (Machine.new siblings {}).advance.machine := .advance .new
  obtain ⟨head, hhead, hlineage, -⟩ := stack_follows_lineage (Or.inl ⟨_, rfl⟩) hreached
  exact ⟨head, hhead, hlineage⟩

/-! ### The step -/

/-- A transition of a state that a step can take: no guard fails, it is the only open
transition, it leads to the lineage of the state or to a child of it but not to the root, and
its action succeeds on the stack that the target finds. -/
structure Passable (machine : Machine) (state : State) (way : Transition) : Prop where
  /-- No guard fails. -/
  answered : machine.Answered state.transitions
  /-- The transition is the only open one. -/
  only : state.transitions.filter machine.opens = [way]
  /-- The target is not the root. -/
  inner : way.target ≠ rootName
  /-- The target or its parent is on the lineage of the state. -/
  near : ∃ path target, machine.chart.lineage? state.name = some path
    ∧ machine.chart.get? way.target = some target ∧ Near path target
  /-- The action, if there is one, succeeds. -/
  succeeds : ∀ action, way.action = some action →
    (action.run (machine.opened state.name way.target)).2.result = .ok ()

/-- What a step over a transition does. -/
structure Passed (machine : Machine) (state : State) (way : Transition) (step : StepTaken) :
    Prop where
  /-- The step answers with the move. -/
  result : step.result = .ok ⟨state.name, way.target, way.name⟩
  /-- The target finds the scopes of the longest shared beginning of the two lineages, without
  the last one if the target is on the lineage of the state, and an empty scope of its own. -/
  opened : ∃ path targetPath shared kept, machine.chart.lineage? state.name = some path
    ∧ machine.chart.lineage? way.target = some targetPath
    ∧ Chart.LongestShared shared path targetPath
    ∧ kept <+: machine.stack.frames.reverse
    ∧ kept.map (·.state) = (if way.target ∈ path then shared.dropLast else shared)
    ∧ (machine.opened state.name way.target).frames.reverse
      = kept ++ [⟨way.target, Dict.empty⟩]
  /-- The new stack is what the action makes of it. -/
  stack : step.machine.stack = match way.action with
    | none => machine.opened state.name way.target
    | some action => (action.run (machine.opened state.name way.target)).1
  /-- The states on the stack are the ones of the kept scopes and the target. -/
  states : step.machine.stack.states = (machine.opened state.name way.target).states
  /-- The move is added to the history. -/
  history : step.machine.history.moves
    = machine.history.moves ++ [⟨state.name, way.target, way.name⟩]
  /-- The machine is completed if there is no way out of the target, and running otherwise. -/
  status : ∃ target, machine.chart.get? way.target = some target
    ∧ step.machine.status = if target.transitions = [] then .completed else .running

/-- Passable transitions are the chosen ones that do not lead to the root and whose action
succeeds. -/
theorem Aligned.passable_iff (haligned : machine.Aligned)
    (hactive : machine.status = .idle ∨ machine.status = .running)
    (hcurrent : machine.current? = some state) :
    machine.Passable state way
      ↔ (∃ target, machine.Chosen state way target) ∧ way.target ≠ rootName
        ∧ ∀ action, way.action = some action →
          (action.run (machine.opened state.name way.target)).2.result = .ok () := by
  have hsource := haligned.tree.lineage?_eq_some_iff.2 (haligned.lineage_current hcurrent).2
  constructor
  · rintro ⟨hanswered, honly, hinner, ⟨path, target, hpath, hthere, hnear⟩, hsucceeds⟩
    rw [hsource, Option.some.injEq] at hpath
    subst hpath
    exact ⟨⟨target, hactive, hcurrent, hanswered, honly, hthere, hnear⟩, hinner, hsucceeds⟩
  · rintro ⟨⟨target, hchosen⟩, hinner, hsucceeds⟩
    exact ⟨hchosen.answered, hchosen.only, hinner,
      ⟨_, target, hsource, hchosen.there, hchosen.near⟩, hsucceeds⟩

/-- An action lets the step succeed exactly if it succeeds itself. -/
theorem act_result_eq_ok_iff (machine : Machine) (calls : List Call) (way : Transition)
    (move answer : Move) :
    (machine.act calls way move).result = .ok answer
      ↔ answer = move ∧ ∀ action, way.action = some action →
        (action.run machine.stack).2.result = .ok () := by
  unfold act
  cases way.action with
  | none => simp [eq_comm]
  | some action =>
    cases hresult : (action.run machine.stack).2.result with
    | ok => simp [hresult, eq_comm]
    | error failure => simp [hresult, fail]

/-- The status of a machine that is not stopped and whose stack ends with a state below the
root. -/
theorem status_eq (htree : machine.chart.Tree) (hfault : machine.fault = none)
    (hpath : machine.chart.Lineage way.target machine.stack.states)
    (hget : machine.chart.get? way.target = some target) (hinner : way.target ≠ rootName) :
    machine.status = if target.transitions = [] then .completed else .running := by
  -- Below the root there are two scopes at least, so the machine is not idle.
  have hdepth : ¬ machine.stack.depth ≤ 1 := by
    rw [← ScopeStack.length_states, htree.length_le_one_iff hpath]
    exact hinner
  have hcurrent : machine.current? = some target := by
    have hhead : machine.stack.head?.map (·.state) = some way.target := by
      rw [ScopeStack.map_state_head?, hpath.getLast?]
    obtain ⟨head, hhead, hstate⟩ := Option.map_eq_some_iff.1 hhead
    simp [current?, hhead, hstate, hget]
  unfold status
  rw [hfault, hcurrent]
  simp [hdepth, State.isFinal]

/-- The scopes that a target finds. -/
theorem Aligned.exists_kept (haligned : machine.Aligned)
    (hcurrent : machine.current? = some state) {targetPath : List String}
    (htarget : machine.chart.Lineage way.target targetPath) :
    ∃ kept, kept <+: machine.stack.frames.reverse
      ∧ kept.map (·.state) = keptPath machine.stack.states targetPath way.target
      ∧ (machine.opened state.name way.target).frames.reverse
        = kept ++ [⟨way.target, Dict.empty⟩] := by
  have hkept := keptPath_begins machine.stack.states targetPath way.target
  generalize hcount : (keptPath machine.stack.states targetPath way.target).length = count
  refine ⟨machine.stack.frames.reverse.take count, List.take_prefix _ _, ?_, ?_⟩
  · rw [List.map_take, List.map_reverse, ← hcount]
    exact (List.prefix_iff_eq_take.1 hkept).symm
  · rw [haligned.opened_eq hcurrent htarget, hcount, List.reverse_cons,
      ScopeStack.reverse_frames_truncate]

/-- The machine that an action leaves behind if it succeeds. -/
theorem act_machine_of_ok (machine : Machine) (calls : List Call) (move : Move)
    (hsucceeds : ∀ action, way.action = some action →
      (action.run machine.stack).2.result = .ok ()) :
    (machine.act calls way move).machine
      = { machine with stack := match way.action with
          | none => machine.stack
          | some action => (action.run machine.stack).1 } := by
  rw [act_machine]
  cases haction : way.action with
  | none => rfl
  | some action => simp only [hsucceeds action haction]

/-- A passable transition is passed. -/
theorem Aligned.passed (haligned : machine.Aligned) (hvalid : machine.chart.validate = .ok ())
    (hactive : machine.status = .idle ∨ machine.status = .running)
    (hcurrent : machine.current? = some state) (hpassable : machine.Passable state way) :
    machine.Passed state way machine.advance := by
  obtain ⟨⟨target, hchosen⟩, hinner, hsucceeds⟩ :=
    (haligned.passable_iff hactive hcurrent).1 hpassable
  have hsource := (haligned.lineage_current hcurrent).2
  obtain ⟨targetPath, htarget⟩ := haligned.tree.rooted _ _ hchosen.there
  have hopened := haligned.states_opened hcurrent hchosen.there htarget hchosen.near
  have hfault := fault_eq_none_of_active hactive
  -- What is left of the step is the action, on the stack that the target finds.
  rw [haligned.advance_eq_act hvalid hchosen hinner]
  have hafter := act_machine_of_ok (machine.entering state.name way)
    (machine.askGuards state.transitions).1 ⟨state.name, way.target, way.name⟩ hsucceeds
  have hstates := states_act (machine.entering state.name way)
    (machine.askGuards state.transitions).1 way ⟨state.name, way.target, way.name⟩
  refine ⟨?_, ?_, ?_, hstates, ?_, target, hchosen.there, ?_⟩
  · exact (act_result_eq_ok_iff _ _ _ _ _).2 ⟨rfl, hsucceeds⟩
  · obtain ⟨kept, hbefore, hkept, hframes⟩ := haligned.exists_kept hcurrent htarget
    exact ⟨_, targetPath, _, kept, haligned.tree.lineage?_eq_some_iff.2 hsource,
      haligned.tree.lineage?_eq_some_iff.2 htarget, Chart.sharedPath_longest _ _, hbefore, hkept,
      hframes⟩
  · rw [hafter]
    rfl
  · rw [hafter]
    rfl
  · have hpath : machine.chart.Lineage way.target
        ((machine.entering state.name way).act (machine.askGuards state.transitions).1 way
          ⟨state.name, way.target, way.name⟩).machine.stack.states := by
      rw [hstates]
      show machine.chart.Lineage way.target (machine.opened state.name way.target).states
      rw [hopened]
      exact htarget
    refine status_eq ?_ ?_ ?_ ?_ hinner
    · rw [act_chart]
      exact haligned.tree
    · rw [hafter]
      exact hfault
    · rw [act_chart]
      exact hpath
    · rw [act_chart]
      exact hchosen.there

/-- Take an active machine that steps, runs and resets lead to on a built and valid chart. A
step succeeds exactly if some transition of the active state is passable, and then it passes
this transition. -/
theorem advance_law (hbuilt : chart.Built) (hvalid : chart.validate = .ok ())
    (hreached : Reached chart config machine)
    (hactive : machine.status = .idle ∨ machine.status = .running)
    (hcurrent : machine.current? = some state) :
    ((∃ move, machine.advance.result = .ok move) ↔ ∃ way, machine.Passable state way)
      ∧ ∀ way, machine.Passable state way → machine.Passed state way machine.advance := by
  obtain ⟨rfl, haligned⟩ := hreached.aligned hbuilt.tree
  have hpassed : ∀ way, machine.Passable state way →
      machine.Passed state way machine.advance :=
    fun way hpassable => haligned.passed hvalid hactive hcurrent hpassable
  refine ⟨⟨?_, fun ⟨way, hpassable⟩ => ⟨_, (hpassed way hpassable).result⟩⟩, hpassed⟩
  rintro ⟨move, hmove⟩
  -- Of all that a step can come to, only entering a target succeeds.
  have htakes := haligned.takes_advance
  generalize machine.advance = step at htakes hmove
  cases htakes with
  | refused => cases hmove
  | stopped => cases hmove
  | barred => cases hmove
  | @entered state' target way calls hchosen hinner =>
    have hsame : state' = state := Option.some.inj (hchosen.current.symm.trans hcurrent)
    subst hsame
    obtain ⟨-, hsucceeds⟩ := (act_result_eq_ok_iff _ _ _ _ _).1 hmove
    exact ⟨way, (haligned.passable_iff hactive hcurrent).2
      ⟨⟨target, hchosen⟩, hinner, hsucceeds⟩⟩

/-- From the start state the transition to the sibling is taken. -/
theorem siblings_advance :
    ∃ way, (Machine.new siblings {}).advance.machine.Passable
        ⟨"a", some "global", none, [.always "go" "b" none]⟩ way
      ∧ (Machine.new siblings {}).advance.machine.Passed
        ⟨"a", some "global", none, [.always "go" "b" none]⟩ way
        (Machine.new siblings {}).advance.machine.advance := by
  have hreached : Reached siblings {} (Machine.new siblings {}).advance.machine := .advance .new
  have hcurrent : (Machine.new siblings {}).advance.machine.current?
      = some ⟨"a", some "global", none, [.always "go" "b" none]⟩ := rfl
  obtain ⟨hsucceeds, hpassed⟩ :=
    advance_law (Or.inl ⟨_, rfl⟩) rfl hreached (Or.inr (by decide)) hcurrent
  obtain ⟨way, hpassable⟩ := hsucceeds.1 ⟨⟨"a", "b", "go"⟩, rfl⟩
  exact ⟨way, hpassable, hpassed way hpassable⟩

end Machine

end Statechart
