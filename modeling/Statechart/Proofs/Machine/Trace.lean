import Mathlib.Data.List.Chain
import Statechart.Proofs.Chart.Built
import Statechart.Proofs.Machine.Reach

/-!
# `Statechart.Proofs.Machine.Trace`: the history of a run

`Trace chart moves last` says that moves can be made one after the other from the root by
transitions of the chart, and that they end at `last`. A machine is `Traced` if its history
is such a trace, and if it ends at the active state as long as the machine is not stopped.
Steps keep this (`Traced.advance`): a step that enters a target adds one move, and every other
step leaves the history alone.

What can be read off a trace is `History.Faithful`: where it begins, how its moves follow each
other, where they come from, and which states the path lists. `history_traces_run` says so of
every machine that calls lead to.
-/

set_option autoImplicit false

namespace Statechart

/-- The history lists moves that follow each other from the root through the chart, and its
path lists the states in between. -/
structure History.Faithful (chart : Chart) (history : History) : Prop where
  /-- The first move leaves the root. -/
  first : ∀ first, history.moves.head? = some first → first.source = rootName
  /-- Every other move leaves the state that the one before it entered. -/
  linked : history.moves.IsChain fun earlier later => later.source = earlier.target
  /-- Every move is a transition of the state that it leaves. -/
  taken : ∀ move ∈ history.moves, ∃ state, chart.get? move.source = some state
    ∧ ∃ way ∈ state.transitions, way.name = move.transition ∧ way.target = move.target
  /-- The path has one state more than there are moves, and its neighbours are the ends of the
  moves. -/
  path : history.moves ≠ [] → history.path.length = history.size + 1
    ∧ history.path.zip history.path.tail
      = history.moves.map fun move => (move.source, move.target)

/-- Moves that begin at the root, follow each other by transitions of the chart and end at
`last`. The root is never entered again. -/
inductive Trace (chart : Chart) : List Move → String → Prop where
  /-- No move has been made. -/
  | start : Trace chart [] rootName
  /-- One more move is made. -/
  | move {moves : List Move} {source : String} {state : State} {way : Transition}
      (hbefore : Trace chart moves source) (hget : chart.get? source = some state)
      (hway : way ∈ state.transitions) (hinner : way.target ≠ rootName) :
      Trace chart (moves ++ [⟨source, way.target, way.name⟩]) way.target

namespace Trace

variable {chart : Chart} {moves : List Move} {last : String}

/-- A trace ends at the target of its last move, or at the root if there is none. -/
theorem eq_last (h : Trace chart moves last) :
    last = (moves.getLast?.map (·.target)).getD rootName := by
  cases h with
  | start => rfl
  | move => simp

/-- A trace ends at the root only if no move has been made. -/
theorem eq_root_iff (h : Trace chart moves last) : last = rootName ↔ moves = [] := by
  cases h with
  | start => simp
  | move hbefore hget hway hinner => simp [hinner]

/-- The first move leaves the root. -/
theorem source_first (h : Trace chart moves last) {first : Move}
    (hfirst : moves.head? = some first) : first.source = rootName := by
  -- A move that is added is the first one only if none was made before, at the root.
  induction h with
  | start => cases hfirst
  | @move before source state way hbefore hget hway hinner ih =>
    cases before with
    | nil =>
      cases hfirst
      exact hbefore.eq_last
    | cons head rest => exact ih hfirst

/-- Every move leaves the state that the one before it entered. -/
theorem isChain (h : Trace chart moves last) :
    moves.IsChain fun earlier later => later.source = earlier.target := by
  induction h with
  | start => exact List.isChain_nil
  | @move before source state way hbefore hget hway hinner ih =>
    refine ih.append (List.isChain_singleton _) ?_
    intro earlier hearlier later hlater
    cases hlater
    have hend := hbefore.eq_last
    rw [Option.mem_def.1 hearlier] at hend
    exact hend

/-- Every move is a transition of the state that it leaves. -/
theorem exists_way (h : Trace chart moves last) {move : Move} (hmove : move ∈ moves) :
    ∃ state, chart.get? move.source = some state
      ∧ ∃ way ∈ state.transitions, way.name = move.transition ∧ way.target = move.target := by
  induction h with
  | start => cases hmove
  | @move before source state way hbefore hget hway hinner ih =>
    rcases List.mem_append.1 hmove with hmove | hmove
    · exact ih hmove
    · rw [List.mem_singleton] at hmove
      subst hmove
      exact ⟨state, hget, way, hway, rfl, rfl⟩

end Trace

/-- Moves that follow each other from a source have their ends side by side in the list of the
source and the targets. -/
theorem zip_targets {moves : List Move} {source : String}
    (hfirst : ∀ first, moves.head? = some first → first.source = source)
    (hlinked : moves.IsChain fun earlier later => later.source = earlier.target) :
    (source :: moves.map (·.target)).zip (moves.map (·.target))
      = moves.map fun move => (move.source, move.target) := by
  -- Behind the first move, the rest follows from its target.
  induction moves generalizing source with
  | nil => rfl
  | cons move rest ih =>
    obtain ⟨hnext, hrest⟩ := List.isChain_cons.1 hlinked
    rw [List.map_cons, List.map_cons, List.zip_cons_cons, ih hnext hrest, hfirst move rfl]

/-- A history that is a trace is faithful. -/
theorem Trace.faithful {chart : Chart} {history : History} {last : String}
    (h : Trace chart history.moves last) : history.Faithful chart := by
  refine ⟨fun first hfirst => h.source_first hfirst, h.isChain, fun move => h.exists_way,
    fun hne => ?_⟩
  obtain ⟨first, hfirst⟩ : ∃ first, history.moves.head? = some first :=
    Option.isSome_iff_exists.1 (by simpa using hne)
  have hpath : history.path = rootName :: history.moves.map (·.target) := by
    simp [History.path, hfirst, h.source_first hfirst]
  refine ⟨?_, ?_⟩
  · rw [hpath, List.length_cons, List.length_map]
    rfl
  · rw [hpath, List.tail_cons]
    exact zip_targets (fun first hfirst => h.source_first hfirst) h.isChain

namespace Machine

variable {machine : Machine} {chart : Chart} {config : Config}

/-- The history is a trace, which ends at the active state unless the machine is stopped. -/
structure Traced (machine : Machine) : Prop where
  /-- The stack follows the active path. -/
  aligned : machine.Aligned
  /-- The history is a trace to the active state. -/
  trace : ∃ last, Trace machine.chart machine.history.moves last
    ∧ (machine.fault = none → machine.chart.Lineage last machine.stack.states)

/-- A step adds one move to the history at most. -/
theorem Aligned.advance_history (haligned : machine.Aligned) :
    machine.advance.machine.history.moves = machine.history.moves
      ∨ ∃ move, machine.advance.machine.history.moves = machine.history.moves ++ [move] := by
  have htakes := haligned.takes_advance
  generalize machine.advance = step at htakes
  cases htakes with
  | refused => exact Or.inl rfl
  | stopped =>
    refine Or.inl ?_
    show (machine.stop _).history.moves = _
    rw [stop_history]
  | barred =>
    refine Or.inl ?_
    show (Machine.stop _ _).history.moves = _
    rw [stop_history]
  | @entered state target way =>
    refine Or.inr ⟨⟨state.name, way.target, way.name⟩, ?_⟩
    rw [act_history]
    rfl

namespace Traced

/-- A new machine has an empty trace, which ends at the root. -/
theorem new {chart : Chart} (htree : chart.Tree) (config : Config) :
    (Machine.new chart config).Traced :=
  ⟨.new htree config, rootName, .start, fun _ => htree.root_lineage⟩

/-- After a reset the trace is empty and ends at the root. -/
theorem reset (h : machine.Traced) : machine.reset.Traced :=
  ⟨h.aligned.reset, rootName, .start, fun _ => h.aligned.tree.root_lineage⟩

/-- A stop keeps the trace. It need not end at the active state any more. -/
theorem stop (h : machine.Traced) (cause : Fault) : (machine.stop cause).Traced := by
  obtain ⟨last, htrace, -⟩ := h.trace
  refine ⟨h.aligned.stop cause, last, ?_, fun hfault => ?_⟩
  · rw [stop_chart, stop_history]
    exact htrace
  · exact absurd hfault (stop_fault_ne_none machine cause)

/-- A trace that ends at the active state ends at the innermost state of the stack. -/
theorem exists_current (h : machine.Traced) (hfault : machine.fault = none) :
    ∃ state, machine.current? = some state ∧ Trace machine.chart machine.history.moves state.name
      ∧ machine.chart.Lineage state.name machine.stack.states := by
  obtain ⟨last, htrace, hlast⟩ := h.trace
  obtain ⟨state, hcurrent, -, hpath⟩ := h.aligned.exists_current
  have hsame : some state.name = some last := by
    rw [← hpath.getLast?, (hlast hfault).getLast?]
  cases hsame
  exact ⟨state, hcurrent, htrace, hpath⟩

/-- A step keeps the history a trace to the active state. -/
theorem advance (h : machine.Traced) : machine.advance.machine.Traced := by
  have haligned := h.aligned
  refine ⟨haligned.advance, ?_⟩
  rw [haligned.advance_chart]
  obtain ⟨last, htrace, hlast⟩ := h.trace
  have htakes := haligned.takes_advance
  generalize machine.advance = step at htakes
  cases htakes with
  | refused => exact ⟨last, htrace, hlast⟩
  | stopped =>
    show ∃ last, Trace machine.chart (machine.stop _).history.moves last ∧ _
    rw [stop_history]
    exact ⟨last, htrace, fun hfault => absurd hfault (stop_fault_ne_none _ _)⟩
  | barred =>
    show ∃ last, Trace machine.chart (Machine.stop _ _).history.moves last ∧ _
    rw [stop_history]
    exact ⟨last, htrace, fun hfault => absurd hfault (stop_fault_ne_none _ _)⟩
  | @entered state target way calls hchosen hinner =>
    -- The trace before the step ends at the state that the transition leaves.
    obtain ⟨state', hcurrent, hbefore, -⟩ :=
      h.exists_current (fault_eq_none_of_active hchosen.active)
    rw [hchosen.current] at hcurrent
    cases hcurrent
    have hget := (haligned.lineage_current hchosen.current).1
    obtain ⟨targetPath, htarget⟩ := haligned.tree.rooted _ _ hchosen.there
    refine ⟨way.target, ?_, fun _ => ?_⟩
    · rw [act_history]
      exact .move hbefore hget hchosen.mem hinner
    · rw [states_act]
      show machine.chart.Lineage way.target (machine.opened state.name way.target).states
      rw [haligned.states_opened hchosen.current hchosen.there htarget hchosen.near]
      exact htarget

end Traced

/-- On a tree every reached machine is traced. -/
theorem Reached.traced (htree : chart.Tree) (h : Reached chart config machine) :
    machine.Traced :=
  h.invariant (.new htree config) (fun _ htraced => htraced.advance)
    (fun _ cause htraced => htraced.stop cause) (fun _ htraced => htraced.reset)

/-- Take a machine that steps, runs and resets lead to on a built chart, stopped or not. Its
history is a faithful trace of the run since the machine was made or last reset, and a step
adds one move to it at most. Unless the machine is stopped, it is idle exactly if no move has
been made, and otherwise the state that the last move entered is active. -/
theorem history_traces_run (hbuilt : chart.Built) (hreached : Reached chart config machine) :
    machine.history.Faithful chart
      ∧ (machine.advance.machine.history.moves = machine.history.moves
        ∨ ∃ move, machine.advance.machine.history.moves = machine.history.moves ++ [move])
      ∧ (machine.status ≠ .fatal →
        (machine.status = .idle ↔ machine.history.moves = [])
          ∧ ∀ last, machine.history.moves.getLast? = some last →
            ∃ state, machine.current? = some state ∧ state.name = last.target) := by
  have htree := hbuilt.tree
  have htraced := hreached.traced htree
  obtain ⟨rfl, haligned⟩ := hreached.aligned htree
  obtain ⟨_, htrace, -⟩ := htraced.trace
  refine ⟨htrace.faithful, haligned.advance_history, fun hstatus => ?_⟩
  have hfault := fault_eq_none hstatus
  obtain ⟨state, hcurrent, hends, hpath⟩ := htraced.exists_current hfault
  refine ⟨?_, fun last hlast => ⟨state, hcurrent, ?_⟩⟩
  · calc machine.status = .idle
        ↔ machine.stack.states.length ≤ 1 := by
          rw [status_eq_idle_iff hfault, ScopeStack.length_states]
      _ ↔ state.name = rootName := htree.length_le_one_iff hpath
      _ ↔ machine.history.moves = [] := hends.eq_root_iff
  · rw [hends.eq_last, hlast]
    rfl

/-- Two states that lead to each other. -/
def pendulum : Chart :=
  [Chart.Addition.start (State.new "left" [.always "tick" "right" none]) none,
    .plain (State.new "right" [.always "tock" "left" none]) none].foldl Chart.perform Chart.new

/-- A run that is stopped at its limit of steps, a reset and two steps. -/
def pendulumMachine : Machine :=
  match (Machine.new pendulum { maxSteps := some 3 }).runToEnd? 0 with
  | some taken => taken.machine.reset.advance.machine.advance.machine
  | none => Machine.new pendulum {}

/-- After the reset the history begins at the root again. -/
theorem pendulum_history :
    pendulumMachine.history.moves
        = [⟨"global", "left", "Always global->left"⟩, ⟨"left", "right", "tick"⟩]
      ∧ pendulumMachine.history.Faithful pendulum
      ∧ ∃ state, pendulumMachine.current? = some state ∧ state.name = "right" := by
  have hlimit : ∃ taken,
      (Machine.new pendulum { maxSteps := some 3 }).runToEnd? 0 = some taken
        ∧ pendulumMachine = taken.machine.reset.advance.machine.advance.machine := ⟨_, rfl, rfl⟩
  obtain ⟨taken, hrun, hmachine⟩ := hlimit
  have hreached : Reached pendulum { maxSteps := some 3 } pendulumMachine := by
    rw [hmachine]
    exact .advance (.advance (.reset (.run .new hrun)))
  have hmoves : pendulumMachine.history.moves
      = [⟨"global", "left", "Always global->left"⟩, ⟨"left", "right", "tick"⟩] := rfl
  obtain ⟨hfaithful, -, hactive⟩ := history_traces_run (Or.inl ⟨_, rfl⟩) hreached
  obtain ⟨-, hlast⟩ := hactive (by decide)
  exact ⟨hmoves, hfaithful, hlast ⟨"left", "right", "tick"⟩ (by rw [hmoves]; rfl)⟩

end Machine

end Statechart
