import Statechart.Proofs.Chart.Built
import Statechart.Proofs.Chart.SelfReference
import Statechart.Proofs.Machine.Reach

/-!
# `Statechart.Proofs.Machine.Untaken`: steps that are not taken

A step that fails without adding a move to the history is not taken. All that can go wrong
up to there goes wrong before a scope is closed, with one exception: the scope of the root
is never closed, so it cannot be opened again, and this comes to light only when all other
scopes are closed already. `untaken_step_law` says so of all reached machines. In the one
case the dump that is kept with the fault shows the scope of the root alone, and not the
scopes in which the step failed (`homeward_scope_lost`).

The case arises below the root only, because the root is left for its start substate.
-/

set_option autoImplicit false

namespace Statechart

namespace Machine

variable {chart : Chart} {config : Config} {machine : Machine}

/-- A machine that heads for the root has left it before. -/
theorem Aligned.running_of_headsForRoot (haligned : machine.Aligned)
    (hgrown : machine.chart.Grown) (hheads : machine.HeadsForRoot) :
    machine.status = .running := by
  obtain ⟨state, way, target, hchosen, hroot⟩ := hheads
  rcases hchosen.active with hidle | hrunning
  · -- With one scope the root is active, and none of its ways out leads back to it.
    obtain ⟨hget, hpath⟩ := haligned.lineage_current hchosen.current
    have hdepth : machine.stack.states.length ≤ 1 := by
      rw [ScopeStack.length_states]
      exact (status_eq_idle_iff (fault_eq_none_of_active hchosen.active)).1 hidle
    rw [(haligned.tree.length_le_one_iff hpath).1 hdepth] at hget
    exact absurd hroot (hgrown.target_ne_root hget hchosen.mem)
  · exact hrunning

/-- Take a machine that steps, runs and resets lead to on a built chart, and a step that fails
without adding a move to the history. Unless the one open transition leads to the root, the
step changes nothing but the fault of the machine: one that could take steps keeps the cause
together with the dumps of the stack and history as they were before the step, and any other
keeps what it had. If the one open transition leads to the root, then there was another scope
than that of the root; the step closes all those scopes first, and the dump shows what is
left. -/
theorem untaken_step_law (hbuilt : chart.Built) (hreached : Reached chart config machine)
    {cause : Fault} (hfailed : machine.advance.result = .error cause)
    (huntaken : machine.advance.machine.history = machine.history) :
    (¬ machine.HeadsForRoot → machine.advance.machine = { machine with
        fault := if machine.isActive then
            some (.fatal cause (machine.stack.outline.render 0)
              (machine.history.outline.render 0))
          else machine.fault })
      ∧ (machine.HeadsForRoot → cause = .runtime (.pushFailed rootName)
        ∧ 1 < machine.stack.depth
        ∧ machine.advance.machine = { machine with
            stack := machine.stack.truncate 1
            fault := some (.fatal cause ((machine.stack.truncate 1).outline.render 0)
              (machine.history.outline.render 0)) }) := by
  obtain ⟨rfl, haligned⟩ := hreached.aligned hbuilt.tree
  constructor
  · intro hinner
    have htakes := haligned.takes_advance
    generalize machine.advance = step at htakes hfailed huntaken ⊢
    cases htakes with
    | refused hstatus => rw [if_neg (not_isActive hstatus)]
    | stopped hactive =>
      cases hfailed
      show machine.stop cause = _
      rw [stop_eq (fault_eq_none_of_active hactive), if_pos (isActive_iff.2 hactive)]
    | barred hchosen hroot => exact absurd ⟨_, _, _, hchosen, hroot⟩ hinner
    | entered =>
      -- Once the target is entered, the move is in the history, whatever the action does.
      rw [act_history] at huntaken
      have hlonger := congrArg (fun history => history.moves.length) huntaken
      simp [entering, History.record] at hlonger
  · intro hheads
    have hrunning := haligned.running_of_headsForRoot hbuilt.grown hheads
    have hfault := fault_eq_none_of_active (Or.inr hrunning)
    obtain ⟨state, way, target, hchosen, hroot⟩ := hheads
    rw [haligned.advance_eq_fail hrunning hchosen hroot] at hfailed ⊢
    cases hfailed
    refine ⟨rfl, one_lt_depth hrunning, ?_⟩
    show Machine.stop _ _ = _
    rw [stop_eq]
    exact hfault

/-- A start state with a transition back to the root. -/
def homing : Chart :=
  [Chart.Addition.start (State.new "a" [.always "back" "global" none]) none].foldl
    Chart.perform Chart.new

/-- A machine whose one open transition leads to the root. -/
def homeward : Machine :=
  (Machine.new homing {}).advance.machine

/-- A start state whose only transition is closed. -/
def cove : Chart :=
  [Chart.Addition.start (State.new "bay"
      [⟨"sail", "sea", .ofCondition "wind" (.const false), none⟩]) none,
    .plain (State.new "sea" []) none].foldl Chart.perform Chart.new

/-- A machine that has no open transition to take. -/
def becalmed : Machine :=
  (Machine.new cove {}).advance.machine

/-- The step to the root fails and leaves the scope of the root. A step without an open transition
fails too; it leaves all scopes, and the dump that is kept shows them. -/
theorem homeward_untaken :
    (1 < homeward.stack.depth
      ∧ homeward.advance.machine.stack = homeward.stack.truncate 1
      ∧ homeward.advance.result = .error (.runtime (.pushFailed "global")))
      ∧ becalmed.advance.result = .error (.runtime (.allClosed "bay"))
      ∧ becalmed.stack.states = ["global", "bay"]
      ∧ becalmed.advance.machine = { becalmed with
          fault := some (.fatal (.runtime (.allClosed "bay"))
            (becalmed.stack.outline.render 0) (becalmed.history.outline.render 0)) } := by
  constructor
  · have hbuilt : homing.Built := Or.inl ⟨_, rfl⟩
    have hreached : Reached homing {} homeward := .advance .new
    have hfailed : homeward.advance.result = .error (.runtime (.pushFailed "global")) := rfl
    have hheads : homeward.HeadsForRoot := by
      refine ⟨⟨"a", some "global", none, [.always "back" "global" none]⟩,
        .always "back" "global" none, ⟨"global", none, some "a", [State.entry "global" "a"]⟩,
        ⟨Or.inr (by decide), rfl, ?_, rfl, rfl, Or.inl (by decide)⟩, rfl⟩
      intro way hway
      rw [List.mem_singleton.1 hway]
      exact ⟨true, rfl⟩
    obtain ⟨-, hbarred⟩ := untaken_step_law hbuilt hreached hfailed rfl
    obtain ⟨-, hdepth, hafter⟩ := hbarred hheads
    refine ⟨hdepth, ?_, hfailed⟩
    rw [hafter]
  · have hbuilt : cove.Built := Or.inl ⟨_, rfl⟩
    have hreached : Reached cove {} becalmed := .advance .new
    have hfailed : becalmed.advance.result = .error (.runtime (.allClosed "bay")) := rfl
    have hactive : becalmed.isActive = true := by decide
    -- Nothing is chosen, as the one way out is closed.
    have hinner : ¬ becalmed.HeadsForRoot := by
      rintro ⟨state, way, target, hchosen, -⟩
      have hcurrent : becalmed.current? = some ⟨"bay", some "global", none,
          [⟨"sail", "sea", .ofCondition "wind" (.const false), none⟩]⟩ := rfl
      rw [hchosen.current] at hcurrent
      cases hcurrent
      cases hchosen.only
    obtain ⟨hkept, -⟩ := untaken_step_law hbuilt hreached hfailed rfl
    refine ⟨hfailed, rfl, ?_⟩
    rw [hkept hinner, if_pos hactive]

/-- A step can fail without adding a move to the history and close a scope. -/
theorem homeward_scope_lost :
    homing.Built
      ∧ Reached homing {} homeward
      ∧ homeward.advance.result = .error (.runtime (.pushFailed "global"))
      ∧ homeward.advance.machine.history = homeward.history
      ∧ homeward.stack.states = ["global", "a"]
      ∧ homeward.advance.machine.stack.states = ["global"] :=
  ⟨Or.inl ⟨_, rfl⟩, .advance .new, rfl, rfl, rfl, rfl⟩

end Machine

end Statechart
