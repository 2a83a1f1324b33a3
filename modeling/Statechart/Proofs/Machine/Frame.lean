import Statechart.Proofs.Machine.Causes
import Statechart.Proofs.Machine.Law
import Statechart.Proofs.Writes

/-!
# `Statechart.Proofs.Machine.Frame`: what a step leaves as it was

A step runs one action at most, and the call of it shows which one and on which stack
(`entry?`). So the writes of a step are data (`written`), and `Entry.frames_advance` says what
they do: after a step that enters a state, each scope is what it was when the state was entered,
overlaid by the writes that went there.

`frame_law` spells this out for the scopes of the stack. Scopes are counted from the outermost
one, which has the number 0. If there are just two after the step, the scope around that of the
entered state is the outermost one, so writes to the parent and results meet there.
-/

set_option autoImplicit false

namespace Statechart

namespace Machine

variable {chart : Chart} {config : Config} {machine : Machine} {state target : State}
  {way : Transition}

/-! ### The action of a step -/

/-- The action that the next step runs, and the stack that it finds. The call shows the name of
the transition, and no other way out of the active state has this name. -/
def entry? (machine : Machine) : Option (Action × ScopeStack) := do
  let call ← machine.advance.calls.find? (·.role = .entryAction)
  let state ← machine.current?
  let way ← state.transitions.find? (·.name = call.transition)
  let action ← way.action
  pure (action, call.stack)

/-- The parameters of the action that the next step runs. -/
def entryParams (machine : Machine) : Dict Value :=
  match machine.entry? with
  | none => Dict.empty
  | some (action, _) => action.params

/-- The writes that this action makes itself, once its parameters are stored. -/
def entryWrites (machine : Machine) : List Write :=
  match machine.entry? with
  | none => []
  | some (action, stack) => action.script.writes (action.stored stack)

/-- All writes of the next step, those of the parameters first. -/
def written (machine : Machine) : List Write :=
  match machine.entry? with
  | none => []
  | some (action, stack) => action.program.writes stack

/-- Among calls of guards there is none of an entry action. -/
theorem find?_guards {calls : List Call} (hguards : ∀ call ∈ calls, call.role = .guard) :
    calls.find? (·.role = .entryAction) = none := by
  rw [List.find?_eq_none]
  intro call hcall
  simp [hguards call hcall]

/-- A step that calls nothing but guards writes nothing. -/
theorem entry?_eq_none (hguards : ∀ call ∈ machine.advance.calls, call.role = .guard) :
    machine.entry? = none := by
  unfold entry?
  rw [find?_guards hguards]
  rfl

/-- A transition is found by its name. -/
theorem find?_name {transitions : List Transition}
    (hdistinct : (transitions.map (·.name)).Nodup) (hway : way ∈ transitions) :
    transitions.find? (·.name = way.name) = some way := by
  induction transitions with
  | nil => cases hway
  | cons first rest ih =>
    obtain ⟨hfresh, hrest⟩ := List.nodup_cons.1 hdistinct
    rcases List.mem_cons.1 hway with rfl | hway
    · simp
    · have hne : first.name ≠ way.name := by
        intro heq
        exact hfresh (List.mem_map.2 ⟨way, hway, heq.symm⟩)
      simp [hne, ih hrest hway]

/-- The action is called behind the guards. -/
theorem act_calls (machine : Machine) (calls : List Call) (way : Transition) (move : Move) :
    (machine.act calls way move).calls = match way.action with
      | none => calls
      | some action => calls ++ [⟨.entryAction, way.name, machine.stack, machine.history.size,
          (action.run machine.stack).2.notes⟩] := by
  unfold act
  cases way.action with
  | none => rfl
  | some action =>
    simp only
    split <;> rfl

/-- The action leaves the stack behind, whether it succeeds or not. -/
theorem act_stack (machine : Machine) (calls : List Call) (way : Transition) (move : Move) :
    (machine.act calls way move).machine.stack = match way.action with
      | none => machine.stack
      | some action => (action.run machine.stack).1 := by
  rw [act_machine]
  cases way.action with
  | none => rfl
  | some action =>
    simp only
    split
    · rfl
    · exact stop_stack _ _

/-- The action that is run is that of the transition, and it finds the stack that was opened. -/
theorem Aligned.entry?_eq (haligned : machine.Aligned) (hchosen : machine.Chosen state way target)
    {calls : List Call} {move : Move} (hguards : ∀ call ∈ calls, call.role = .guard)
    (hstep : machine.advance = (machine.entering state.name way).act calls way move) :
    machine.entry?
      = way.action.map fun action => (action, machine.opened state.name way.target) := by
  have hsound := haligned.tree.sound _ _ (haligned.lineage_current hchosen.current).1
  have hfound := find?_name hsound.distinct hchosen.mem
  unfold entry?
  rw [hstep, act_calls]
  cases haction : way.action with
  | none =>
    simp only [find?_guards hguards]
    rfl
  | some action =>
    simp [find?_guards hguards, hchosen.current, hfound, haction, entering]

/-! ### A step that enters a state -/

/-- The step leaves the state by the transition and enters its target. -/
structure Entry (machine : Machine) (state : State) (way : Transition) : Prop where
  /-- The scopes that stay are outer ones, that of the root among them, and the target gets an
  empty one. -/
  opened : ∃ kept, kept ≠ [] ∧ kept <+: machine.stack.frames.reverse
    ∧ (machine.opened state.name way.target).frames.reverse = kept ++ [⟨way.target, Dict.empty⟩]
  /-- The action that is run is that of the transition. -/
  action : machine.entry?
    = way.action.map fun action => (action, machine.opened state.name way.target)
  /-- The stack is what the action has made of the opened one. -/
  stack : machine.advance.machine.stack = match way.action with
    | none => machine.opened state.name way.target
    | some action => (action.run (machine.opened state.name way.target)).1
  /-- The move is added to the history. -/
  history : machine.advance.machine.history
    = machine.history.record ⟨state.name, way.target, way.name⟩

/-- A step enters a state, or it writes nothing, adds no move, and keeps all scopes or that of
the root. -/
theorem Aligned.entry_cases (haligned : machine.Aligned) :
    (∃ state way, machine.Entry state way)
      ∨ machine.entry? = none ∧ machine.advance.machine.history = machine.history
        ∧ (machine.advance.machine.stack = machine.stack
          ∨ machine.advance.machine.stack = machine.stack.truncate 1) := by
  have htakes := haligned.takes_advance
  generalize hstep : machine.advance = step at htakes
  cases htakes with
  | refused =>
    refine Or.inr ⟨entry?_eq_none ?_, rfl, Or.inl rfl⟩
    rw [hstep]
    simp
  | stopped _ _ hguards =>
    refine Or.inr ⟨entry?_eq_none ?_, stop_history _ _, Or.inl (stop_stack _ _)⟩
    rw [hstep]
    exact hguards
  | barred _ _ hguards =>
    refine Or.inr ⟨entry?_eq_none ?_, stop_history _ _, Or.inr (stop_stack _ _)⟩
    rw [hstep]
    exact hguards
  | @entered state target way calls hchosen hinner _ hguards =>
    obtain ⟨targetPath, htarget⟩ := haligned.tree.rooted _ _ hchosen.there
    obtain ⟨kept, hbefore, -, hframes⟩ := haligned.exists_kept hchosen.current htarget
    have hdepth := haligned.two_le_depth_entering hchosen hinner
    -- If no scope stayed, the target's would be the only one; but the root has one, and the target
    -- is another state.
    have hkept : kept ≠ [] := by
      rintro rfl
      have hlength := congrArg List.length hframes
      have hshort : (machine.opened state.name way.target).depth = 1 := by
        simpa [ScopeStack.depth] using hlength
      have hlong : 2 ≤ (machine.opened state.name way.target).depth := hdepth
      omega
    refine Or.inl ⟨state, way, ⟨kept, hkept, hbefore, hframes⟩,
      haligned.entry?_eq hchosen hguards hstep, ?_, ?_⟩
    · rw [hstep, act_stack]
      rfl
    · rw [hstep, act_history]
      rfl

namespace Entry

/-- As many scopes as the target finds are left. -/
theorem depth_eq (h : machine.Entry state way) :
    machine.advance.machine.stack.depth = (machine.opened state.name way.target).depth := by
  rw [h.stack, ← ScopeStack.length_states, ← ScopeStack.length_states]
  split
  · rfl
  · rw [Action.states_run]

/-- Besides the scope of the target there is that of the root at least. -/
theorem two_le_depth (h : machine.Entry state way) :
    2 ≤ machine.advance.machine.stack.depth := by
  obtain ⟨kept, hkept, -, hframes⟩ := h.opened
  have hlength := congrArg List.length hframes
  have hpositive := List.length_pos_iff.2 hkept
  rw [List.length_reverse, List.length_append, List.length_singleton] at hlength
  rw [h.depth_eq, ScopeStack.depth]
  omega

/-- After the step each scope is what it was when the target was entered, overlaid by the writes
that went there. -/
theorem frames_advance (h : machine.Entry state way) (position : Nat) :
    machine.advance.machine.stack.frames.reverse[position]?
      = ((machine.opened state.name way.target).frames.reverse[position]?).map fun frame =>
          frame.overlaid (Write.entriesAt position machine.written) := by
  rw [h.stack]
  cases haction : way.action with
  | none =>
    have hnone : machine.entry? = none := by rw [h.action, haction]; rfl
    simp [written, hnone, Frame.overlaid]
  | some action =>
    have hsome : machine.entry? = some (action, machine.opened state.name way.target) := by
      rw [h.action, haction]
      rfl
    simp only [written, hsome]
    exact Script.frames_run _ _ _

/-- A scope that stays is the one from before the step, overlaid by the writes. -/
theorem frames_of_lt (h : machine.Entry state way) (position : Nat)
    (hposition : position + 1 < machine.advance.machine.stack.depth) :
    ∃ frame, machine.stack.frames.reverse[position]? = some frame
      ∧ machine.advance.machine.stack.frames.reverse[position]?
        = some (frame.overlaid (Write.entriesAt position machine.written)) := by
  obtain ⟨kept, -, hbefore, hframes⟩ := h.opened
  have hlength := congrArg List.length hframes
  rw [List.length_reverse, List.length_append, List.length_singleton] at hlength
  rw [h.depth_eq, ScopeStack.depth] at hposition
  -- The new scope is the last one, so a number below its own is that of a scope that stays.
  have hkept : position < kept.length := by omega
  refine ⟨kept[position], ?_, ?_⟩
  · obtain ⟨inner, hinner⟩ := hbefore
    rw [← hinner, List.getElem?_append_left hkept, List.getElem?_eq_getElem hkept]
  · rw [h.frames_advance, hframes, List.getElem?_append_left hkept,
      List.getElem?_eq_getElem hkept]
    rfl

/-- The writes of a step are those of the parameters and those of the script. -/
theorem written_eq (h : machine.Entry state way) :
    machine.written = machine.entryParams.entries.map (fun entry =>
        ⟨.head entry.1, entry.2, machine.advance.machine.stack.depth⟩)
      ++ machine.entryWrites := by
  have hdepth := h.two_le_depth
  rw [h.depth_eq] at hdepth ⊢
  unfold written entryParams entryWrites
  rw [h.action]
  cases way.action with
  | none => rfl
  | some action => exact action.writes_program (by omega)

/-- All writes of a step are made when the scope of the target is open. -/
theorem depth_of_mem_written (h : machine.Entry state way) {write : Write}
    (hwrite : write ∈ machine.written) :
    write.depth = machine.advance.machine.stack.depth := by
  rw [h.depth_eq]
  unfold written at hwrite
  rw [h.action] at hwrite
  cases haction : way.action with
  | none =>
    rw [haction] at hwrite
    cases hwrite
  | some action =>
    rw [haction] at hwrite
    exact Script.depth_of_mem_writes _ hwrite

/-- A write to a scope that stays is the script's, and it goes to the scope around the innermost
one or to that of the root. -/
theorem outer_write (h : machine.Entry state way) {write : Write}
    (hwrite : write ∈ machine.written) {position : Nat} {key : String}
    (hplace : write.place = (position, key))
    (hposition : position + 1 < machine.advance.machine.stack.depth) :
    write ∈ machine.entryWrites
      ∧ (write.target = .parent key ∧ position = machine.advance.machine.stack.depth - 2
        ∨ write.target = .result ∧ position = 0 ∧ key = resultKey) := by
  have hdepth := h.depth_of_mem_written hwrite
  -- The parameters go to the innermost scope, like everything that is put there.
  have hscript : ∀ name, write.target ≠ .head name := by
    intro name htarget
    simp only [Write.place, htarget, Prod.mk.injEq] at hplace
    omega
  rw [h.written_eq] at hwrite
  rcases List.mem_append.1 hwrite with hparam | hwrite
  · obtain ⟨entry, -, rfl⟩ := List.mem_map.1 hparam
    exact absurd rfl (hscript entry.1)
  · refine ⟨hwrite, ?_⟩
    cases htarget : write.target with
    | head name => exact absurd htarget (hscript name)
    | parent name =>
      simp only [Write.place, htarget, Prod.mk.injEq] at hplace
      exact Or.inl ⟨by rw [hplace.2], by omega⟩
    | result =>
      simp only [Write.place, htarget, Prod.mk.injEq] at hplace
      exact Or.inr ⟨rfl, hplace.1.symm, hplace.2.symm⟩

/-- A variable of a scope that stays differs from before only if the script wrote it. -/
theorem exists_of_differs (h : machine.Entry state way) {position : Nat}
    (hposition : position + 1 < machine.advance.machine.stack.depth) {frame : Frame}
    {key : String}
    (hdiffers : (frame.overlaid (Write.entriesAt position machine.written)).scope.get? key
      ≠ frame.scope.get? key) :
    ∃ write ∈ machine.entryWrites,
      write.target = .parent key ∧ position = machine.advance.machine.stack.depth - 2
        ∨ write.target = .result ∧ position = 0 ∧ key = resultKey := by
  -- If no write went to the variable, then overlaying the writes leaves it alone.
  by_contra hnone
  refine hdiffers (Dict.get?_overlaid_of_forall_ne _ fun entry hentry hkey => hnone ?_)
  obtain ⟨write, hwrite, hplace, -⟩ := Write.exists_of_mem_entriesAt hentry
  rw [hkey] at hplace
  obtain ⟨hscript, htarget⟩ := h.outer_write hwrite hplace hposition
  exact ⟨write, hscript, htarget⟩

/-- The scope of the target holds the parameters, overlaid by what the script put there. -/
theorem head?_eq (h : machine.Entry state way) :
    machine.advance.machine.stack.head?
      = some ⟨way.target, machine.entryParams.overlaid (Write.puts machine.entryWrites)⟩ := by
  have hdepth := h.two_le_depth
  -- The last of the scopes gets the parameters first and then what the script puts there.
  have hentries : Write.entriesAt (machine.advance.machine.stack.depth - 1) machine.written
      = machine.entryParams.entries ++ Write.puts machine.entryWrites := by
    rw [Write.entriesAt_head hdepth fun write hwrite => h.depth_of_mem_written hwrite,
      h.written_eq]
    simp [Write.puts, List.filterMap_append, List.filterMap_map]
  obtain ⟨kept, -, -, hframes⟩ := h.opened
  have hlength := congrArg List.length hframes
  rw [List.length_reverse, List.length_append, List.length_singleton] at hlength
  have hlast : machine.advance.machine.stack.depth - 1 = kept.length := by
    rw [h.depth_eq, ScopeStack.depth]
    omega
  have hframe := h.frames_advance (machine.advance.machine.stack.depth - 1)
  rw [hentries, hframes, hlast, List.getElem?_concat_length, Option.map_some, ← hlast,
    ScopeStack.depth, ← List.length_reverse, ← List.getLast?_eq_getElem?,
    List.getLast?_reverse] at hframe
  refine hframe.trans ?_
  rw [Frame.overlaid_append]
  simp only [Frame.overlaid, Dict.empty_overlaid]

end Entry

/-- What a step that enters `target` leaves of the scopes, and what it makes of them, given the
parameters of the action and the writes of its script. Scopes are counted from the outermost
one. -/
structure Framed (before after : ScopeStack) (params : Dict Value) (writes : List Write)
    (target : String) : Prop where
  /-- Besides the scope of the target there is that of the root at least. -/
  depth : 2 ≤ after.depth
  /-- The scopes between that of the root and the one around the target's are unchanged. -/
  between : ∀ position, 1 ≤ position → position + 3 ≤ after.depth →
    after.frames.reverse[position]? = before.frames.reverse[position]?
  /-- The scope around the target's is the one from before, but for what was put into the parent
  and, if it is that of the root, the result. -/
  around : ∃ old new, before.frames.reverse[after.depth - 2]? = some old
    ∧ after.frames.reverse[after.depth - 2]? = some new ∧ new.state = old.state
    ∧ ∀ key, new.scope.get? key ≠ old.scope.get? key →
      ∃ write ∈ writes, write.target = .parent key
        ∨ write.target = .result ∧ after.depth = 2 ∧ key = resultKey
  /-- If the scope of the root is further out, it is the one from before, but for the result. -/
  outermost : 2 < after.depth → ∃ old new, before.frames.reverse[0]? = some old
    ∧ after.frames.reverse[0]? = some new ∧ new.state = old.state
    ∧ ∀ key, new.scope.get? key ≠ old.scope.get? key →
      key = resultKey ∧ ∃ write ∈ writes, write.target = .result
  /-- The scope of the target holds the parameters, overlaid by what was put there. -/
  head : after.head? = some ⟨target, params.overlaid (Write.puts writes)⟩

/-- A step that enters a state changes the scopes that stay by the writes of its action alone, and
opens one for the target. -/
theorem Entry.framed (h : machine.Entry state way) :
    Framed machine.stack machine.advance.machine.stack machine.entryParams machine.entryWrites
      way.target := by
  have hdepth := h.two_le_depth
  refine ⟨hdepth, ?_, ?_, ?_, h.head?_eq⟩
  · intro position hfirst hlast
    obtain ⟨frame, hbefore, hafter⟩ := h.frames_of_lt position (by omega)
    -- A write that goes neither to the last scope nor to the one around it is a result, and that
    -- goes to the root.
    have hnone : Write.entriesAt position machine.written = [] := by
      refine List.eq_nil_iff_forall_not_mem.2 fun entry hentry => ?_
      obtain ⟨write, hwrite, hplace, -⟩ := Write.exists_of_mem_entriesAt hentry
      obtain ⟨-, htarget⟩ := h.outer_write hwrite hplace (by omega)
      omega
    rw [hafter, hbefore, hnone]
    rfl
  · obtain ⟨frame, hbefore, hafter⟩ :=
      h.frames_of_lt (machine.advance.machine.stack.depth - 2) (by omega)
    refine ⟨frame, _, hbefore, hafter, rfl, fun key hdiffers => ?_⟩
    obtain ⟨write, hwrite, htarget⟩ := h.exists_of_differs (by omega) hdiffers
    refine ⟨write, hwrite, ?_⟩
    rcases htarget with ⟨hparent, -⟩ | ⟨hresult, hzero, hkey⟩
    · exact Or.inl hparent
    · exact Or.inr ⟨hresult, by omega, hkey⟩
  · intro hlonger
    obtain ⟨frame, hbefore, hafter⟩ := h.frames_of_lt 0 (by omega)
    refine ⟨frame, _, hbefore, hafter, rfl, fun key hdiffers => ?_⟩
    obtain ⟨write, hwrite, htarget⟩ := h.exists_of_differs (by omega) hdiffers
    rcases htarget with ⟨-, hzero⟩ | ⟨hresult, -, hkey⟩
    · omega
    · exact ⟨hkey, write, hwrite, hresult⟩

/-- Take a machine that steps, runs and resets lead to on a built chart, and a step of it that
adds a move to the history, whether it succeeds then or not. The scopes are framed by the
parameters of the action that the step runs and by the writes that its script makes, which are
those up to its failure if it fails. The scope of the target begins empty, so nothing of a closed
scope is left in it. -/
theorem frame_law (hbuilt : chart.Built) (hreached : Reached chart config machine) {move : Move}
    (hentered : machine.advance.machine.history.moves = machine.history.moves ++ [move]) :
    Framed machine.stack machine.advance.machine.stack machine.entryParams machine.entryWrites
      move.target := by
  obtain ⟨-, haligned⟩ := hreached.aligned hbuilt.tree
  rcases haligned.entry_cases with ⟨state, way, hentry⟩ | ⟨-, hsame, -⟩
  · have hmove : move = ⟨state.name, way.target, way.name⟩ := by
      rw [hentry.history] at hentered
      simpa [History.record] using hentered.symm
    rw [hmove]
    exact hentry.framed
  · -- A step that enters no state adds no move.
    rw [hsame] at hentered
    simp at hentered

/-- Start states inside each other, and beside the innermost one a state whose action writes in
all ways and then fails. -/
def workshop : Chart :=
  [Chart.Addition.start (State.new "a" []) none, .start (State.new "b" []) (some "a"),
    .start (State.new "c" [.always "go" "d" (some ⟨Dict.empty.insert "tool" (.bool true),
      .put (.head "tool") (.bool false) (.put (.parent "seen") (.bool true)
        (.put .result (.bool true) (.fail (.plain "jammed"))))⟩)]) (some "b"),
    .plain (State.new "d" []) (some "b")].foldl Chart.perform Chart.new

/-- The action replaces its parameter and fails with four scopes open. Each of its three writes
is seen in its own scope, and the scope in between is as it was. -/
theorem workshop_frame :
    ∃ machine, Reached workshop {} machine ∧ machine.advance.machine.stack.depth = 4
      ∧ machine.advance.machine.status = .fatal
      ∧ machine.entryParams.get? "tool" = some (.bool true)
      ∧ Write.puts machine.entryWrites = [("tool", .bool false)]
      ∧ machine.advance.machine.stack.frames.reverse.map
          (fun frame => (frame.state, frame.scope.entries))
        = [(rootName, [("result", .bool true)]), ("a", []), ("b", [("seen", .bool true)]),
            ("d", [("tool", .bool false)])]
      ∧ Framed machine.stack machine.advance.machine.stack machine.entryParams
          machine.entryWrites "d" := by
  have hreached : Reached workshop {} _ := Reached.new.advance.advance.advance
  exact ⟨_, hreached, rfl, by decide, rfl, rfl, rfl, frame_law (Or.inl ⟨_, rfl⟩) hreached rfl⟩

end Machine

end Statechart
