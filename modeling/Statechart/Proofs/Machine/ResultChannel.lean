import Statechart.Proofs.Machine.Frame
import Statechart.Proofs.Machine.Reach

/-!
# `Statechart.Proofs.Machine.ResultChannel`: where results come from

The result of a run is a variable of the outermost scope, and inner scopes may have variables
of that name too. `Write.given?` says which writes count. A write that is meant as the result
does, wherever it is made. So does one to the variable of that name in the parent, if the state
that is entered is directly below the root, as its parent's scope is the outermost one.

`Given` lists the values that were given to a machine like this since its last reset, step by
step. A run takes the steps that `stepping` lists, which are those that it calls its callbacks
for (`calls_continue?`). `Aligned.result?_advance` is the step
lemma: the scope of the root stays in every step, and it shows the last value that the step
gives, or what it showed before. `Aligned.result?_continue?` takes it along a run, and
`Given.result?_eq` along all calls.
-/

set_option autoImplicit false

namespace Statechart

/-- The value that a write gives as the result of the run, if `parent` is the parent of the
state that is entered. -/
def Write.given? (parent : Option String) (write : Write) : Option Value :=
  match write.target with
  | .head _ => none
  | .parent key => if key = resultKey ∧ parent = some rootName then some write.value else none
  | .result => some write.value

/-- What the outermost scope has as the result. -/
def ScopeStack.result? (stack : ScopeStack) : Option Value :=
  stack.outermost?.bind fun frame => frame.scope.get? resultKey

/-- The outermost scope is the first one when scopes are counted from outside. -/
theorem ScopeStack.result?_eq (stack : ScopeStack) :
    stack.result? = stack.frames.reverse[0]?.bind fun frame => frame.scope.get? resultKey := by
  unfold result? outermost?
  rw [← List.head?_eq_getElem?, List.head?_reverse]

/-- The last entry of a name is the first one from behind. -/
theorem lookup_reverse {α : Type} (entries : List (String × α)) (key : String) :
    entries.reverse.lookup key
      = (entries.filterMap fun entry =>
          if entry.1 = key then some entry.2 else none).getLast? := by
  induction entries with
  | nil => rfl
  | cons entry rest ih =>
    obtain ⟨name, value⟩ := entry
    rw [List.reverse_cons, List.lookup_append, ih]
    -- The first entry counts only if no later one has its name.
    by_cases h : name = key
    · subst h
      cases hlast : (rest.filterMap fun entry =>
        if entry.1 = name then some entry.2 else none).getLast? <;>
        simp [List.getLast?_cons, hlast]
    · have hbeq : (key == name) = false := by simpa using Ne.symm h
      simp [h, List.lookup_cons, hbeq]

/-- The outermost of several scopes shows the last of the values that are given as results. The
scope around the innermost one is the outermost one if there are two. -/
theorem Write.lookup_entriesAt_zero {writes : List Write} {depth : Nat} {parent : Option String}
    (hdepth : 2 ≤ depth) (hparent : parent = some rootName ↔ depth = 2)
    (hwrites : ∀ write ∈ writes, write.depth = depth) :
    (entriesAt 0 writes).reverse.lookup resultKey
      = (writes.filterMap (given? parent)).getLast? := by
  rw [lookup_reverse, entriesAt, List.filterMap_filterMap]
  refine congrArg List.getLast? (List.filterMap_congr fun write hwrite => ?_)
  have hsame := hwrites write hwrite
  cases htarget : write.target with
  | head key =>
    have hinner : depth - 1 ≠ 0 := by omega
    simp [entryAt?, place, given?, htarget, hsame, hinner]
  | parent key =>
    -- The scope around the innermost one is that of the root exactly if there are two.
    by_cases htwo : depth = 2
    · simp [entryAt?, place, given?, htarget, hsame, htwo, hparent.2 htwo]
    · have hinner : depth - 2 ≠ 0 := by omega
      have hbelow : parent ≠ some rootName := fun hroot => htwo (hparent.1 hroot)
      simp [entryAt?, place, given?, htarget, hsame, hinner, hbelow]
  | result => simp [entryAt?, place, given?, htarget]

/-- A state has two states on its lineage exactly if it is directly below the root. -/
theorem Chart.Tree.length_eq_two_iff {chart : Chart} {name : String} {state : State}
    {path : List String} (htree : chart.Tree) (hpath : chart.Lineage name path)
    (hget : chart.get? name = some state) :
    path.length = 2 ↔ state.parent = some rootName := by
  cases hpath with
  | top hget' hparent =>
    rw [hget] at hget'
    cases hget'
    simp [hparent]
  | @under _ parent _ above hget' hparent habove =>
    rw [hget] at hget'
    cases hget'
    have hone := htree.length_le_one_iff habove
    have hpositive := List.length_pos_iff.2 habove.ne_nil
    rw [hparent, Option.some.injEq, ← hone, List.length_append, List.length_singleton]
    omega

namespace Machine

variable {chart : Chart} {config : Config} {machine : Machine} {values : List Value}

/-- The values that the next step gives as the result of the run, in order. -/
def given (machine : Machine) : List Value :=
  machine.written.filterMap
    (Write.given? (machine.advance.machine.current?.bind (·.parent)))

/-- The machines that take the steps of a run that has taken some already, as long as it takes
no more than `patience` further ones. -/
def stepping : (patience : Nat) → (steps : Nat) → Machine → List Machine
  | 0, _, _ => []
  | patience + 1, steps, machine =>
    match machine.ending? steps with
    | some _ => []
    | none =>
      match machine.advance.result with
      | .error _ => [machine]
      | .ok _ => machine :: stepping patience (steps + 1) machine.advance.machine

/-- The values that a run gives as its result, in order. -/
def givenByRun (machine : Machine) (patience : Nat) : List Value :=
  (stepping (machine.config.maxSteps.getD patience) 0 machine).flatMap given

/-- The values that were given as results since the last reset, in order. -/
inductive Given (chart : Chart) (config : Config) : Machine → List Value → Prop where
  /-- No values are given to a new machine. -/
  | new : Given chart config (Machine.new chart config) []
  /-- A step gives its values, successful or not. -/
  | advance {machine : Machine} {values : List Value} (h : Given chart config machine values) :
      Given chart config machine.advance.machine (values ++ machine.given)
  /-- A run gives those of its steps. -/
  | run {machine : Machine} {values : List Value} {patience : Nat} {taken : RunTaken}
      (h : Given chart config machine values)
      (hrun : machine.runToEnd? patience = some taken) :
      Given chart config taken.machine (values ++ machine.givenByRun patience)
  /-- After a reset no values are given. -/
  | reset {machine : Machine} {values : List Value} (h : Given chart config machine values) :
      Given chart config machine.reset []

/-- The calls that give values are those that lead to reached machines. -/
theorem Given.reached (h : Given chart config machine values) :
    Reached chart config machine := by
  induction h with
  | new => exact .new
  | advance _ ih => exact ih.advance
  | run _ hrun ih => exact ih.run hrun
  | reset _ ih => exact ih.reset

/-- Calls give some values. -/
theorem Reached.exists_given (h : Reached chart config machine) :
    ∃ values, Given chart config machine values := by
  induction h with
  | new => exact ⟨_, .new⟩
  | advance _ ih =>
    obtain ⟨values, hvalues⟩ := ih
    exact ⟨_, hvalues.advance⟩
  | run _ hrun ih =>
    obtain ⟨values, hvalues⟩ := ih
    exact ⟨_, hvalues.run hrun⟩
  | reset _ ih =>
    obtain ⟨values, hvalues⟩ := ih
    exact ⟨_, hvalues.reset⟩

/-- What holds of every run that ends and of the machines that take its steps: it is enough to
look at the end, at a failing step, and at a step before the rest of a run. -/
theorem stepping_rule {P : Machine → List Machine → RunTaken → Prop}
    (hended : ∀ (machine : Machine) (taken : RunTaken), taken.calls = [] →
      taken.machine.stack = machine.stack → P machine [] taken)
    (hfailed : ∀ (machine : Machine) (fault : Fault),
      P machine [machine] ⟨machine.advance.machine, machine.advance.calls, .error fault⟩)
    (hstep : ∀ (machine : Machine) (others : List Machine) (rest : RunTaken),
      P machine.advance.machine others rest →
      P machine (machine :: others) { rest with calls := machine.advance.calls ++ rest.calls })
    {patience steps : Nat} {taken : RunTaken}
    (hrun : continue? patience steps machine = some taken) :
    P machine (stepping patience steps machine) taken := by
  -- A run that ends takes no further step, whether it is completed or stopped at its limit.
  have hending : ∀ (steps : Nat) (machine : Machine) (taken : RunTaken),
      machine.ending? steps = some taken → P machine [] taken := by
    intro steps machine taken hend
    rcases ending?_cases hend with ⟨-, rfl⟩ | ⟨limit, -, -, -, rfl⟩
    · exact hended _ _ rfl rfl
    · exact hended _ _ rfl (stop_stack _ _)
  induction patience generalizing steps machine taken with
  | zero => exact hending steps machine taken hrun
  | succ patience ih =>
    unfold stepping
    cases hend : machine.ending? steps with
    | some ended =>
      simp only [continue?, hend, Option.some.injEq] at hrun
      subst hrun
      exact hending steps machine ended hend
    | none =>
      rcases continue?_succ_cases hrun with
        hsome | ⟨-, ⟨fault, hfault, rfl⟩ | ⟨move, rest, hmove, hrest, rfl⟩⟩
      · rw [hend] at hsome
        cases hsome
      · simp only [hfault]
        exact hfailed machine fault
      · simp only [hmove]
        exact hstep machine _ rest (ih hrest)

/-- The callbacks of a run are those of its steps. -/
theorem calls_continue? {patience steps : Nat} {taken : RunTaken}
    (hrun : continue? patience steps machine = some taken) :
    taken.calls = (stepping patience steps machine).flatMap (·.advance.calls) := by
  refine stepping_rule (P := fun _ steps taken =>
    taken.calls = steps.flatMap (·.advance.calls)) ?_ ?_ ?_ hrun
  · exact fun machine taken hcalls _ => hcalls
  · intro machine fault
    simp
  · intro machine others rest ih
    simp [ih]

/-! ### What the outermost scope shows -/

/-- After a step the outermost scope shows the last value that the step gives, or what it showed
before. -/
theorem Aligned.result?_advance (haligned : machine.Aligned) :
    machine.advance.machine.stack.result?
      = machine.given.getLast?.or machine.stack.result? := by
  rcases haligned.entry_cases with ⟨state, way, hentry⟩ | ⟨hnone, -, hkept⟩
  · have hdepth := hentry.two_le_depth
    obtain ⟨frame, hbefore, hafter⟩ := hentry.frames_of_lt 0 (by omega)
    obtain ⟨entered, hcurrent, hget, hpath⟩ := haligned.advance.exists_current
    -- The parent of the entered state is the root exactly if just two scopes are open.
    have hparent : machine.advance.machine.current?.bind (·.parent) = some rootName
        ↔ machine.advance.machine.stack.depth = 2 := by
      rw [hcurrent, Option.bind_some,
        ← haligned.advance.tree.length_eq_two_iff hpath hget, ScopeStack.length_states]
    rw [ScopeStack.result?_eq, ScopeStack.result?_eq, hafter, hbefore]
    show (frame.scope.overlaid (Write.entriesAt 0 machine.written)).get? resultKey = _
    rw [Dict.get?_overlaid, Write.lookup_entriesAt_zero hdepth hparent
      fun write hwrite => hentry.depth_of_mem_written hwrite]
    rfl
  · -- A step that enters no state gives no value, and the scope of the root stays as it was.
    have hgiven : machine.given = [] := by simp [given, written, hnone]
    rw [hgiven]
    show _ = machine.stack.result?
    rcases hkept with hsame | hroot
    · rw [hsame]
    · rw [hroot, ScopeStack.result?_eq, ScopeStack.result?_eq,
        ScopeStack.reverse_frames_truncate, List.getElem?_take_of_lt Nat.zero_lt_one]

/-- After a run the outermost scope shows the last value that its steps give, or what it showed
before. -/
theorem Aligned.result?_continue? {patience steps : Nat} {taken : RunTaken}
    (haligned : machine.Aligned) (hrun : continue? patience steps machine = some taken) :
    taken.machine.stack.result?
      = ((stepping patience steps machine).flatMap given).getLast?.or machine.stack.result? := by
  refine stepping_rule (P := fun machine steps taken => machine.Aligned →
    taken.machine.stack.result?
      = (steps.flatMap given).getLast?.or machine.stack.result?) ?_ ?_ ?_ hrun haligned
  · intro machine taken _ hstack _
    rw [hstack]
    rfl
  · intro machine fault haligned
    rw [List.flatMap_singleton]
    exact haligned.result?_advance
  · intro machine others rest ih haligned
    -- The last value of the rest counts, and before that the last one of this step.
    rw [List.flatMap_cons, List.getLast?_append, Option.or_assoc,
      ← haligned.result?_advance]
    exact ih haligned.advance

/-- The outermost scope shows the last value that was given since the last reset. -/
theorem Given.result?_eq (htree : chart.Tree) (h : Given chart config machine values) :
    machine.stack.result? = values.getLast? := by
  induction h with
  | new => rfl
  | advance h ih =>
    rw [(h.reached.aligned htree).2.result?_advance, ih, List.getLast?_append]
  | run h hrun ih =>
    rw [(h.reached.aligned htree).2.result?_continue? hrun, ih, List.getLast?_append]
    rfl
  | reset => rfl

/-- The result of a completed machine is what the outermost scope has as the result. -/
theorem Aligned.result_eq (haligned : machine.Aligned) (hstatus : machine.status = .completed) :
    machine.result = match machine.stack.result? with
      | some value => .ok value
      | none => .error (.keyNotFound resultKey) := by
  obtain ⟨head, hpath⟩ := haligned.path
  have hroot : machine.stack.outermost?.map (·.state) = some rootName := by
    rw [ScopeStack.map_state_outermost?, haligned.tree.head?_eq_root hpath]
  obtain ⟨frame, hframe, -⟩ := Option.map_eq_some_iff.1 hroot
  simp only [result, hstatus, hframe, ScopeStack.result?, Option.bind_some]
  rfl

/-- Take a machine that steps, runs and resets lead to on a built chart, and the values that
were given as results since the last reset. The outermost scope shows the last of them at any
time. Once the machine is completed, this value is its result, and without such values there is
none. -/
theorem result_law (hbuilt : chart.Built) (hreached : Reached chart config machine) :
    (∃ values, Given chart config machine values)
      ∧ ∀ values, Given chart config machine values →
        machine.stack.result? = values.getLast?
          ∧ (machine.status = .completed → machine.result = match values.getLast? with
            | some value => .ok value
            | none => .error (.keyNotFound resultKey)) := by
  refine ⟨hreached.exists_given, fun values hvalues => ?_⟩
  have hshown := hvalues.result?_eq hbuilt.tree
  refine ⟨hshown, fun hcompleted => ?_⟩
  rw [(hreached.aligned hbuilt.tree).2.result_eq hcompleted, hshown]

/-- An action that writes variables of the name of the result, as a parameter and in the two
innermost scopes. -/
def scribble (around : Bool) : Action :=
  ⟨Dict.empty.insert resultKey (.str "draft"),
    .put (.head resultKey) (.str "note") (.put (.parent resultKey) (.bool around) .done)⟩

/-- The action is run on the way to a state directly below the root, and again two levels below
the root. Then the run ends in another state directly below the root. -/
def relay : Chart :=
  [Chart.Addition.start (State.new "a" [.always "go" "b" (some (scribble true))]) none,
    .plain (State.new "b" []) none,
    .start (State.new "c" [.always "dig" "d" (some (scribble false))]) (some "b"),
    .plain (State.new "d" [.always "leave" "e" none]) (some "b"),
    .plain (State.new "e" []) none].foldl Chart.perform Chart.new

/-- Of the six writes only one gives a value as the result. It stays the result when the inner
scopes are closed. -/
theorem relay_result :
    ∃ machine, Given relay {} machine [.bool true] ∧ machine.status = .completed
      ∧ machine.stack.states = [rootName, "e"] ∧ machine.result = .ok (.bool true) := by
  have hrun : (Machine.new relay {}).runToEnd? 9 = some _ := rfl
  have hgiven : Given relay {} _ _ := Given.new.run hrun
  have hcompleted := (result_law (Or.inl ⟨_, rfl⟩) hgiven.reached).2 _ hgiven
  exact ⟨_, hgiven, by decide, rfl, hcompleted.2 (by decide)⟩

end Machine

end Statechart
