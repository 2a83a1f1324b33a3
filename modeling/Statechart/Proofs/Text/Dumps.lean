import Mathlib.Logic.Function.Iterate
import Statechart.Machine.Advance
import Statechart.Machine.Dump
import Statechart.Proofs.Chart.Growth
import Statechart.Proofs.Text.Lines

/-!
# `Statechart.Proofs.Text.Dumps`: dumps compose

A dump is an `Outline` that is rendered as a whole. The same dump can be written piece by piece to
the end of a buffer (`Writing`): a line may be begun by one piece and ended by a later one, and the
dump of a part stands in the middle of the dump of the whole. For each thing that can be dumped,
`dump` writes it in this way, and leaves its rendered outline behind what was in the buffer
(`appends_dump`).

A dump has a line for each line of its outline, if no name and no key has a line break
(`Unbroken`). Strings need no such condition, as they are quoted. Then a dump that is put one level
deeper is the same text with every line indented by one tab, so dumps can be put into other dumps
at any depth. `dump_law` says this of all that can be dumped; a machine that was stopped is left
out, since its dump holds a whole fault.
-/

set_option autoImplicit false

namespace Statechart

/-- Work that writes to the end of a buffer. -/
abbrev Writing := StateM String Unit

namespace Writing

/-- Appends a text. -/
def put (text : String) : Writing :=
  modify (· ++ text)

/-- Appends a line at a level. -/
def line (level : Nat) (text : String) : Writing :=
  put (indentation level ++ text ++ "\n")

/-- The work appends a text to whatever is in the buffer. -/
def Appends (work : Writing) (text : String) : Prop :=
  ∀ buffer, work.run buffer = ((), buffer ++ text)

end Writing

open Writing

/-! ### Dumps, piece by piece -/

/-- Writes the dump of a scope. -/
def Scope.dump (scope : Scope) (level : Nat) : Writing :=
  if scope.isEmpty then line level "(empty)"
  else scope.entries.forM fun entry => line level (entry.1 ++ ": " ++ entry.2.display)

/-- Writes the dump of a stack, the outermost scope first. -/
def ScopeStack.dump (stack : ScopeStack) (level : Nat) : Writing :=
  if stack.frames.isEmpty then line level "(empty)"
  else stack.frames.reverse.forM fun frame => do
    line level ("> state: \"" ++ frame.state ++ "\"")
    frame.scope.dump (level + 1)

/-- Writes the dump of a history. -/
def History.dump (history : History) (level : Nat) : Writing :=
  if history.isEmpty then line level "(empty)"
  else history.moves.forM fun move =>
    line level ("from: " ++ move.source ++ ", to: " ++ move.target ++ ", transition: "
      ++ move.transition)

/-- Writes what happens on a transition. -/
def Action.dump : Option Action → Writing
  | none => put "no action"
  | some action =>
    if action.params.isEmpty then put "has action (no params)"
    else do
      put "has action ("
      action.params.entries.forM fun entry => put (" " ++ entry.1 ++ "=" ++ entry.2.display)
      put " )"

/-- Writes the dump of a transition, which is part of a line. -/
def Transition.dump (transition : Transition) : Writing := do
  put ("name: \"" ++ transition.name ++ "\", to: \"" ++ transition.target ++ "\", guard: "
    ++ transition.guard.display ++ ", ")
  Action.dump transition.action

namespace State

/-- Writes the parent of a state. -/
def dumpParent : Option String → Writing
  | some parent => put ("\"" ++ parent ++ "\"")
  | none => put "none"

/-- Writes the start substate of a state, if there is one. -/
def dumpStart : Option String → Writing
  | some start => put (", start substate: \"" ++ start ++ "\"")
  | none => pure ()

/-- Writes the transitions of a state, each in a line, or a line that says that there are none. -/
def dumpWays (ways : List Transition) (level : Nat) : Writing :=
  if ways.isEmpty then line level "no transitions"
  else ways.forM fun way => do
    put (indentation level)
    way.dump
    put "\n"

/-- Writes the dump of a state. The first line is ended together with the second one. -/
def dump (state : State) (level : Nat) : Writing := do
  put (indentation level ++ "> name: \"" ++ state.name ++ "\", parent: ")
  dumpParent state.parent
  dumpStart state.startSubstate
  put ("\n" ++ indentation level ++ "transitions:" ++ "\n")
  dumpWays state.transitions (level + 1)

end State

/-- Writes the dump of a chart. -/
def Chart.dump (chart : Chart) (level : Nat) : Writing :=
  if chart.isEmpty then line level "no states"
  else chart.states.values.forM fun state => state.dump level

/-- Writes the dump of a machine. -/
def Machine.dump (machine : Machine) (level : Nat) : Writing := do
  line level "finite state machine dump"
  line level "> states:"
  machine.chart.dump (level + 1)
  line level "> status:"
  Status.all.forM fun status => line (level + 1)
    (status.name ++ ": " ++ if machine.status = status then "true" else "false")
  line level "> history:"
  machine.history.dump (level + 1)
  line level "> context stack:"
  machine.stack.dump (level + 1)
  line level "> status info"
  line (level + 1) machine.statusLine

/-! ### What dumps append -/

section Appends

variable {work next : Writing} {text more : String} {first second : Outline} {level : Nat}

/-- Putting a text appends it. -/
theorem appends_put (text : String) : (put text).Appends text :=
  fun _ => rfl

/-- What is appended may be spelled in another way. -/
theorem Writing.Appends.of_eq (h : work.Appends text) (heq : text = more) : work.Appends more :=
  heq ▸ h

/-- Two works in a row append their texts in a row. -/
theorem Writing.Appends.andThen (h : work.Appends text) (hnext : next.Appends more) :
    Appends (do work; next) (text ++ more) := by
  intro buffer
  -- The second work starts on the buffer that the first one leaves.
  rw [StateT.run_bind, h buffer]
  show next.run (buffer ++ text) = _
  rw [hnext, String.append_assoc]

/-- A loop appends the texts of its rounds. -/
theorem appends_forM {α : Type} {xs : List α} {work : α → Writing} {text : α → String}
    (h : ∀ x, (work x).Appends (text x)) :
    Appends (xs.forM work) (String.join (xs.map text)) := by
  induction xs with
  | nil =>
    intro buffer
    show ((), buffer) = _
    simp
  | cons x xs ih =>
    rw [List.map_cons, String.join_cons]
    exact (h x).andThen ih

/-- A line is an outline of its own, at its depth. -/
theorem appends_line (depth : Nat) (text : String) :
    (line (level + depth) text).Appends (Outline.render level [⟨depth, text⟩]) := by
  rw [Outline.render_cons, Outline.render_nil, String.append_empty]
  exact appends_put _

/-- Two works that write outlines at one level write the one below the other. -/
theorem Writing.Appends.followed (h : work.Appends (first.render level))
    (hnext : next.Appends (second.render level)) :
    Appends (do work; next) (Outline.render level (first ++ second)) := by
  rw [Outline.render_append]
  exact h.andThen hnext

/-- What is written one level deeper is a nested outline. -/
theorem Writing.Appends.nested (h : work.Appends (first.render (level + 1))) :
    work.Appends (first.nested.render level) := by
  rw [Outline.render_nested]
  exact h

/-- A loop whose rounds write outlines writes them one below the other. -/
theorem appends_flatMap {α : Type} {xs : List α} {work : α → Writing} {outline : α → Outline}
    (h : ∀ x, (work x).Appends ((outline x).render level)) :
    Appends (xs.forM work) (Outline.render level (xs.flatMap outline)) := by
  rw [Outline.render_flatMap]
  exact appends_forM h

/-- A loop that writes a line in each round. -/
theorem appends_lines (depth : Nat) {α : Type} (xs : List α) (text : α → String) :
    Appends (xs.forM fun x => line (level + depth) (text x))
      (Outline.render level (xs.map fun x => ⟨depth, text x⟩)) := by
  rw [List.map_eq_flatMap]
  exact appends_flatMap fun x => appends_line depth (text x)

end Appends

/-- The dump of a scope, written variable by variable, is its rendered outline. -/
theorem Scope.appends_dump (scope : Scope) (level : Nat) :
    (scope.dump level).Appends (scope.outline.render level) := by
  unfold Scope.dump Scope.outline
  split
  · exact appends_line 0 _
  · exact appends_lines 0 _ _

/-- The dump of a stack is its rendered outline: for each scope there is a line with the name of
its state, and the dump of the scope stands one level deeper. -/
theorem ScopeStack.appends_dump (stack : ScopeStack) (level : Nat) :
    (stack.dump level).Appends (stack.outline.render level) := by
  unfold ScopeStack.dump ScopeStack.outline
  split
  · exact appends_line 0 _
  · exact appends_flatMap fun frame =>
      (appends_line 0 _).followed (frame.scope.appends_dump (level + 1)).nested

/-- The dump of a history, written move by move, is its rendered outline. -/
theorem History.appends_dump (history : History) (level : Nat) :
    (history.dump level).Appends (history.outline.render level) := by
  unfold History.dump History.outline
  split
  · exact appends_line 0 _
  · exact appends_lines 0 _ _

/-- What is written about an action is the text that a line has about it. The parameters are
written one by one. -/
theorem Action.appends_dump (action : Option Action) :
    (Action.dump action).Appends (Transition.actionSummary action) := by
  cases action with
  | none => exact appends_put _
  | some action =>
    simp only [Action.dump, Transition.actionSummary]
    split
    · exact appends_put _
    · have hparams : Appends (action.params.entries.forM fun entry =>
            put (" " ++ entry.1 ++ "=" ++ entry.2.display))
          (String.join (action.params.entries.map fun entry =>
            " " ++ entry.1 ++ "=" ++ entry.2.display)) :=
        appends_forM fun _ => appends_put _
      rw [String.append_assoc]
      exact (appends_put _).andThen (hparams.andThen (appends_put _))

/-- The pieces of a transition are the text of its line. -/
theorem Transition.appends_dump (transition : Transition) :
    transition.dump.Appends transition.summary :=
  (appends_put _).andThen (Action.appends_dump transition.action)

namespace State

/-- What a dump says about a parent. -/
def parentText : Option String → String
  | some parent => "\"" ++ parent ++ "\""
  | none => "none"

/-- What a dump says about a start substate. -/
def startText : Option String → String
  | some start => ", start substate: \"" ++ start ++ "\""
  | none => ""

/-- What a dump says about transitions. -/
def waysOutline (ways : List Transition) : Outline :=
  if ways.isEmpty then [⟨1, "no transitions"⟩]
  else ways.map fun way => ⟨1, way.summary⟩

/-- The outline of a state in the parts in which it is written: a line with its links, and its
transitions below. -/
theorem outline_eq (state : State) :
    state.outline
      = ⟨0, "> name: \"" ++ state.name ++ "\", parent: " ++ parentText state.parent
          ++ startText state.startSubstate⟩
        :: ⟨0, "transitions:"⟩ :: waysOutline state.transitions :=
  rfl

/-- The piece for the parent is what the line says about it. -/
theorem appends_dumpParent (parent : Option String) :
    (dumpParent parent).Appends (parentText parent) := by
  cases parent <;> exact appends_put _

/-- The piece for the start substate is what the line says about it. Without one nothing is
written. -/
theorem appends_dumpStart (start : Option String) :
    (dumpStart start).Appends (startText start) := by
  cases start with
  | none =>
    intro buffer
    show ((), buffer) = ((), buffer ++ "")
    rw [String.append_empty]
  | some start => exact appends_put _

/-- The transitions are written one level below the state. No line is written as a whole here: each
is begun, filled and ended. -/
theorem appends_dumpWays (ways : List Transition) (level : Nat) :
    (dumpWays ways (level + 1)).Appends ((waysOutline ways).render level) := by
  unfold dumpWays waysOutline
  split
  · exact appends_line 1 _
  · rw [List.map_eq_flatMap]
    refine appends_flatMap fun way => ?_
    -- The line is begun, the transition is written into it, and the line is ended.
    have hline := (appends_put (indentation (level + 1))).andThen
      (way.appends_dump.andThen (appends_put "\n"))
    rw [Outline.render_cons, Outline.render_nil, String.append_empty, String.append_assoc]
    exact hline

/-- The dump of a state is its rendered outline. -/
theorem appends_dump (state : State) (level : Nat) :
    (state.dump level).Appends (state.outline.render level) := by
  have hname := appends_put (indentation level ++ "> name: \"" ++ state.name ++ "\", parent: ")
  have hbreak := appends_put ("\n" ++ indentation level ++ "transitions:" ++ "\n")
  have hwork := hname.andThen <| (appends_dumpParent state.parent).andThen <|
    (appends_dumpStart state.startSubstate).andThen <|
    hbreak.andThen (appends_dumpWays state.transitions level)
  -- The first line is ended by the piece that writes the second one, so the pieces are no lines
  -- and the texts are compared as a whole.
  refine hwork.of_eq ?_
  simp only [outline_eq, Outline.render_cons, String.append_assoc, Nat.add_zero]

end State

/-- The dump of a chart, written state by state, is its rendered outline. -/
theorem Chart.appends_dump (chart : Chart) (level : Nat) :
    (chart.dump level).Appends (chart.outline.render level) := by
  unfold Chart.dump Chart.outline
  split
  · exact appends_line 0 _
  · exact appends_flatMap fun state => state.appends_dump level

/-- The dump of a machine is its rendered outline. The dumps of the chart, the history and the
stack are written in between, one level deeper. -/
theorem Machine.appends_dump (machine : Machine) (level : Nat) :
    (machine.dump level).Appends (machine.outline.render level) := by
  have hhead : (line level "finite state machine dump").Appends
      (Outline.render level [⟨0, "finite state machine dump"⟩]) := appends_line 0 _
  have hwork := hhead.followed <| (appends_line 0 "> states:").followed <|
    (machine.chart.appends_dump (level + 1)).nested.followed <|
    (appends_line 0 "> status:").followed <|
    (appends_lines 1 Status.all fun status =>
      status.name ++ ": " ++ if machine.status = status then "true" else "false").followed <|
    (appends_line 0 "> history:").followed <|
    (machine.history.appends_dump (level + 1)).nested.followed <|
    (appends_line 0 "> context stack:").followed <|
    (machine.stack.appends_dump (level + 1)).nested.followed <|
    (appends_line 0 "> status info").followed (appends_line 1 machine.statusLine)
  -- The work is grouped from its end, the outline from its beginning.
  simp only [Machine.outline, List.append_assoc]
  exact hwork

/-! ### Names and keys without line breaks -/

/-- No key has a line break. -/
def Dict.Unbroken {α : Type} (d : Dict α) : Prop :=
  ∀ key ∈ d.keys, OneLine key

/-- The states of the scopes and their variables have no line breaks in their names. -/
def ScopeStack.Unbroken (stack : ScopeStack) : Prop :=
  ∀ frame ∈ stack.frames, OneLine frame.state ∧ frame.scope.Unbroken

/-- The names in a history have no line breaks. -/
def History.Unbroken (history : History) : Prop :=
  ∀ move ∈ history.moves, OneLine move.source ∧ OneLine move.target ∧ OneLine move.transition

/-- The key of a guard has no line break. -/
def Guard.Unbroken : Guard → Prop
  | contextEquals key _ => OneLine key
  | always | custom _ => True

/-- The names of a transition, the key of its guard and its parameters have no line breaks. -/
structure Transition.Unbroken (transition : Transition) : Prop where
  /-- The name has no line break. -/
  name : OneLine transition.name
  /-- Neither has the target. -/
  target : OneLine transition.target
  /-- Neither has the key that the guard compares. -/
  guard : transition.guard.Unbroken
  /-- Neither have the names of the parameters, if there is an action. -/
  params : ∀ action ∈ transition.action, action.params.Unbroken

/-- The names of a state and its transitions have no line breaks. -/
structure State.Unbroken (state : State) : Prop where
  /-- The name has no line break. -/
  name : OneLine state.name
  /-- Neither has the name of the parent, if there is one. -/
  parent : ∀ parent ∈ state.parent, OneLine parent
  /-- Neither has the name of the start substate, if there is one. -/
  start : ∀ start ∈ state.startSubstate, OneLine start
  /-- Neither have the names of the transitions. -/
  ways : ∀ way ∈ state.transitions, way.Unbroken

/-- The names of the states have no line breaks. -/
def Chart.Unbroken (chart : Chart) : Prop :=
  ∀ state ∈ chart.states.values, state.Unbroken

/-- The names in a machine have no line breaks. -/
structure Machine.Unbroken (machine : Machine) : Prop where
  /-- The names in the chart have no line breaks. -/
  chart : machine.chart.Unbroken
  /-- Neither have those in the history. -/
  history : machine.history.Unbroken
  /-- Neither have those in the scopes. -/
  stack : machine.stack.Unbroken

instance {α : Type} (d : Dict α) : Decidable d.Unbroken :=
  inferInstanceAs (Decidable (∀ _ ∈ _, _))

instance (stack : ScopeStack) : Decidable stack.Unbroken :=
  inferInstanceAs (Decidable (∀ frame ∈ stack.frames,
    OneLine frame.state ∧ frame.scope.Unbroken))

instance (history : History) : Decidable history.Unbroken :=
  inferInstanceAs (Decidable (∀ _ ∈ _, _))

instance : DecidablePred Guard.Unbroken
  | .contextEquals key _ => inferInstanceAs (Decidable (OneLine key))
  | .always | .custom _ => isTrue trivial

instance (transition : Transition) : Decidable transition.Unbroken :=
  decidable_of_iff (OneLine transition.name ∧ OneLine transition.target
      ∧ transition.guard.Unbroken ∧ ∀ action ∈ transition.action, action.params.Unbroken)
    ⟨fun ⟨name, target, guard, params⟩ => ⟨name, target, guard, params⟩,
      fun ⟨name, target, guard, params⟩ => ⟨name, target, guard, params⟩⟩

instance (state : State) : Decidable state.Unbroken :=
  decidable_of_iff (OneLine state.name ∧ (∀ parent ∈ state.parent, OneLine parent)
      ∧ (∀ start ∈ state.startSubstate, OneLine start) ∧ ∀ way ∈ state.transitions, way.Unbroken)
    ⟨fun ⟨name, parent, start, ways⟩ => ⟨name, parent, start, ways⟩,
      fun ⟨name, parent, start, ways⟩ => ⟨name, parent, start, ways⟩⟩

instance (chart : Chart) : Decidable chart.Unbroken :=
  inferInstanceAs (Decidable (∀ state ∈ chart.states.values, state.Unbroken))

instance (machine : Machine) : Decidable machine.Unbroken :=
  decidable_of_iff (machine.chart.Unbroken ∧ machine.history.Unbroken ∧ machine.stack.Unbroken)
    ⟨fun ⟨chart, history, stack⟩ => ⟨chart, history, stack⟩,
      fun ⟨chart, history, stack⟩ => ⟨chart, history, stack⟩⟩

/-! ### Lines of dumps -/

/-- One line is an outline without line breaks if its text has none. -/
theorem lined_line {depth : Nat} {text : String} (h : OneLine text) :
    Outline.Lined [⟨depth, text⟩] := by
  intro line hline
  rw [List.mem_singleton.1 hline]
  exact h

/-- Outlines of the members of a list, one below the other, have no line breaks in their lines if
none of them has. -/
theorem lined_flatMap {α : Type} {xs : List α} {outline : α → Outline}
    (h : ∀ x ∈ xs, (outline x).Lined) : Outline.Lined (xs.flatMap outline) := by
  intro line hline
  obtain ⟨x, hx, hline⟩ := List.mem_flatMap.1 hline
  exact h x hx line hline

/-- The same for lines at one depth. -/
theorem lined_map {α : Type} {xs : List α} {depth : Nat} {text : α → String}
    (h : ∀ x ∈ xs, OneLine (text x)) : Outline.Lined (xs.map fun x => ⟨depth, text x⟩) := by
  rw [List.map_eq_flatMap]
  exact lined_flatMap fun x hx => lined_line (h x hx)

/-- If no key has a line break, then the key of an entry has none. -/
theorem Dict.Unbroken.key {α : Type} {d : Dict α} (h : d.Unbroken) {entry : String × α}
    (hentry : entry ∈ d.entries) : OneLine entry.1 :=
  h entry.1 (List.mem_map_of_mem hentry)

/-- The lines of a scope have no line breaks: the names have none, and values are written in one
line. -/
theorem Scope.lined_outline {scope : Scope} (h : scope.Unbroken) : scope.outline.Lined := by
  unfold Scope.outline
  split
  · exact lined_line (by decide)
  · refine lined_map fun entry hentry => ?_
    simp only [oneLine_append]
    exact ⟨⟨h.key hentry, by decide⟩, entry.2.oneLine_display⟩

/-- The lines of a stack have no line breaks if its names have none. -/
theorem ScopeStack.lined_outline {stack : ScopeStack} (h : stack.Unbroken) :
    stack.outline.Lined := by
  unfold ScopeStack.outline
  split
  · exact lined_line (by decide)
  · refine lined_flatMap fun frame hframe => ?_
    obtain ⟨hstate, hscope⟩ := h frame (List.mem_reverse.1 hframe)
    have hhead : OneLine ("> state: \"" ++ frame.state ++ "\"") := by
      simp only [oneLine_append]
      exact ⟨⟨by decide, hstate⟩, by decide⟩
    exact (lined_line hhead).append (Scope.lined_outline hscope).nested

/-- The lines of a history have no line breaks if its names have none. -/
theorem History.lined_outline {history : History} (h : history.Unbroken) :
    history.outline.Lined := by
  unfold History.outline
  split
  · exact lined_line (by decide)
  · refine lined_map fun move hmove => ?_
    obtain ⟨hsource, htarget, htransition⟩ := h move hmove
    simp only [oneLine_append]
    exact ⟨⟨⟨⟨⟨by decide, hsource⟩, by decide⟩, htarget⟩, by decide⟩, htransition⟩

/-- A guard is described in one line. Only one that compares a variable has a name in its
description. -/
theorem Guard.oneLine_display {guard : Guard} (h : guard.Unbroken) : OneLine guard.display := by
  cases guard with
  | always => decide
  | contextEquals key expected =>
    simp only [display, oneLine_append]
    exact ⟨⟨⟨by decide, h⟩, by decide⟩, expected.oneLine_display⟩
  | custom test => exact (by decide : OneLine "custom")

/-- An action is described in one line if the names of its parameters have no line breaks. -/
theorem Transition.oneLine_actionSummary {action : Option Action}
    (h : ∀ given ∈ action, given.params.Unbroken) :
    OneLine (actionSummary action) := by
  cases action with
  | none => decide
  | some action =>
    simp only [actionSummary]
    split
    · decide
    · have hparams : OneLine (String.join (action.params.entries.map fun entry =>
          " " ++ entry.1 ++ "=" ++ entry.2.display)) := by
        refine oneLine_join fun text htext => ?_
        obtain ⟨entry, hentry, rfl⟩ := List.mem_map.1 htext
        simp only [oneLine_append]
        exact ⟨⟨⟨by decide, (h action rfl).key hentry⟩, by decide⟩, entry.2.oneLine_display⟩
      simp only [oneLine_append]
      exact ⟨⟨by decide, hparams⟩, by decide⟩

/-- A transition is described in one line if its names have no line breaks. -/
theorem Transition.oneLine_summary {transition : Transition} (h : transition.Unbroken) :
    OneLine transition.summary := by
  have hguard := Guard.oneLine_display h.guard
  have haction := oneLine_actionSummary h.params
  show OneLine ("name: \"" ++ transition.name ++ "\", to: \"" ++ transition.target
    ++ "\", guard: " ++ transition.guard.display ++ ", " ++ actionSummary transition.action)
  simp only [oneLine_append]
  exact ⟨⟨⟨⟨⟨⟨⟨by decide, h.name⟩, by decide⟩, h.target⟩, by decide⟩, hguard⟩, by decide⟩, haction⟩

/-- The lines of a state have no line breaks if its names have none, each in the part that it
stands in. -/
theorem State.lined_outline {state : State} (h : state.Unbroken) : state.outline.Lined := by
  have hparent : OneLine (parentText state.parent) := by
    unfold parentText
    split
    · next parent hparent =>
      simp only [oneLine_append]
      exact ⟨⟨by decide, h.parent parent hparent⟩, by decide⟩
    · decide
  have hstart : OneLine (startText state.startSubstate) := by
    unfold startText
    split
    · next start hstart =>
      simp only [oneLine_append]
      exact ⟨⟨by decide, h.start start hstart⟩, by decide⟩
    · decide
  have hways : (waysOutline state.transitions).Lined := by
    unfold waysOutline
    split
    · exact lined_line (by decide)
    · exact lined_map fun way hway => Transition.oneLine_summary (h.ways way hway)
  have hname : OneLine ("> name: \"" ++ state.name ++ "\", parent: " ++ parentText state.parent
      ++ startText state.startSubstate) := by
    simp only [oneLine_append]
    exact ⟨⟨⟨⟨by decide, h.name⟩, by decide⟩, hparent⟩, hstart⟩
  rw [outline_eq]
  exact (lined_line hname).append
    ((lined_line (by decide : OneLine "transitions:")).append hways)

/-- The lines of a chart have no line breaks if the names of its states have none. -/
theorem Chart.lined_outline {chart : Chart} (h : chart.Unbroken) : chart.outline.Lined := by
  unfold Chart.outline
  split
  · exact lined_line (by decide)
  · exact lined_flatMap fun state hstate => State.lined_outline (h state hstate)

/-- A completed machine lacks a result if the outermost scope has none, or if there is no scope at
all. -/
theorem Machine.result_eq_error {machine : Machine} {fault : Fault}
    (hstatus : machine.status = .completed) (h : machine.result = .error fault) :
    fault = .runtime .noGlobalScope ∨ fault = .keyNotFound resultKey := by
  simp only [Machine.result, hstatus] at h
  split at h
  · exact Or.inl (Except.error.inj h).symm
  · unfold View.raw at h
    split at h
    · cases h
    · exact Or.inr (Except.error.inj h).symm

/-- The line about the status is one line if the machine is not stopped. A completed machine gives
its result there, or says why it has none. -/
theorem Machine.oneLine_statusLine {machine : Machine} (h : machine.status ≠ .fatal) :
    OneLine machine.statusLine := by
  cases hstatus : machine.status with
  | idle =>
    simp only [statusLine, hstatus]
    decide
  | running =>
    simp only [statusLine, hstatus]
    show OneLine ("FSM is running, " ++ machine.history.size.repr ++ " transitions made")
    simp only [oneLine_append]
    exact ⟨⟨by decide, oneLine_repr _⟩, by decide⟩
  | fatal => exact absurd hstatus h
  | completed =>
    cases hresult : machine.result with
    | ok value =>
      simp only [statusLine, hstatus, hresult, oneLine_append]
      exact ⟨by decide, value.oneLine_display⟩
    | error fault =>
      -- Only two faults can be meant here. A fault with texts of the user could have several lines.
      have hmessage : OneLine fault.message := by
        rcases result_eq_error hstatus hresult with rfl | rfl
        · show OneLine ("FSM encountered runtime error: " ++ "context stack is empty")
          decide
        · show OneLine ("No such key in the context: \"" ++ resultKey ++ "\"")
          decide
      simp only [statusLine, hstatus, hresult, oneLine_append]
      exact ⟨by decide, hmessage⟩

/-- The lines of a machine that is not stopped have no line breaks if its names have none. -/
theorem Machine.lined_outline {machine : Machine} (h : machine.Unbroken)
    (hstatus : machine.status ≠ .fatal) : machine.outline.Lined := by
  have hstatuses : ∀ status : Status,
      OneLine (status.name ++ ": " ++ if machine.status = status then "true" else "false") := by
    intro status
    have hanswer : OneLine (if machine.status = status then "true" else "false") := by
      split <;> decide
    have hname : OneLine status.name := by
      cases status <;> decide
    simp only [oneLine_append]
    exact ⟨⟨hname, by decide⟩, hanswer⟩
  have hhead : Outline.Lined [⟨0, "finite state machine dump"⟩, ⟨0, "> states:"⟩] :=
    (lined_line (by decide : OneLine "finite state machine dump")).append (lined_line (by decide))
  have hinfo : Outline.Lined [⟨0, "> status info"⟩, ⟨1, machine.statusLine⟩] :=
    (lined_line (by decide : OneLine "> status info")).append
      (lined_line (Machine.oneLine_statusLine hstatus))
  exact hhead.append (Chart.lined_outline h.chart).nested
    |>.append (lined_line (by decide))
    |>.append (lined_map fun status _ => hstatuses status)
    |>.append (lined_line (by decide))
    |>.append (History.lined_outline h.history).nested
    |>.append (lined_line (by decide))
    |>.append (ScopeStack.lined_outline h.stack).nested
    |>.append hinfo

/-! ### No dump is empty -/

/-- The outline of an empty scope has a line that says so. -/
theorem Scope.outline_ne_nil (scope : Scope) : scope.outline ≠ [] := by
  unfold Scope.outline
  split
  · exact List.cons_ne_nil _ _
  · next hentries => exact mt List.map_eq_nil_iff.1 (mt List.isEmpty_iff.2 hentries)

/-- The outline of an empty history has a line that says so. -/
theorem History.outline_ne_nil (history : History) : history.outline ≠ [] := by
  unfold History.outline
  split
  · exact List.cons_ne_nil _ _
  · next hmoves => exact mt List.map_eq_nil_iff.1 (mt List.isEmpty_iff.2 hmoves)

/-- What is listed for at least one thing is not empty. -/
theorem flatMap_ne_nil {α : Type} {xs : List α} {outline : α → Outline} (hxs : xs ≠ [])
    (h : ∀ x, outline x ≠ []) : xs.flatMap outline ≠ [] := by
  obtain ⟨x, hx⟩ := List.exists_mem_of_ne_nil xs hxs
  intro hnil
  exact h x (List.flatMap_eq_nil_iff.1 hnil x hx)

/-- The outline of a stack without scopes has a line that says so, and each scope has a line of its
own. -/
theorem ScopeStack.outline_ne_nil (stack : ScopeStack) : stack.outline ≠ [] := by
  unfold ScopeStack.outline
  split
  · exact List.cons_ne_nil _ _
  · next hframes =>
    have hreverse : stack.frames.reverse ≠ [] :=
      mt List.reverse_eq_nil_iff.1 (mt List.isEmpty_iff.2 hframes)
    exact flatMap_ne_nil hreverse fun _ => List.cons_ne_nil _ _

/-- The outline of a chart without states has a line that says so, and each state has two lines of
its own. -/
theorem Chart.outline_ne_nil (chart : Chart) : chart.outline ≠ [] := by
  unfold Chart.outline
  split
  · exact List.cons_ne_nil _ _
  · next hsize =>
    have hvalues : chart.states.values ≠ [] := by
      intro hnil
      have hempty : chart.states.entries = [] := List.map_eq_nil_iff.1 hnil
      refine hsize ?_
      simp [Chart.isEmpty, Chart.size, Dict.size, hempty]
    exact flatMap_ne_nil hvalues fun _ => List.cons_ne_nil _ _

/-! ### The law -/

/-- A dump composes with what is around it. At each level it puts a text behind what is in the
buffer, the same whatever that is; the text ends with a line break, and one level deeper it is the
same text with a tab in front of every line. -/
structure Composes (dump : Nat → Writing) (outline : Outline) : Prop where
  /-- Written piece by piece or as a whole, the dump leaves the same behind. -/
  pieces : ∀ level buffer, (dump level).run buffer = ((), outline.writeTo buffer level)
  /-- What was in the buffer stays in front of the text. -/
  appends : ∀ level buffer, outline.writeTo buffer level = buffer ++ outline.render level
  /-- What is written next begins a line. -/
  ends : ∀ level, (outline.render level).toList.getLast? = some '\n'
  /-- One level deeper, every line has one tab more. -/
  indents : ∀ level, outline.render (level + 1) = indentLines (outline.render level)
  /-- At any depth, the lines are shifted alike. -/
  nests : ∀ level depth,
    outline.render (level + depth) = indentLines^[depth] (outline.render level)

/-- Three things are enough for a dump to compose: its lines have no line breaks, it is written as
its outline is rendered, and it is not empty. -/
theorem composes_of_lined {dump : Nat → Writing} {outline : Outline} (hlined : outline.Lined)
    (happends : ∀ level, (dump level).Appends (outline.render level)) (hne : outline ≠ []) :
    Composes dump outline where
  pieces := happends
  appends _ _ := rfl
  ends := Outline.getLast?_render hne
  indents := Outline.render_succ hlined
  nests := by
    intro level depth
    induction depth with
    | zero => rfl
    | succ depth ih =>
      rw [← Nat.add_assoc, Outline.render_succ hlined, ih, Function.iterate_succ_apply']

/-- Whatever can be dumped and has no line break in its names and keys, its dump composes with what
is around it, unless it is a machine that was stopped. -/
theorem dump_law :
    (∀ scope : Scope, scope.Unbroken → Composes scope.dump scope.outline)
      ∧ (∀ stack : ScopeStack, stack.Unbroken → Composes stack.dump stack.outline)
      ∧ (∀ state : State, state.Unbroken → Composes state.dump state.outline)
      ∧ (∀ history : History, history.Unbroken → Composes history.dump history.outline)
      ∧ (∀ chart : Chart, chart.Unbroken → Composes chart.dump chart.outline)
      ∧ ∀ machine : Machine, machine.Unbroken → machine.status ≠ .fatal →
          Composes machine.dump machine.outline := by
  refine ⟨fun scope h => ?_, fun stack h => ?_, fun state h => ?_, fun history h => ?_,
    fun chart h => ?_, fun machine h hstatus => ?_⟩
  · exact composes_of_lined (Scope.lined_outline h) scope.appends_dump scope.outline_ne_nil
  · exact composes_of_lined (ScopeStack.lined_outline h) stack.appends_dump stack.outline_ne_nil
  · exact composes_of_lined (State.lined_outline h) state.appends_dump (List.cons_ne_nil _ _)
  · exact composes_of_lined (History.lined_outline h) history.appends_dump history.outline_ne_nil
  · exact composes_of_lined (Chart.lined_outline h) chart.appends_dump chart.outline_ne_nil
  · exact composes_of_lined (Machine.lined_outline h hstatus) machine.appends_dump
      (List.cons_ne_nil _ _)

/-- An action that leaves a text of two lines as the result. -/
def telegram : Action :=
  .ofScript (.put .result (.str "safely\narrived") .done)

/-- Two states, with the action on the way from the one to the other. -/
def voyage : Chart :=
  [Chart.Addition.start (State.new "port" [.always "sail" "haven" (some telegram)]) none,
    .plain (State.new "haven" []) none].foldl Chart.perform Chart.new

/-- The end of the voyage. -/
def arrival : Machine :=
  (Machine.new voyage {}).advance.machine.advance.machine

/-- A scope with a text of two lines. -/
def manifest : Scope :=
  Dict.empty.insert "cargo" (.str "rum\nsugar")

/-- A state with a guarded transition whose action has parameters. -/
def lighthouse : State :=
  ⟨"lighthouse", some "port", none,
    [⟨"signal", "haven", .contextEquals "fog" (.bool true), some ⟨manifest, .done⟩⟩]⟩

/-- The result has two lines, and the dump can be indented all the same. So can the dumps of what
the machine is made of, the dump of a scope with a text of two lines, and that of a state that has
this text among the parameters of an action. -/
theorem arrival_dumped :
    arrival.status = .completed ∧ arrival.result = .ok (.str "safely\narrived")
      ∧ Composes arrival.dump arrival.outline
      ∧ Composes arrival.stack.dump arrival.stack.outline
      ∧ Composes arrival.history.dump arrival.history.outline
      ∧ Composes arrival.chart.dump arrival.chart.outline
      ∧ manifest.get? "cargo" = some (.str "rum\nsugar")
      ∧ Composes manifest.dump manifest.outline
      ∧ Composes lighthouse.dump lighthouse.outline := by
  have hstatus : arrival.status = .completed := by decide
  -- The machine is a run of the chart, too large a term for the elaborator to evaluate.
  have hunbroken : arrival.Unbroken := by decide +kernel
  have hactive : arrival.status ≠ .fatal := by simp [hstatus]
  have hscopeUnbroken : manifest.Unbroken := by decide
  have hstateUnbroken : lighthouse.Unbroken := by decide
  obtain ⟨hscope, hstack, hstate, hhistory, hchart, hmachine⟩ := dump_law
  exact ⟨hstatus, rfl, hmachine arrival hunbroken hactive, hstack _ hunbroken.stack,
    hhistory _ hunbroken.history, hchart _ hunbroken.chart, rfl, hscope manifest hscopeUnbroken,
    hstate lighthouse hstateUnbroken⟩

end Statechart
