import Statechart.Proofs.Chart.Built

/-!
# `Statechart.Proofs.Chart.Atomicity`: additions are all or nothing

`Chart.add` gives a chart only if it succeeds, so a failing addition cannot leave traces. A chart
that is changed in place has no such protection: what was written before a failure stays written.
`addInPlace` makes an addition in this way. The parent is changed first, one field after the
other, and the new state is put in last. `outcome_addInPlace` proves that the two agree: every
check comes before the first write. A row of additions that stops at the first failure is made in
place by `addAllInPlace`, and agrees with `addAll` (`outcome_addAllInPlace`).

`addition_law` says what comes of an addition to any chart that can be built: when it succeeds
(`Addable`), what it changes (`Extends`), and how far a row of additions gets (`InTurn`).
-/

set_option autoImplicit false

namespace Statechart

namespace Dict

variable {α : Type} {d : Dict α} {key : String} {value : α}

/-- Of two values that are put under one name the later counts. -/
theorem insert_insert (d : Dict α) (key : String) (first second : α) :
    (d.insert key first).insert key second = d.insert key second := by
  refine ext_get? fun other => ?_
  rw [get?_insert, get?_insert, get?_insert]
  split <;> rfl

/-- Putting a value where it is already changes nothing. -/
theorem insert_eq_self (h : d.get? key = some value) : d.insert key value = d := by
  refine ext_get? fun other => ?_
  rw [get?_insert]
  split
  · next hother => rw [hother, h]
  · rfl

end Dict

namespace Chart

/-! ### Work in place -/

/-- Work on a chart that is changed in place. A failure takes nothing back. -/
abbrev Revision := EStateM Fault Chart

namespace Revision

/-- The chart that the work leaves behind, and whether it succeeded. -/
def outcome (work : Revision Unit) (chart : Chart) : Chart × Except Fault Unit :=
  match work.run chart with
  | .ok _ after => (after, .ok ())
  | .error fault after => (after, .error fault)

/-- Fails with the fault of a check. -/
def demand : Except Fault Unit → Revision Unit
  | .ok () => pure ()
  | .error fault => throw fault

/-- Writes to the state under a name. -/
def edit (name : String) (change : State → State) : Revision Unit :=
  modify fun chart =>
    match chart.get? name with
    | some state => ⟨chart.states.insert name (change state)⟩
    | none => chart

/-- Makes the state under a name delegate to a start substate: one write for the link and one for
the way into it. -/
def delegate (name parent child : String) : Revision Unit := do
  edit name fun state => { state with startSubstate := some child }
  edit name fun state => { state with transitions := [State.entry parent child] }

/-- Links a state below the one that is stored under a name, and gives it back with its parent. -/
def adopt (name : String) (above child : State) (isStart : Bool) : Revision State := do
  if let some current := child.parent then
    throw (.stateInvalid child.name (.hasParent current))
  if isStart then
    if let some current := above.startSubstate then
      throw (.stateInvalid above.name (.hasStart current))
    if ¬ above.transitions.isEmpty then
      throw (.stateInvalid above.name .startBesideTransitions)
    delegate name above.name child.name
  pure (child.under above.name)

end Revision

/-- Adds a state below another one, or below the root if none is given, in place. -/
def addInPlace (state : State) (parent : Option String) (isStart : Bool) : Revision Unit := do
  Revision.demand state.validate
  if (← get).contains state.name then
    throw (.stateAlreadyExists state.name)
  match (← get).get? (parent.getD rootName) with
  | none => throw (.chartInvalid (.parentNotFound (parent.getD rootName)))
  | some above =>
    let linked ← Revision.adopt (parent.getD rootName) above state isStart
    modify fun chart => chart.put linked

/-- Adds a start substate, if one is given, and then plain substates, all below one parent, in
place. -/
def addAllInPlace (parent : Option String) (start : Option State) (states : List State) :
    Revision Unit := do
  start.toList.forM fun state => addInPlace state parent true
  states.forM fun state => addInPlace state parent false

variable {chart chart' : Chart} {name : String} {state above child : State} {isStart : Bool}
  {parent : Option String}

namespace Revision

/-- A write to a state that is there. -/
theorem run_edit (hget : chart.get? name = some state) (change : State → State) :
    (edit name change).run chart = .ok () ⟨chart.states.insert name (change state)⟩ := by
  unfold edit
  rw [EStateM.run_modify, hget]

/-- The two writes together turn a state into one that delegates. -/
theorem run_delegate (hget : chart.get? name = some above) (child : String) :
    (delegate name above.name child).run chart
      = .ok () ⟨chart.states.insert name (above.adopting child true)⟩ := by
  unfold delegate
  rw [EStateM.run_bind, run_edit hget]
  -- The second write finds the state with its start substate.
  have hlinked :
      Chart.get? ⟨chart.states.insert name { above with startSubstate := some child }⟩ name
        = some { above with startSubstate := some child } :=
    Dict.get?_insert_self _ _ _
  simp only
  rw [run_edit hlinked, Dict.insert_insert]
  rfl

/-- Adoption in place does what adoption does: it fails before it has written anything, or it
writes the parent that adoption gives. -/
theorem run_adopt (hget : chart.get? name = some above) (child : State) (isStart : Bool) :
    (adopt name above child isStart).run chart
      = match above.adopt child isStart with
        | .ok linked => .ok linked.2 ⟨chart.states.insert name linked.1⟩
        | .error fault => .error fault chart := by
  unfold adopt State.adopt
  cases hparent : child.parent with
  | some current => simp
  | none =>
    cases isStart with
    | false =>
      have hsame : (⟨chart.states.insert name above⟩ : Chart) = chart :=
        congrArg Chart.mk (Dict.insert_eq_self hget)
      simp [State.under, hsame]
    | true =>
      cases hstart : above.startSubstate with
      | some current => simp
      | none =>
        cases hways : above.transitions with
        | cons way rest => simp
        | nil =>
          have hdelegate := run_delegate hget child.name
          simp only [State.adopting, if_true] at hdelegate
          simp [State.under, hdelegate, -bind_pure_comp]

end Revision

/-- An addition in place leaves the chart that `add` gives, and the chart as it was if `add`
gives none. -/
theorem outcome_addInPlace (chart : Chart) (state : State) (parent : Option String)
    (isStart : Bool) :
    (addInPlace state parent isStart).outcome chart
      = match chart.add state parent isStart with
        | .ok after => (after, .ok ())
        | .error fault => (chart, .error fault) := by
  cases hvalid : state.validate with
  | error fault =>
    have hadd : chart.add state parent isStart = .error fault := by
      simp [add, hvalid, bind, Except.bind]
    simp [hadd, addInPlace, Revision.outcome, Revision.demand, hvalid]
  | ok =>
    cases hfresh : chart.get? state.name with
    | some old =>
      have hadd : chart.add state parent isStart = .error (.stateAlreadyExists state.name) := by
        simp [add, hvalid, hfresh, bind, Except.bind]
      simp [hadd, addInPlace, Revision.outcome, Revision.demand, hvalid, hfresh]
    | none =>
      cases habove : chart.get? (parent.getD rootName) with
      | none =>
        have hadd : chart.add state parent isStart
            = .error (.chartInvalid (.parentNotFound (parent.getD rootName))) := by
          simp [add, hvalid, hfresh, habove, bind, Except.bind]
        simp [hadd, addInPlace, Revision.outcome, Revision.demand, hvalid, hfresh, habove]
      | some above =>
        have hadopt := Revision.run_adopt habove state isStart
        cases hlinked : above.adopt state isStart with
        | error fault =>
          have hadd : chart.add state parent isStart = .error fault := by
            simp [add, hvalid, hfresh, habove, hlinked, bind, Except.bind]
          rw [hlinked] at hadopt
          simp [hadd, addInPlace, Revision.outcome, Revision.demand, hvalid, hfresh, habove, hadopt]
        | ok linked =>
          have hadd : chart.add state parent isStart
              = .ok (Chart.put ⟨chart.states.insert (parent.getD rootName) linked.1⟩ linked.2) := by
            simp [add, hvalid, hfresh, habove, hlinked, bind, Except.bind]
            rfl
          rw [hlinked] at hadopt
          simp [hadd, addInPlace, Revision.outcome, Revision.demand, hvalid, hfresh, habove, hadopt]

/-- What follows work that succeeds goes on with the chart that it leaves. -/
theorem Revision.outcome_bind (work next : Revision Unit) (chart : Chart) :
    (work >>= fun _ => next).outcome chart
      = match work.outcome chart with
        | (after, .ok ()) => next.outcome after
        | (after, .error fault) => (after, .error fault) := by
  unfold outcome
  rw [EStateM.run_bind]
  cases work.run chart <;> rfl

/-- A row of additions in place gets as far as `addEach`. -/
theorem outcome_forM_addInPlace (parent : Option String) (entries : List (State × Bool))
    (chart : Chart) :
    Revision.outcome (entries.forM fun entry => addInPlace entry.1 parent entry.2) chart
      = addEach parent chart entries := by
  induction entries generalizing chart with
  | nil => rfl
  | cons entry rest ih =>
    show Revision.outcome (addInPlace entry.1 parent entry.2 >>= fun _ =>
      rest.forM fun entry => addInPlace entry.1 parent entry.2) chart = _
    rw [Revision.outcome_bind, outcome_addInPlace, addEach]
    cases chart.add entry.1 parent entry.2 with
    | error fault => rfl
    | ok after => exact ih after

/-- The single additions of a call for several states, in order. The truth values say which are
start substates. -/
def additions (start : Option State) (states : List State) : List (State × Bool) :=
  (start.toList.map fun state => (state, true)) ++ states.map fun state => (state, false)

/-- A call for several states that is made in place leaves the chart that `addAll` gives. -/
theorem outcome_addAllInPlace (chart : Chart) (parent : Option String) (start : Option State)
    (states : List State) :
    (addAllInPlace parent start states).outcome chart = chart.addAll parent start states := by
  have hrow : addAllInPlace parent start states
      = (additions start states).forM fun entry => addInPlace entry.1 parent entry.2 := by
    simp [addAllInPlace, additions]
  rw [hrow, outcome_forM_addInPlace]
  rfl

/-! ### Single additions -/

/-- What it takes to add a state below another one, or below the root. -/
structure Addable (chart : Chart) (state : State) (parent : Option String) (isStart : Bool) :
    Prop where
  /-- The state passes its own check. -/
  valid : state.validate = .ok ()
  /-- Its name is new. -/
  fresh : chart.get? state.name = none
  /-- It has no parent yet. -/
  free : state.parent = none
  /-- The parent is there. For a start substate it delegates to no other state and has no
  transitions. -/
  host : ∃ above, chart.get? (parent.getD rootName) = some above
    ∧ (isStart = true → above.startSubstate = none ∧ above.transitions = [])

/-- What changes when a state is added below another one. -/
structure Extends (chart after : Chart) (state : State) (parent : String) (isStart : Bool) :
    Prop where
  /-- The state is there with its parent, and as it was otherwise. -/
  entry : after.get? state.name = some { state with parent := some parent }
  /-- The parent of a start substate delegates to it: the way into it is the only one, it is
  always open, and nothing happens on it. -/
  host : isStart = true → ∃ above, chart.get? parent = some above
    ∧ after.get? parent = some { above with
        startSubstate := some state.name
        transitions := [.always ("Always " ++ parent ++ "->" ++ state.name) state.name none] }
  /-- All other states are what they were. -/
  others : ∀ name, name ≠ state.name → (isStart = true → name ≠ parent) →
    after.get? name = chart.get? name

/-- A state is added if everything it takes is given. -/
theorem Named.exists_add_iff (hnamed : chart.Named) :
    (∃ after, chart.add state parent isStart = .ok after)
      ↔ chart.Addable state parent isStart := by
  constructor
  · intro ⟨after, hadd⟩
    obtain ⟨hsound, hfresh, hfree, above, habove, hstart, -⟩ := (add_eq_ok_iff hnamed).1 hadd
    exact ⟨State.validate_eq_ok_iff.2 hsound, hfresh, hfree, above, habove, hstart⟩
  · intro h
    obtain ⟨above, habove, hstart⟩ := h.host
    exact ⟨_, (add_eq_ok_iff hnamed).2
      ⟨State.validate_eq_ok_iff.1 h.valid, h.fresh, h.free, above, habove, hstart, rfl⟩⟩

/-- An addition changes the new entry, and the parent if it delegates to it. -/
theorem Named.extends (hnamed : chart.Named)
    (hadd : chart.add state parent isStart = .ok chart') :
    chart.Extends chart' state (parent.getD rootName) isStart := by
  obtain ⟨-, hfresh, -, above, habove, -, rfl⟩ := (add_eq_ok_iff hnamed).1 hadd
  have hname : above.name = parent.getD rootName := hnamed _ _ habove
  -- The parent is in the chart and the state is not, so they are two entries.
  have hapart : parent.getD rootName ≠ state.name := by
    intro hsame
    rw [hsame, hfresh] at habove
    cases habove
  refine ⟨?_, ?_, ?_⟩
  · rw [get?_adding, if_pos rfl, hname]
    rfl
  · intro hstart
    refine ⟨above, habove, ?_⟩
    rw [get?_adding, if_neg hapart, if_pos hname.symm, hstart, ← hname]
    rfl
  · intro name hother hhost
    rw [get?_adding, if_neg hother]
    split
    · next hparent =>
      cases isStart with
      | true => exact absurd (hparent.trans hname) (hhost rfl)
      | false => rw [hparent, hname, habove, State.adopting_false]
    · rfl

/-! ### Rows of additions -/

/-- How far a row of additions below one parent gets, and what it answers. -/
inductive InTurn (chart : Chart) (parent : Option String) (entries : List (State × Bool)) :
    Chart × Except Fault Unit → Prop where
  /-- All states are added, each to the chart with the ones before it. -/
  | all {after : Chart}
      (hall : entries.foldlM (fun chart entry => chart.add entry.1 parent entry.2) chart
        = .ok after) : InTurn chart parent entries (after, .ok ())
  /-- The states before the first one that cannot be added are added, and no others. -/
  | upTo {before rest : List (State × Bool)} {state : State} {isStart : Bool} {mid : Chart}
      {fault : Fault} (hsplit : entries = before ++ (state, isStart) :: rest)
      (hbefore : before.foldlM (fun chart entry => chart.add entry.1 parent entry.2) chart
        = .ok mid)
      (hfails : mid.add state parent isStart = .error fault)
      (hnames : ∀ name, (mid.get? name).isSome
        ↔ (chart.get? name).isSome ∨ name ∈ before.map (·.1.name)) :
      InTurn chart parent entries (mid, .error fault)

/-- An addition adds one name. -/
theorem Named.isSome_get?_of_add (hnamed : chart.Named)
    (hadd : chart.add state parent isStart = .ok chart') (name : String) :
    (chart'.get? name).isSome ↔ (chart.get? name).isSome ∨ name = state.name := by
  obtain ⟨-, -, -, above, habove, -, rfl⟩ := (add_eq_ok_iff hnamed).1 hadd
  have hname : above.name = parent.getD rootName := hnamed _ _ habove
  rw [get?_adding]
  split
  · next h => simp [h]
  · next h =>
    split
    · next hparent => simp [hparent, hname, habove]
    · simp [h]

/-- A row of additions stops at the first failure, and what it has added by then stays. -/
theorem Tree.inTurn_addEach (htree : chart.Tree) (parent : Option String)
    (entries : List (State × Bool)) :
    chart.InTurn parent entries (addEach parent chart entries) := by
  induction entries generalizing chart with
  | nil => exact .all rfl
  | cons entry rest ih =>
    obtain ⟨state, isStart⟩ := entry
    cases hadd : chart.add state parent isStart with
    | error fault =>
      have hrow : addEach parent chart ((state, isStart) :: rest) = (chart, .error fault) := by
        simp only [addEach, hadd]
      rw [hrow]
      have hsplit : (state, isStart) :: rest = [] ++ (state, isStart) :: rest := rfl
      exact .upTo hsplit rfl hadd (by simp)
    | ok next =>
      have hrow : addEach parent chart ((state, isStart) :: rest) = addEach parent next rest := by
        simp only [addEach, hadd]
      rw [hrow]
      -- The rest of the row starts with the chart that has the first state.
      have hrest := ih (htree.add hadd)
      generalize addEach parent next rest = answer at hrest
      cases hrest with
      | all hall =>
        refine .all ?_
        rw [List.foldlM_cons, hadd]
        exact hall
      | @upTo before after _ _ _ _ hsplit hbefore hfails hnames =>
        have hlonger : (state, isStart) :: rest
            = ((state, isStart) :: before) ++ (_, _) :: after := congrArg (_ :: ·) hsplit
        refine .upTo hlonger ?_ hfails ?_
        · rw [List.foldlM_cons, hadd]
          exact hbefore
        · intro name
          rw [hnames, htree.named.isSome_get?_of_add hadd, List.map_cons, List.mem_cons]
          exact or_assoc

/-- What comes of a single addition. -/
structure AllOrNothing (chart : Chart) (state : State) (parent : Option String)
    (isStart : Bool) : Prop where
  /-- It succeeds if everything it takes is given. -/
  accepted : (∃ after, chart.add state parent isStart = .ok after)
    ↔ chart.Addable state parent isStart
  /-- If it fails, then the chart is what it was, even if it is changed in place. -/
  refused : ∀ fault, chart.add state parent isStart = .error fault →
    (addInPlace state parent isStart).outcome chart = (chart, .error fault)
  /-- If it succeeds, then the state is added, and nothing changes but what has to. -/
  added : ∀ after, chart.add state parent isStart = .ok after →
    (addInPlace state parent isStart).outcome chart = (after, .ok ())
      ∧ chart.Extends after state (parent.getD rootName) isStart

/-- Take a chart that calls lead to, or that is assembled from a blueprint. Adding any state to
it, as a start substate or as a plain one, is all or nothing. A call for several states adds them
in turn, the start substate first, up to the first one that cannot be added; it answers with that
failure, and the states before it stay. Charts that are changed in place come to the same. -/
theorem addition_law (hbuilt : chart.Built) :
    (∀ state parent isStart, chart.AllOrNothing state parent isStart)
      ∧ ∀ parent start states,
        chart.InTurn parent (additions start states) (chart.addAll parent start states)
          ∧ (addAllInPlace parent start states).outcome chart
            = chart.addAll parent start states := by
  have htree := hbuilt.tree
  refine ⟨fun state parent isStart => ⟨htree.named.exists_add_iff, ?_, ?_⟩,
    fun parent start states => ⟨?_, outcome_addAllInPlace chart parent start states⟩⟩
  · intro fault hadd
    rw [outcome_addInPlace, hadd]
  · intro after hadd
    rw [outcome_addInPlace, hadd]
    exact ⟨rfl, htree.named.extends hadd⟩
  · exact htree.inTurn_addEach parent (additions start states)

/-- A start state with a transition of its own to another state. -/
def terrace : Chart :=
  [Addition.start (State.new "ground" [.always "up" "upper" none]) none,
    .plain (State.new "upper" []) none].foldl perform new

/-- A state with a transition gets no start substate, and the chart stays as it is. Of three
states the second one has a parent already; so the first one is added, and the third one is
not. A state without transitions gets its start substate: it then has one way out, which leads
there, and the rest of the chart stays as it is. -/
theorem terrace_additions :
    (addInPlace (State.new "loft" []) (some "ground") true).outcome terrace
        = (terrace, .error (.stateInvalid "ground" .startBesideTransitions))
      ∧ (∃ after, (addAllInPlace (some "upper") none [State.new "attic" [],
            ⟨"roof", some "tower", none, []⟩, State.new "cellar" []]).outcome terrace
          = (after, .error (.stateInvalid "roof" (.hasParent "tower")))
        ∧ (after.get? "attic").isSome ∧ after.get? "cellar" = none)
      ∧ ∃ after, (addInPlace (State.new "loft" []) (some "upper") true).outcome terrace
          = (after, .ok ())
        ∧ after.get? "loft" = some ⟨"loft", some "upper", none, []⟩
        ∧ after.get? "upper" = some ⟨"upper", some "global", some "loft",
            [.always "Always upper->loft" "loft" none]⟩
        ∧ after.get? "ground" = terrace.get? "ground" := by
  have hbuilt : terrace.Built := Or.inl ⟨_, rfl⟩
  obtain ⟨hsingle, hseveral⟩ := addition_law hbuilt
  refine ⟨(hsingle (State.new "loft" []) (some "ground") true).refused _ rfl, ?_, ?_⟩
  · have hrow := (hseveral (some "upper") none [State.new "attic" [],
      ⟨"roof", some "tower", none, []⟩, State.new "cellar" []]).2
    exact ⟨_, hrow, rfl, rfl⟩
  · have hlofty := hsingle (State.new "loft" []) (some "upper") true
    -- Everything that the addition takes is given.
    have haddable : terrace.Addable (State.new "loft" []) (some "upper") true :=
      ⟨rfl, rfl, rfl, ⟨"upper", some "global", none, []⟩, rfl, fun _ => ⟨rfl, rfl⟩⟩
    obtain ⟨after, hadd⟩ := hlofty.accepted.2 haddable
    obtain ⟨houtcome, hextends⟩ := hlofty.added after hadd
    obtain ⟨above, habove, hhost⟩ := hextends.host rfl
    cases habove
    exact ⟨after, houtcome, hextends.entry, hhost,
      hextends.others "ground" (by decide) fun _ => by decide⟩

end Chart

end Statechart
