import Statechart.State

/-!
# `Statechart.Chart.Basic`: hierarchies of states

A chart holds all states of a machine by name. One of them is the root, named `global`;
the start substate of the root is where a run begins. States are added below states that
are there already, so the chart grows as one tree.
-/

set_option autoImplicit false

namespace Statechart

/-- The name of the root. -/
def rootName : String := "global"

/-- The states of a machine. -/
structure Chart where
  /-- The states by name. -/
  states : Dict State

namespace Chart

/-- The chart that has only a root. -/
def new : Chart :=
  ⟨Dict.empty.insert rootName (State.new rootName [])⟩

instance : Inhabited Chart := ⟨new⟩

/-- The state of a name. -/
def get? (chart : Chart) (name : String) : Option State :=
  chart.states.get? name

/-- Whether a name is a state's. -/
def contains (chart : Chart) (name : String) : Bool :=
  chart.states.contains name

/-- The number of states, the root included. -/
def size (chart : Chart) : Nat :=
  chart.states.size

/-- Whether there is nothing but a root. -/
def isEmpty (chart : Chart) : Bool :=
  chart.size ≤ 1

/-- The root. -/
def root? (chart : Chart) : Option State :=
  chart.get? rootName

/-- The state where a run begins. -/
def start? (chart : Chart) : Option State := do
  let root ← chart.root?
  let start ← root.startSubstate
  chart.get? start

/-- The chart with a state under its own name. -/
def put (chart : Chart) (state : State) : Chart :=
  ⟨chart.states.insert state.name state⟩

/-- Adds a state below another one, or below the root if none is given. The state must be
valid and its name new, and the parent must be there and be able to adopt it. -/
def add (chart : Chart) (state : State) (parent : Option String) (isStart : Bool) :
    Except Fault Chart := do
  state.validate
  if chart.contains state.name then .error (.stateAlreadyExists state.name)
  let parentName := parent.getD rootName
  let some parentState := chart.get? parentName
    | .error (.chartInvalid (.parentNotFound parentName))
  let (parentState, state) ← parentState.adopt state isStart
  pure (Chart.put ⟨chart.states.insert parentName parentState⟩ state)

/-- Adds a state as the start substate of its parent. -/
def addStart (chart : Chart) (state : State) (parent : Option String) : Except Fault Chart :=
  chart.add state parent true

/-- Adds a state as a plain substate of its parent. -/
def addState (chart : Chart) (state : State) (parent : Option String) : Except Fault Chart :=
  chart.add state parent false

/-- Adds states one after the other up to the first that cannot be added; the ones before
it stay. The truth values say which are start substates. -/
def addEach (parent : Option String) : Chart → List (State × Bool) → Chart × Except Fault Unit
  | chart, [] => (chart, .ok ())
  | chart, (state, isStart) :: rest =>
    match chart.add state parent isStart with
    | .ok chart => addEach parent chart rest
    | .error fault => (chart, .error fault)

/-- Adds a start substate, if one is given, and then plain substates, all below one parent. -/
def addAll (chart : Chart) (parent : Option String) (start : Option State)
    (states : List State) : Chart × Except Fault Unit :=
  addEach parent chart
    ((start.toList.map fun state => (state, true)) ++ states.map fun state => (state, false))

/-- A chart of one level: a start state and other states below the root. -/
def flat (start : State) (states : List State) : Except Fault Chart :=
  match new.addAll none (some start) states with
  | (chart, .ok ()) => .ok chart
  | (_, .error fault) => .error fault

/-- Puts a state in place whose links are set already; a state without parent goes below the
root. -/
def splice (chart : Chart) (name : String) (state : State) : Except Fault Chart :=
  if chart.contains name then .error (.stateAlreadyExists name)
  else if state.parent.isSome then .ok ⟨chart.states.insert name state⟩
  else
    match chart.root? with
    | none => .error (.chartInvalid .rootNotFound)
    | some root => do
      let (root, state) ← root.adopt state false
      pure ⟨(chart.states.insert rootName root).insert name state⟩

/-- Adds a hierarchy that was put together elsewhere: its start state becomes the start state
of the chart, and the other states keep their links. -/
def append (chart : Chart) (start : State) (states : Dict State) : Except Fault Chart :=
  match chart.root? with
  | none => .error (.chartInvalid .rootNotFound)
  | some _ => do
    let chart ← chart.addStart start none
    states.entries.foldlM (fun chart entry => chart.splice entry.1 entry.2) chart

/-- The dump of a chart: its states in the order of their names. -/
def outline (chart : Chart) : Outline :=
  if chart.isEmpty then [⟨0, "no states"⟩]
  else chart.states.values.flatMap State.outline

end Chart

end Statechart
