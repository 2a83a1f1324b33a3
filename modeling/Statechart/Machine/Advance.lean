import Statechart.Machine.Basic

/-!
# `Statechart.Machine.Advance`: one step of a machine

A step asks the guards of the active state, takes the one transition that is open, closes
the scopes that the transition leaves, opens the scope of its target and runs its action
there. Whatever goes wrong stops the machine. The first step of a run checks the chart.

A transition can lead up by any number of levels, but down by one only. The scopes of the
common ancestors of its two ends stay, except the scope of the target itself: a state that
is entered again gets a fresh one. The scope of the root always stays.
-/

set_option autoImplicit false

namespace Statechart

/-- A callback that was called. -/
structure Call where
  /-- Which callback of the transition it was. -/
  role : Role
  /-- The name of the transition. -/
  transition : String
  /-- The stack that the callback saw when it was called. -/
  stack : ScopeStack
  /-- The number of moves in the history at that moment. -/
  moves : Nat
  /-- The notes that it left. -/
  notes : List String

/-- What came of a step. -/
structure StepTaken where
  /-- The machine afterwards. -/
  machine : Machine
  /-- The callbacks that were called, in order. -/
  calls : List Call
  /-- The move that was made, or the fault that stopped the machine. -/
  result : Except Fault Move

namespace Machine

/-- Stops a machine in the middle of a step. -/
def fail (machine : Machine) (calls : List Call) (fault : Fault) : StepTaken :=
  ⟨machine.stop fault, calls, .error fault⟩

/-- Asks the guards of transitions in order, up to the first one that fails. If none fails,
the open transitions are returned. -/
def askGuards (machine : Machine) :
    List Transition → List Call × Except Failure (List Transition)
  | [] => ([], .ok [])
  | transition :: rest =>
    let outcome := transition.guard.check machine.stack.view
    let call : Call :=
      ⟨.guard, transition.name, machine.stack, machine.history.size, outcome.notes⟩
    match outcome.result with
    | .error failure => ([call], .error failure)
    | .ok isOpen =>
      let (calls, opened) := machine.askGuards rest
      (call :: calls, opened.map fun others => if isOpen then transition :: others else others)

/-- The one open transition of a state. -/
def choose (state : String) : (opened : List Transition) → Except Fault Transition
  | [] => .error (.runtime (.allClosed state))
  | [transition] => .ok transition
  | several => .error (.runtime (.severalOpen state (several.map (·.name))))

/-- The number of scopes that stay when a transition leads from one state to another. -/
def scopesKept (meeting : CommonAncestor) : Nat :=
  max 1 (if meeting.descent = 1 then meeting.depth + 1 else meeting.depth)

/-- The state that a transition leads to, and the number of scopes that stay. -/
def route (chart : Chart) (source : String) (transition : Transition) :
    Except Fault (State × Nat) :=
  match chart.get? transition.target with
  | none => .error (.runtime (.unknownTarget transition.name transition.target))
  | some next =>
    match chart.commonAncestor? source next.name with
    | none => .error (.runtime (.noCommonParent source next.name))
    | some meeting =>
      if meeting.descent ≤ 1 then .ok (next, scopesKept meeting)
      else .error (.runtime (.tooDeep source next.name))

/-- Runs the action of a transition in the scope that was opened for it. -/
def act (machine : Machine) (calls : List Call) (transition : Transition) (move : Move) :
    StepTaken :=
  match transition.action with
  | none => ⟨machine, calls, .ok move⟩
  | some action =>
    let (stack, outcome) := action.run machine.stack
    let call : Call :=
      ⟨.entryAction, transition.name, machine.stack, machine.history.size, outcome.notes⟩
    let after := { machine with stack := stack }
    match outcome.result with
    | .ok () => ⟨after, calls ++ [call], .ok move⟩
    | .error failure => after.fail (calls ++ [call]) (.callbackFailed .entryAction failure)

/-- Closes the scopes that do not stay, opens the scope of the next state, records the move
and runs the action. -/
def enter (machine : Machine) (calls : List Call) (source : String) (transition : Transition)
    (next : State) (kept : Nat) : StepTaken :=
  let closed := { machine with stack := machine.stack.truncate kept }
  match closed.stack.push? next.name with
  | none => closed.fail calls (.runtime (.pushFailed next.name))
  | some stack =>
    let move : Move := ⟨source, next.name, transition.name⟩
    let entered := { closed with stack := stack, history := machine.history.record move }
    entered.act calls transition move

/-- Leaves a state by the one of its transitions that is open. -/
def leave (machine : Machine) (source : String) (transitions : List Transition) : StepTaken :=
  let (calls, asked) := machine.askGuards transitions
  match asked with
  | .error failure => machine.fail calls (.callbackFailed .guard failure)
  | .ok opened =>
    match choose source opened with
    | .error fault => machine.fail calls fault
    | .ok transition =>
      match route machine.chart source transition with
      | .error fault => machine.fail calls fault
      | .ok (next, kept) => machine.enter calls source transition next kept

/-- Leaves the active state. -/
def leaveCurrent (machine : Machine) : StepTaken :=
  match machine.current? with
  | none => machine.fail [] (.runtime .unknownHead)
  | some head =>
    match machine.chart.get? head.name with
    | none => machine.fail [] (.runtime (.vanished head.name))
    | some state => machine.leave head.name state.transitions

/-- Takes exactly one transition. A machine that is completed or stopped does not change, and
none of its callbacks is called. -/
def advance (machine : Machine) : StepTaken :=
  match machine.status with
  | .idle =>
    match machine.chart.validate with
    | .error fault => machine.fail [] fault
    | .ok () => machine.leaveCurrent
  | .running => machine.leaveCurrent
  | .completed => ⟨machine, [], .error (.wrongFlow (.forbidden .advance .completed))⟩
  | .fatal => ⟨machine, [], .error machine.storedFault⟩

end Machine

end Statechart
