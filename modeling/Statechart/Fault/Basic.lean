import Statechart.Status
import Statechart.Value

/-!
# `Statechart.Fault.Basic`: what can go wrong

Every failure is a `Fault`, and every fault carries its cause as data: what is wrong with
a state, with a chart, with a blueprint or during a run. The wording is in
`Statechart.Fault.Message`. A cause that user code words itself is `reported`.
-/

set_option autoImplicit false

namespace Statechart

/-- What is wrong with a state. -/
inductive StateFault where
  /-- The state has no name. -/
  | unnamed
  /-- A transition of the state has no name. -/
  | unnamedTransition (target : String)
  /-- A transition of the state leads nowhere. -/
  | noDestination (transition : String)
  /-- A transition in the making was given no destination. -/
  | destinationNotSet
  /-- Two transitions have one name. -/
  | duplicateTransition (transition : String)
  /-- A state with a start substate has other transitions. -/
  | customTransitions
  /-- The state is adopted already. -/
  | hasParent (parent : String)
  /-- The state has a start substate already. -/
  | hasStart (current : String)
  /-- A start substate is added to a state with transitions. -/
  | startBesideTransitions
  /-- The chain of parents runs into a cycle. -/
  | cycled
  /-- A cause in the words of the user. -/
  | reported (text : String)
  deriving DecidableEq, Repr

/-- What is wrong with a blueprint. -/
inductive LoadFault where
  /-- The text is not a blueprint. -/
  | malformed
  /-- A transition in the making was given no source state. -/
  | sourceNotSet
  /-- A start substate is not declared. -/
  | startNotDeclared (start state : String)
  /-- Two states claim one start substate. -/
  | claimedTwice (start first second : String)
  /-- A parent is not declared. -/
  | parentNotDeclared (parent state : String)
  /-- A start substate declares a parent that does not claim it. -/
  | parentMismatch (start claimer declared : String)
  /-- The start state has a parent. -/
  | startHasParent (state : String)
  /-- The states of a path wait for each other; the path ends where it began. -/
  | cycle (path : List String)
  /-- A state was met before its parent. -/
  | parentMissing (parent child : String)
  /-- Two states are marked as start state. -/
  | severalStarts (first second : String)
  /-- No state is marked as start state. -/
  | noStart
  /-- A context guard lacks its key or its value. -/
  | guardIncomplete
  /-- A context guard has a literal that cannot be compared; `literal` is its text. -/
  | guardLiteral (key literal : String)
  /-- A guard has an unknown kind. -/
  | guardKind (kind : String)
  /-- An action is not registered. -/
  | actionNotFound (action : String) (known : List String)
  /-- The cause lies in a transition. -/
  | inTransition (transition : String) (cause : LoadFault)
  /-- The cause lies in a state. -/
  | inState (state : String) (cause : LoadFault)
  /-- A cause in the words of the user. -/
  | reported (text : String)
  deriving DecidableEq, Repr

/-- Why a request comes at the wrong time. -/
inductive FlowFault where
  /-- The status of the machine forbids the request. -/
  | forbidden (request : Request) (status : Status)
  /-- A request and a status in the words of the user. -/
  | reported (request status : String)
  deriving DecidableEq, Repr

/-- What is wrong with a chart. -/
inductive ChartFault where
  /-- A state is added under a parent that is not there. -/
  | parentNotFound (parent : String)
  /-- The chart has no root. -/
  | rootNotFound
  /-- A state has a parent that is not there. -/
  | unknownParent (state parent : String)
  /-- A transition leads to a state that is not there. -/
  | unknownDestination (transition state target : String)
  /-- A transition connects two separate trees. -/
  | noCommonParent (state target : String)
  /-- No other state leads to these states. -/
  | isolated (states : List String)
  /-- A cause in the words of the user. -/
  | reported (text : String)
  deriving DecidableEq, Repr

/-- What goes wrong during a run. -/
inductive RunFault where
  /-- A variable that is compared with a number holds none. -/
  | notNumeric (key : String) (type : ValueType)
  /-- A scope on its own has no enclosing scope to write to. -/
  | noEnclosingScope
  /-- The stack has no scope to write to. -/
  | emptyStack
  /-- The stack has no second scope to write to. -/
  | noParentScope
  /-- The active state is not in the chart. -/
  | unknownHead
  /-- The active state is no longer in the chart. -/
  | vanished (state : String)
  /-- No transition of the active state is open. -/
  | allClosed (state : String)
  /-- Several transitions of the active state are open. -/
  | severalOpen (state : String) (transitions : List String)
  /-- The open transition leads to a state that is not in the chart. -/
  | unknownTarget (transition target : String)
  /-- The open transition connects two separate trees. -/
  | noCommonParent (state target : String)
  /-- The open transition leads down by more than one level. -/
  | tooDeep (state target : String)
  /-- The scope of the target cannot be opened. -/
  | pushFailed (target : String)
  /-- A run takes more transitions than it may. -/
  | stepLimit (limit : Nat)
  /-- The stack has no outermost scope to read from. -/
  | noGlobalScope
  /-- The machine is fatal without a fault. -/
  | unrecorded
  /-- A cause in the words of the user. -/
  | reported (text : String)
  deriving DecidableEq, Repr

/-- The callbacks of a transition. -/
inductive Role where
  /-- The guard, which is asked whether the transition is open. -/
  | guard
  /-- The action, which runs when the target is entered. -/
  | entryAction
  /-- A callback that the user names. -/
  | named (name : String)
  deriving DecidableEq, Repr

mutual

/-- A failure of the library. -/
inductive Fault where
  /-- A variable does not exist. -/
  | keyNotFound (key : String)
  /-- A variable holds a value of another type. -/
  | invalidType (requested actual : ValueType)
  /-- A state with this name is there already. -/
  | stateAlreadyExists (state : String)
  /-- A state is not well formed. -/
  | stateInvalid (state : String) (cause : StateFault)
  /-- A blueprint cannot be used. -/
  | load (cause : LoadFault)
  /-- A request comes at the wrong time. -/
  | wrongFlow (cause : FlowFault)
  /-- A chart is not consistent. -/
  | chartInvalid (cause : ChartFault)
  /-- A run cannot go on. -/
  | runtime (cause : RunFault)
  /-- A callback failed. -/
  | callbackFailed (role : Role) (source : Failure)
  /-- A machine was stopped; with the dumps of its stack and history at that moment. -/
  | fatal (cause : Fault) (stack history : String)

/-- A failure of a callback. -/
inductive Failure where
  /-- A fault of the library that the callback passes on. -/
  | fault (fault : Fault)
  /-- A failure of the callback's own. -/
  | plain (text : String)

end

deriving instance DecidableEq for Fault, Failure

namespace Fault

/-- The kinds of faults. -/
inductive Kind where
  /-- A variable does not exist. -/
  | keyNotFound
  /-- A variable holds a value of another type. -/
  | invalidType
  /-- A state is there already. -/
  | stateAlreadyExists
  /-- A state is not well formed. -/
  | stateInvalid
  /-- A blueprint cannot be used. -/
  | load
  /-- A request comes at the wrong time. -/
  | wrongFlow
  /-- A chart is not consistent. -/
  | chartInvalid
  /-- A run cannot go on. -/
  | runtime
  /-- A callback failed. -/
  | callbackFailed
  /-- A machine was stopped. -/
  | fatal
  deriving DecidableEq, Repr

/-- The kind of a fault. -/
def kind : Fault → Kind
  | keyNotFound _ => .keyNotFound
  | invalidType _ _ => .invalidType
  | stateAlreadyExists _ => .stateAlreadyExists
  | stateInvalid _ _ => .stateInvalid
  | load _ => .load
  | wrongFlow _ => .wrongFlow
  | chartInvalid _ => .chartInvalid
  | runtime _ => .runtime
  | callbackFailed _ _ => .callbackFailed
  | fatal _ _ _ => .fatal

/-- The fault that made a machine stop; any other fault is its own root. -/
def rootCause : Fault → Fault
  | fatal cause _ _ => cause.rootCause
  | other => other

end Fault

end Statechart
