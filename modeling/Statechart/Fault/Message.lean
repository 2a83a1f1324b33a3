import Statechart.Fault.Basic

/-!
# `Statechart.Fault.Message`: the wording of faults

Names, keys and messages stand between double quotes as they are.
-/

set_option autoImplicit false

namespace Statechart

/-- The wording of what is wrong with a state. -/
def StateFault.message : StateFault → String
  | unnamed => "state should be named"
  | unnamedTransition target => s!"transition to \"{target}\" should be named"
  | noDestination transition => s!"transition \"{transition}\" should have a destination"
  | destinationNotSet => "transition should have a destination"
  | duplicateTransition transition => s!"duplicate transition \"{transition}\""
  | customTransitions => "state with a start sub state can't have custom transitions"
  | hasParent parent => s!"sub state already has a parent \"{parent}\""
  | hasStart current => s!"parent state already has start sub state \"{current}\""
  | startBesideTransitions => "start sub state can't be added to a parent with transitions"
  | cycled => "state hierarchy is cycled"
  | reported text => text

/-- The wording of what is wrong with a blueprint. -/
def LoadFault.message : LoadFault → String
  | malformed => "malformed declarations"
  | sourceNotSet => "transition source state is not set"
  | startNotDeclared start state =>
    s!"start sub state \"{start}\" of \"{state}\" is not declared"
  | claimedTwice start first second =>
    s!"\"{start}\" is claimed as start sub state by both \"{first}\" and \"{second}\""
  | parentNotDeclared parent state => s!"parent \"{parent}\" of \"{state}\" is not declared"
  | parentMismatch start claimer declared =>
    s!"\"{start}\" is a start sub state of \"{claimer}\" but declares parent \"{declared}\""
  | startHasParent state => s!"start state \"{state}\" can't have a parent"
  | cycle path => "dependency cycle between states: " ++ " -> ".intercalate path
  | parentMissing parent child => s!"parent \"{parent}\" expected before child \"{child}\""
  | severalStarts first second =>
    s!"more than one start state declared: \"{first}\", \"{second}\""
  | noStart => "no start state declared"
  | guardIncomplete => "context guard needs both a key and a value"
  | guardLiteral key literal => s!"context guard on \"{key}\" can't compare against {literal}"
  | guardKind kind => s!"unknown guard type \"{kind}\""
  | actionNotFound action known =>
    s!"action \"{action}\" was not found in the map: [" ++ ", ".intercalate known ++ "]"
  | inTransition transition cause => s!"transition \"{transition}\": " ++ cause.message
  | inState state cause => s!"state \"{state}\": " ++ cause.message
  | reported text => text

/-- The wording of why a request comes at the wrong time. -/
def FlowFault.message : FlowFault → String
  | forbidden request status => s!"Can't {request.name} while FSM is {status.name}"
  | reported request status => s!"Can't {request} while FSM is {status}"

/-- The wording of what is wrong with a chart. -/
def ChartFault.message : ChartFault → String
  | parentNotFound parent => s!"parent state \"{parent}\" was not found (forgot to add?)"
  | rootNotFound => "root state \"global\" was not found"
  | unknownParent state parent => s!"state \"{state}\" has unknown parent \"{parent}\""
  | unknownDestination transition state target =>
    s!"transition \"{transition}\" of state \"{state}\" has unknown destination \"{target}\""
  | noCommonParent state target =>
    s!"\"{state}\" and \"{target}\" don't have a common parent"
  | isolated states =>
    "there are isolated states: " ++ ", ".intercalate (states.map fun name => s!"\"{name}\"")
  | reported text => text

/-- The wording of what goes wrong during a run. -/
def RunFault.message : RunFault → String
  | notNumeric key type =>
    s!"cannot convert \"{key}\" (" ++ type.name ++ ") to a number"
  | noEnclosingScope => "a standalone context has no enclosing scope"
  | emptyStack => "can't put to an empty context stack"
  | noParentScope => "context stack has no scope below its head"
  | unknownHead => "active state is not part of the structure"
  | vanished state => s!"state \"{state}\" vanished"
  | allClosed state => s!"all transitions of \"{state}\" are closed"
  | severalOpen state transitions =>
    s!"more than one transition of \"{state}\" is open: " ++ ", ".intercalate transitions
  | unknownTarget transition target =>
    s!"transition \"{transition}\" leads to unknown state \"{target}\""
  | noCommonParent state target =>
    s!"\"{state}\" and \"{target}\" don't have a common parent"
  | tooDeep state target =>
    s!"cannot descend more than one level per step: \"{state}\" -> \"{target}\""
  | pushFailed target => s!"pushing \"{target}\" to the context stack failed"
  | stepLimit limit => s!"step limit of {limit} transitions exceeded"
  | noGlobalScope => "context stack is empty"
  | unrecorded => "fatal error was not recorded"
  | reported text => text

/-- The name of a callback in messages. -/
def Role.name : Role → String
  | guard => "guard"
  | entryAction => "entry action"
  | named name => name

mutual

/-- The wording of a fault. -/
def Fault.message : Fault → String
  | .keyNotFound key => s!"No such key in the context: \"{key}\""
  | .invalidType requested actual =>
    "Value has a type different from requested, requested: " ++ requested.name
      ++ ", actual: " ++ actual.name
  | .stateAlreadyExists state => s!"State with the name \"{state}\" is already added"
  | .stateInvalid state cause => s!"State \"{state}\" is not valid: " ++ cause.message
  | .load cause => "Structure loading error: " ++ cause.message
  | .wrongFlow cause => cause.message
  | .chartInvalid cause => "FSM structure is invalid: " ++ cause.message
  | .runtime cause => "FSM encountered runtime error: " ++ cause.message
  | .callbackFailed role source =>
    "User-defined " ++ role.name ++ " returned an error: " ++ source.message
  | .fatal cause stack history =>
    "FSM stopped due to fatal error:\ncause:\n" ++ cause.message ++ "\n\nstack:\n" ++ stack
      ++ "\nhistory:\n" ++ history

/-- The wording of a failure of a callback. -/
def Failure.message : Failure → String
  | .fault fault => fault.message
  | .plain text => text

end

end Statechart
