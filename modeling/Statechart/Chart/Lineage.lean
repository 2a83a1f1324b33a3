import Statechart.Chart.Basic

/-!
# `Statechart.Chart.Lineage`: parents, ancestors and depths

The lineage of a state is the path from the top of its tree down to the state. Two
lineages that meet share a beginning; its last state is the nearest common ancestor. No
path without repetition is longer than the number of states, so this number bounds the
walk up the parents: a longer chain has run into a cycle.
-/

set_option autoImplicit false

namespace Statechart

/-- The nearest state that two states have in common above or at them. -/
structure CommonAncestor where
  /-- The common state. -/
  ancestor : String
  /-- The depth of the common state. -/
  depth : Nat
  /-- The depth of the first of the two states. -/
  leftDepth : Nat
  /-- The depth of the second of the two states. -/
  rightDepth : Nat
  deriving DecidableEq, Repr

namespace CommonAncestor

/-- How much deeper the first state is than the second. -/
def depthDifference (meeting : CommonAncestor) : Int :=
  (meeting.leftDepth : Int) - meeting.rightDepth

/-- The levels from the common state down to the second one. -/
def descent (meeting : CommonAncestor) : Nat :=
  meeting.rightDepth - meeting.depth

end CommonAncestor

namespace Chart

/-- The chain from a state up through its parents, if it ends within `bound` states. -/
def chain? (chart : Chart) : (bound : Nat) → (name : String) → Option (List String)
  | 0, _ => none
  | bound + 1, name => do
    let state ← chart.get? name
    match state.parent with
    | none => pure [state.name]
    | some parent => (chart.chain? bound parent).map (state.name :: ·)

/-- The path from the top of its tree down to a state; none for states that are not there,
for parents that are not there and for cycles. -/
def lineage? (chart : Chart) (name : String) : Option (List String) :=
  (chart.chain? chart.size name).map List.reverse

/-- The number of states above a state. -/
def depth? (chart : Chart) (name : String) : Option Nat :=
  (chart.lineage? name).map fun path => path.length - 1

/-- The common beginning of two paths. -/
def sharedPath : List String → List String → List String
  | a :: left, b :: right => if a = b then a :: sharedPath left right else []
  | _, _ => []

/-- The nearest common ancestor of two states; a state is an ancestor of itself. -/
def commonAncestor? (chart : Chart) (left right : String) : Option CommonAncestor := do
  let leftPath ← chart.lineage? left
  let rightPath ← chart.lineage? right
  let shared := sharedPath leftPath rightPath
  let ancestor ← shared.getLast?
  pure ⟨ancestor, shared.length - 1, leftPath.length - 1, rightPath.length - 1⟩

end Chart

end Statechart
