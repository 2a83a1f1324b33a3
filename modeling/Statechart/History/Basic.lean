import Statechart.Text.Outline

/-!
# `Statechart.History.Basic`: the transitions of a run

A history lists the moves of a run, the first one first. A move is a transition that was
taken, with the states that it left and entered.
-/

set_option autoImplicit false

namespace Statechart

/-- A transition that was taken. -/
structure Move where
  /-- The state that was left. -/
  source : String
  /-- The state that was entered. -/
  target : String
  /-- The name of the transition. -/
  transition : String
  deriving DecidableEq, Repr, Inhabited

/-- The moves of a run in order. -/
structure History where
  /-- The moves. -/
  moves : List Move
  deriving DecidableEq, Repr, Inhabited

namespace History

/-- The history of a run that has not begun. -/
def empty : History := ⟨[]⟩

/-- Appends a move. -/
def record (history : History) (move : Move) : History :=
  ⟨history.moves ++ [move]⟩

/-- The number of moves. -/
def size (history : History) : Nat :=
  history.moves.length

/-- Whether there are no moves. -/
def isEmpty (history : History) : Bool :=
  history.moves.isEmpty

/-- The last move. -/
def last? (history : History) : Option Move :=
  history.moves.getLast?

/-- The states that were visited: the source of the first move, then every target. -/
def path (history : History) : List String :=
  (history.moves.head?.map (·.source)).toList ++ history.moves.map (·.target)

/-- The dump of a history. -/
def outline (history : History) : Outline :=
  if history.isEmpty then [⟨0, "(empty)"⟩]
  else history.moves.map fun move =>
    ⟨0, "from: " ++ move.source ++ ", to: " ++ move.target ++ ", transition: "
      ++ move.transition⟩

end History

end Statechart
