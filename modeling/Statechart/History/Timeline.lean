import Statechart.History.Basic
import Statechart.Json.Decoder
import Statechart.Json.Printer
import Statechart.Time.Rfc3339

/-!
# `Statechart.History.Timeline`: histories with the times of their moves

A timeline is a history in which every move has a time. It can be written as JSON and read
back.
-/

set_option autoImplicit false

namespace Statechart

/-- A move and when it was made. -/
structure TimedMove where
  /-- The move. -/
  move : Move
  /-- When it was made. -/
  time : Timestamp
  deriving DecidableEq, Repr

/-- Timed moves in order. -/
structure Timeline where
  /-- The moves. -/
  moves : List TimedMove
  deriving DecidableEq, Repr

namespace Timeline

/-- The timeline without moves. -/
def empty : Timeline := ⟨[]⟩

/-- Appends a move. -/
def record (timeline : Timeline) (move : TimedMove) : Timeline :=
  ⟨timeline.moves ++ [move]⟩

/-- The history without the times. -/
def history (timeline : Timeline) : History :=
  ⟨timeline.moves.map (·.move)⟩

/-- The time from the first move to the last, in seconds and nanoseconds; none if there are
no moves or if the last one comes before the first. -/
def duration? (timeline : Timeline) : Option (Nat × Nat) := do
  let first ← timeline.moves.head?
  let last ← timeline.moves.getLast?
  last.time.since? first.time

/-- The names of the fields of a timed move. -/
def moveFields : List String := ["from", "to", "transition", "timestamp"]

/-- A point in time. -/
def decodeTime : Decoder Timestamp := fun room document =>
  (Decoder.text room document).bind Timestamp.parse?

/-- A timed move; all of its fields are required. -/
def decodeMove : Decoder TimedMove :=
  .record moveFields fun fields => do
    let source ← fields.required "from" .text
    let target ← fields.required "to" .text
    let transition ← fields.required "transition" .text
    let time ← fields.required "timestamp" decodeTime
    pure ⟨⟨source, target, transition⟩, time⟩

/-- A timeline. -/
def decode : Decoder Timeline :=
  .record ["items"] fun fields => do
    let moves ← fields.required "items" (.list decodeMove)
    pure ⟨moves⟩

/-- The timeline of a JSON text. -/
def ofJson? (source : String) : Option Timeline :=
  decode.run source

/-- The JSON value of a timed move. -/
def moveJson (timed : TimedMove) : Json :=
  .obj [("from", .str timed.move.source), ("to", .str timed.move.target),
    ("transition", .str timed.move.transition), ("timestamp", .str timed.time.format)]

/-- The JSON text of a timeline. -/
def toJson (timeline : Timeline) : String :=
  (Json.obj [("items", .arr (timeline.moves.map moveJson))]).compact

end Timeline

end Statechart
