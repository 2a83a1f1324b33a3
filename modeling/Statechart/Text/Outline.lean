/-!
# `Statechart.Text.Outline`: indented diagnostic texts

A dump is an `Outline`: lines, each with its depth below the place where the dump is put.
Rendering at a level indents every line by one tab for each level and each step of depth,
so an outline can be nested in another one by raising its depth.
-/

set_option autoImplicit false

namespace Statechart

/-- A line of an outline. -/
structure Line where
  /-- Steps below the level of the outline. -/
  depth : Nat
  /-- What the line says. -/
  text : String
  deriving DecidableEq, Repr, Inhabited

/-- The line with its indentation at a level and its end of line. -/
def Line.render (level : Nat) (line : Line) : String :=
  String.ofList (List.replicate (level + line.depth) '\t') ++ line.text ++ "\n"

/-- A diagnostic text as lines with their depths. -/
abbrev Outline := List Line

namespace Outline

/-- The outline one step deeper. -/
def nested (outline : Outline) : Outline :=
  outline.map fun line => ⟨line.depth + 1, line.text⟩

/-- The text of an outline put at a level. -/
def render (level : Nat) (outline : Outline) : String :=
  String.join (outline.map (Line.render level))

/-- What is in a buffer after an outline is written to it at a level. -/
def writeTo (buffer : String) (level : Nat) (outline : Outline) : String :=
  buffer ++ render level outline

end Outline

end Statechart
