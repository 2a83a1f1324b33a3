import Statechart.Dict.Basic
import Statechart.Fault.Basic

/-!
# `Statechart.Blueprint.Order`: dependencies first

A dependency map lists for each name the names that come before it. `dependencyOrder` puts
the names of the map in such an order, by a depth-first walk in the order of the names, or
gives a cycle. Dependencies that the map does not list do not count.
-/

set_option autoImplicit false

namespace Statechart

/-- The names that come before each name. -/
abbrev Dependencies := Dict (List String)

/-- Puts a name behind its dependencies. `path` leads to the name through names that wait for
each other, and `order` holds the names that are done. A path without repetition is no
longer than the map, so a `bound` greater than that is never used up. -/
def visit (map : Dependencies) :
    (bound : Nat) → (path order : List String) → (name : String) →
      Except LoadFault (List String)
  | 0, path, _, _ => .error (.cycle path)
  | bound + 1, path, order, name =>
    match map.get? name with
    | none => .ok order
    | some dependencies =>
      if name ∈ order then .ok order
      else if name ∈ path then .error (.cycle (path.dropWhile (· ≠ name) ++ [name]))
      else do
        let order ← dependencies.foldlM (visit map bound (path ++ [name])) order
        pure (order ++ [name])

/-- The names of a map, each behind its dependencies. -/
def dependencyOrder (map : Dependencies) : Except LoadFault (List String) :=
  map.keys.foldlM (visit map (map.size + 1) []) []

end Statechart
