import Statechart.Callback.Script

/-!
# `Statechart.Registry`: actions by name

A blueprint refers to actions by name only; the registry says which scripts the names
stand for.
-/

set_option autoImplicit false

namespace Statechart

/-- Scripts by name. -/
structure Registry where
  /-- The scripts. -/
  scripts : Dict Script

namespace Registry

/-- The registry without actions. -/
def empty : Registry := ⟨Dict.empty⟩

/-- Registers a script; an earlier one of that name is replaced. -/
def insert (registry : Registry) (name : String) (script : Script) : Registry :=
  ⟨registry.scripts.insert name script⟩

/-- The script of a name. -/
def get? (registry : Registry) (name : String) : Option Script :=
  registry.scripts.get? name

/-- Whether a name is registered. -/
def contains (registry : Registry) (name : String) : Bool :=
  registry.scripts.contains name

/-- The number of names. -/
def size (registry : Registry) : Nat :=
  registry.scripts.size

/-- The names, in order. -/
def names (registry : Registry) : List String :=
  registry.scripts.keys

end Registry

end Statechart
