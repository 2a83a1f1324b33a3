/-!
# `Statechart.Dict`: finite maps from names to values

A `Dict α` lists its entries in the strict order of their names, which is the order of
the code points of the names. The order is part of the type, so two maps that answer
every look-up alike are equal (`Dict.ext_get?` in `Statechart.Dict.Lemmas`), and whatever
is printed from a map comes out in the order of the names.
-/

set_option autoImplicit false

namespace Statechart

/-- Puts a value under a name into a list of entries in the order of their names. -/
def insertEntry {α : Type} (key : String) (value : α) :
    List (String × α) → List (String × α)
  | [] => [(key, value)]
  | entry :: rest =>
    if key < entry.1 then (key, value) :: entry :: rest
    else if key = entry.1 then (key, value) :: rest
    else entry :: insertEntry key value rest

/-- What is in the list after a value is put is the new entry, or it was there before. -/
theorem mem_insertEntry {α : Type} {key : String} {value : α} {entry : String × α}
    {entries : List (String × α)} (h : entry ∈ insertEntry key value entries) :
    entry = (key, value) ∨ entry ∈ entries := by
  induction entries with
  | nil => simpa [insertEntry] using h
  | cons head rest ih =>
    unfold insertEntry at h
    split at h
    · simpa using h
    · split at h
      · simp only [List.mem_cons] at h ⊢
        exact h.imp_right Or.inr
      · simp only [List.mem_cons] at h ⊢
        rcases h with h | h
        · exact Or.inr (Or.inl h)
        · exact (ih h).imp_right Or.inr

/-- Of two different names one comes first. -/
theorem lt_or_lt_of_ne {a b : String} (h : a ≠ b) : a < b ∨ b < a := by
  by_cases hab : a < b
  · exact Or.inl hab
  · by_cases hba : b < a
    · exact Or.inr hba
    · exact absurd (String.le_antisymm (String.not_lt.1 hba) (String.not_lt.1 hab)) h

/-- Putting a value keeps the strict order of the names. The entry goes in front of the first name
that is greater, or takes the place of one with the same name. -/
theorem pairwise_insertEntry {α : Type} (key : String) (value : α)
    {entries : List (String × α)} (h : entries.Pairwise (·.1 < ·.1)) :
    (insertEntry key value entries).Pairwise (·.1 < ·.1) := by
  induction entries with
  | nil => simp [insertEntry]
  | cons head rest ih =>
    obtain ⟨hhead, hrest⟩ := List.pairwise_cons.1 h
    unfold insertEntry
    split
    · next hlt =>
      refine List.pairwise_cons.2 ⟨fun e he => ?_, h⟩
      rcases List.mem_cons.1 he with rfl | he
      · exact hlt
      · exact String.lt_trans hlt (hhead e he)
    · next hlt =>
      split
      · next heq => exact List.pairwise_cons.2 ⟨fun e he => heq ▸ hhead e he, hrest⟩
      · next hne =>
        refine List.pairwise_cons.2 ⟨fun e he => ?_, ih hrest⟩
        rcases mem_insertEntry he with rfl | he
        · exact (lt_or_lt_of_ne hne).resolve_left hlt
        · exact hhead e he

/-- A finite map from names to values. -/
structure Dict (α : Type) where
  /-- The entries, each name once. -/
  entries : List (String × α)
  /-- Names stand in strict order. -/
  sorted : entries.Pairwise (·.1 < ·.1)

namespace Dict

variable {α β : Type}

/-- The map without entries. -/
def empty : Dict α := ⟨[], List.Pairwise.nil⟩

instance : Inhabited (Dict α) := ⟨empty⟩

instance : EmptyCollection (Dict α) := ⟨empty⟩

/-- The value under a name. -/
def get? (d : Dict α) (key : String) : Option α :=
  d.entries.lookup key

/-- Whether a name has a value. -/
def contains (d : Dict α) (key : String) : Bool :=
  (d.get? key).isSome

/-- Puts a value under a name and drops the value it had. -/
def insert (d : Dict α) (key : String) (value : α) : Dict α :=
  ⟨insertEntry key value d.entries, pairwise_insertEntry key value d.sorted⟩

/-- Drops a name. -/
def erase (d : Dict α) (key : String) : Dict α :=
  ⟨d.entries.filter (·.1 ≠ key), d.sorted.filter _⟩

/-- The names, in order. -/
def keys (d : Dict α) : List String :=
  d.entries.map (·.1)

/-- The values, in the order of their names. -/
def values (d : Dict α) : List α :=
  d.entries.map (·.2)

/-- The number of names. -/
def size (d : Dict α) : Nat :=
  d.entries.length

/-- Whether the map has no names. -/
def isEmpty (d : Dict α) : Bool :=
  d.entries.isEmpty

/-- The map of a list of pairs; of two pairs with one name the later counts. -/
def ofList (pairs : List (String × α)) : Dict α :=
  pairs.foldl (fun d pair => d.insert pair.1 pair.2) empty

/-- The map with `f` applied to every name and value. -/
def mapWithKey (f : String → α → β) (d : Dict α) : Dict β :=
  ⟨d.entries.map fun entry => (entry.1, f entry.1 entry.2),
    List.pairwise_map.2 d.sorted⟩

/-- The map with `f` applied to every name and value in order, unless one of them fails. -/
def mapM {ε : Type} (f : String → α → Except ε β) (d : Dict α) : Except ε (Dict β) :=
  (d.entries.mapM fun entry => (f entry.1 entry.2).map fun value => (entry.1, value)).map ofList

end Dict

end Statechart
