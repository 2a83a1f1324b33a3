import Statechart.Dict.Basic

/-!
# `Statechart.Dict.Lemmas`: look-ups of finite maps

Every operation on a `Dict` is described by what a look-up answers afterwards
(`get?_empty`, `get?_insert`, `get?_erase`, `get?_mapWithKey`), and look-ups decide
equality (`ext_get?`). The entries are exactly the pairs that look-ups give
(`mem_entries`).
-/

set_option autoImplicit false

namespace Statechart

/-- After a value is put, a look-up of its name finds the value, and any other look-up finds what
it found before. -/
theorem lookup_insertEntry {α : Type} (key : String) (value : α) (other : String)
    (entries : List (String × α)) :
    (insertEntry key value entries).lookup other
      = if other = key then some value else entries.lookup other := by
  induction entries with
  | nil =>
    by_cases h : other = key
    · simp [insertEntry, h]
    · have hbeq : (other == key) = false := by simpa using h
      simp [insertEntry, List.lookup_cons, h, hbeq]
  | cons head rest ih =>
    obtain ⟨k, v⟩ := head
    unfold insertEntry
    by_cases h : other = key
    · subst h
      split
      · simp
      · split
        · simp
        · next hne =>
          have hbeq : (other == k) = false := by simpa using hne
          simp [List.lookup_cons, hbeq, ih]
    · have hbeq : (other == key) = false := by simpa using h
      rw [if_neg h]
      split
      · simp [List.lookup_cons, hbeq]
      · split
        · next heq =>
          simp only at heq
          subst heq
          simp [List.lookup_cons, hbeq]
        · simp [List.lookup_cons, ih, h]

namespace Dict

variable {α β : Type}

/-- The empty map answers no look-up. -/
@[simp] theorem get?_empty (key : String) : (empty : Dict α).get? key = none := rfl

/-- A look-up after an insertion, for any name. Where the name is known to be the new one or
another, `get?_insert_self` and `get?_insert_of_ne` say the same. -/
theorem get?_insert (d : Dict α) (key : String) (value : α) (other : String) :
    (d.insert key value).get? other = if other = key then some value else d.get? other :=
  lookup_insertEntry key value other d.entries

/-- A value that was put under a name is found there. -/
@[simp] theorem get?_insert_self (d : Dict α) (key : String) (value : α) :
    (d.insert key value).get? key = some value := by
  simp [get?_insert]

/-- An insertion leaves all other names alone. -/
theorem get?_insert_of_ne (d : Dict α) {key other : String} (value : α) (h : other ≠ key) :
    (d.insert key value).get? other = d.get? other := by
  simp [get?_insert, h]

/-- In the entries without a name a look-up finds what it found before, but nothing under that
name. -/
theorem lookup_filter_ne (key other : String) (entries : List (String × α)) :
    (entries.filter (·.1 ≠ key)).lookup other
      = if other = key then none else entries.lookup other := by
  induction entries with
  | nil => simp
  | cons head rest ih =>
    obtain ⟨k, v⟩ := head
    by_cases hk : k = key
    · subst hk
      by_cases ho : other = k
      · subst ho
        simpa using ih
      · have hbeq : (other == k) = false := by simpa using ho
        simpa [List.lookup_cons, ho, hbeq] using ih
    · by_cases ho : other = k
      · subst ho
        simp [hk]
      · have hbeq : (other == k) = false := by simpa using ho
        simpa [List.lookup_cons, hk, hbeq] using ih

/-- A look-up after a name is dropped, for any name. -/
theorem get?_erase (d : Dict α) (key other : String) :
    (d.erase key).get? other = if other = key then none else d.get? other :=
  lookup_filter_ne key other d.entries

/-- A look-up in the image of a map gives the image of what it gives in the map. -/
theorem get?_mapWithKey (d : Dict α) (f : String → α → β) (key : String) :
    (d.mapWithKey f).get? key = (d.get? key).map (f key) := by
  obtain ⟨entries, sorted⟩ := d
  show (entries.map fun entry => (entry.1, f entry.1 entry.2)).lookup key
    = (entries.lookup key).map (f key)
  clear sorted
  induction entries with
  | nil => rfl
  | cons head rest ih =>
    obtain ⟨k, v⟩ := head
    by_cases h : key = k
    · subst h
      simp
    · have hbeq : (key == k) = false := by simpa using h
      simp [List.lookup_cons, hbeq, ih]

/-- A name is in the map if a look-up finds a value. -/
@[simp] theorem contains_eq (d : Dict α) (key : String) :
    d.contains key = (d.get? key).isSome := rfl

/-- What a look-up finds is an entry. This needs no order. -/
theorem mem_of_lookup {entries : List (String × α)} {key : String} {value : α}
    (h : entries.lookup key = some value) : (key, value) ∈ entries := by
  induction entries with
  | nil => simp at h
  | cons head rest ih =>
    obtain ⟨k, v⟩ := head
    by_cases hk : key = k
    · subst hk
      simp only [List.lookup_cons, beq_self_eq_true, Option.some.injEq] at h
      simp [h]
    · have hbeq : (key == k) = false := by simpa using hk
      simp only [List.lookup_cons, hbeq] at h
      exact List.mem_cons_of_mem _ (ih h)

/-- In entries with strictly ordered names, a look-up finds each of them, as no other entry has its
name. -/
theorem lookup_of_mem {entries : List (String × α)} (hs : entries.Pairwise (·.1 < ·.1))
    {key : String} {value : α} (h : (key, value) ∈ entries) :
    entries.lookup key = some value := by
  induction entries with
  | nil => simp at h
  | cons head rest ih =>
    obtain ⟨k, v⟩ := head
    obtain ⟨hhead, hrest⟩ := List.pairwise_cons.1 hs
    rcases List.mem_cons.1 h with heq | h
    · cases heq
      simp
    · have hne : key ≠ k := fun heq => String.lt_irrefl k (heq ▸ hhead _ h)
      have hbeq : (key == k) = false := by simpa using hne
      simp [List.lookup_cons, hbeq, ih hrest h]

/-- The entries are the pairs that look-ups give. -/
theorem mem_entries (d : Dict α) (key : String) (value : α) :
    (key, value) ∈ d.entries ↔ d.get? key = some value :=
  ⟨lookup_of_mem d.sorted, mem_of_lookup⟩

/-- The names are those that have a value. -/
theorem mem_keys (d : Dict α) (key : String) : key ∈ d.keys ↔ (d.get? key).isSome := by
  rw [Option.isSome_iff_exists]
  unfold keys
  rw [List.mem_map]
  constructor
  · rintro ⟨⟨k, v⟩, hmem, rfl⟩
    exact ⟨v, (d.mem_entries k v).1 hmem⟩
  · rintro ⟨v, hv⟩
    exact ⟨(key, v), (d.mem_entries key v).2 hv, rfl⟩

/-- The values are those that some name has. -/
theorem mem_values (d : Dict α) (value : α) :
    value ∈ d.values ↔ ∃ key, d.get? key = some value := by
  unfold values
  rw [List.mem_map]
  constructor
  · rintro ⟨⟨k, v⟩, hmem, rfl⟩
    exact ⟨k, (d.mem_entries k v).1 hmem⟩
  · rintro ⟨k, hk⟩
    exact ⟨(k, value), (d.mem_entries k value).2 hk, rfl⟩

/-- No name is listed twice. -/
theorem nodup_keys (d : Dict α) : d.keys.Nodup := by
  unfold keys
  refine List.pairwise_map.2 (d.sorted.imp fun {a b} h heq => ?_)
  exact String.lt_irrefl b.1 (heq ▸ h)

/-- There are as many names as entries. -/
theorem length_keys (d : Dict α) : d.keys.length = d.size := by
  unfold keys size
  exact List.length_map _

/-- Different names that a map has are no more than its entries. -/
theorem length_le_size (d : Dict α) {names : List String} (hnodup : names.Nodup)
    (hknown : ∀ name ∈ names, (d.get? name).isSome) : names.length ≤ d.size := by
  have hsubset : names ⊆ d.keys := fun name hmem => (d.mem_keys name).2 (hknown name hmem)
  rw [← d.length_keys]
  exact hnodup.length_le_of_subset hsubset

/-- Entries whose names are in strict order are listed once each. -/
theorem nodup_of_sorted {entries : List (String × α)}
    (hs : entries.Pairwise (·.1 < ·.1)) : entries.Nodup := by
  refine hs.imp fun {a b} h heq => ?_
  exact String.lt_irrefl b.1 (heq ▸ h)

/-- Two lists with strictly ordered names are equal if they have the same entries, since there is
one order for them. -/
theorem entries_eq_of_mem_iff {xs ys : List (String × α)} (hx : xs.Pairwise (·.1 < ·.1))
    (hy : ys.Pairwise (·.1 < ·.1)) (h : ∀ entry, entry ∈ xs ↔ entry ∈ ys) : xs = ys :=
  List.Perm.eq_of_pairwise
    (fun _ _ _ _ hab hba => absurd hba (String.lt_asymm hab)) hx hy
    ((List.perm_ext_iff_of_nodup (nodup_of_sorted hx) (nodup_of_sorted hy)).2 h)

/-- Maps that answer every look-up alike are equal. -/
theorem ext_get? {d e : Dict α} (h : ∀ key, d.get? key = e.get? key) : d = e := by
  have hentries : d.entries = e.entries :=
    entries_eq_of_mem_iff d.sorted e.sorted fun ⟨key, value⟩ => by
      rw [mem_entries, mem_entries, h key]
  cases d
  cases e
  cases hentries
  rfl

/-- A name that is dropped comes back with its value. -/
theorem insert_erase_of_get? (d : Dict α) {key : String} {value : α}
    (h : d.get? key = some value) : (d.erase key).insert key value = d := by
  refine ext_get? fun other => ?_
  rw [get?_insert, get?_erase]
  by_cases hsame : other = key
  · rw [if_pos hsame, hsame, h]
  · rw [if_neg hsame, if_neg hsame]

/-- Dropping a name removes it from the names and leaves the others in their order. -/
theorem keys_erase (d : Dict α) (key : String) : (d.erase key).keys = d.keys.erase key := by
  rw [d.nodup_keys.erase_eq_filter]
  unfold keys erase
  rw [List.filter_map]
  refine congrArg _ (List.filter_congr fun entry _ => ?_)
  rw [Bool.eq_iff_iff]
  simp

/-- A name and those that are left without it are the names of the map. -/
theorem perm_keys_erase (d : Dict α) {key : String} (h : (d.get? key).isSome) :
    (key :: (d.erase key).keys).Perm d.keys := by
  rw [keys_erase]
  exact (List.perm_cons_erase ((d.mem_keys key).2 h)).symm

end Dict

end Statechart
