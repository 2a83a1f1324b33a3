import Mathlib.Data.List.Forall2
import Statechart.Dict.Lemmas

/-!
# `Statechart.Proofs.Success`: when computations that can fail succeed

A sequence of computations in `Except` succeeds exactly if each of them does. The lemmas
take such a success apart: for two computations in a row, for a loop over a list, and for
the map of a dictionary. A failure comes from one of the computations
(`bind_eq_error`, `exists_of_forM_eq_error`, `exists_of_mapM_eq_error`); a fold fails at an
element behind a part that succeeds (`exists_split_of_foldlM_eq_error`).
-/

set_option autoImplicit false

namespace Statechart

variable {ε δ α β : Type}

/-- Two computations in a row succeed if the first gives a value with which the second
succeeds. -/
theorem bind_eq_ok {x : Except ε α} {f : α → Except ε β} {b : β} :
    (x >>= f) = .ok b ↔ ∃ a, x = .ok a ∧ f a = .ok b := by
  cases x with
  | error e => simp [bind, Except.bind]
  | ok a => simp [bind, Except.bind]

/-- Two computations in a row fail if the first one does, or the second one with the value of
the first. -/
theorem bind_eq_error {x : Except ε α} {f : α → Except ε β} {error : ε} :
    (x >>= f) = .error error ↔ x = .error error ∨ ∃ a, x = .ok a ∧ f a = .error error := by
  cases x with
  | error e => simp [bind, Except.bind]
  | ok a => simp [bind, Except.bind]

/-- Rewording an error turns no failure into a success. -/
theorem mapError_eq_ok {x : Except ε α} {f : ε → δ} {a : α} :
    x.mapError f = .ok a ↔ x = .ok a := by
  cases x <;> simp [Except.mapError]

/-- A reworded error is an error. -/
theorem mapError_eq_error {x : Except ε α} {f : ε → δ} {error : δ} :
    x.mapError f = .error error ↔ ∃ cause, x = .error cause ∧ f cause = error := by
  cases x <;> simp [Except.mapError]

/-- The image of a computation succeeds if the computation does, with the image of its value. -/
theorem map_eq_ok {x : Except ε α} {f : α → β} {b : β} :
    x.map f = .ok b ↔ ∃ a, x = .ok a ∧ f a = b := by
  cases x <;> simp [Except.map]

/-- The image of a computation fails as the computation fails. -/
theorem map_eq_error {x : Except ε α} {f : α → β} {error : ε} :
    x.map f = .error error ↔ x = .error error := by
  cases x <;> simp [Except.map]

/-- A check of every element succeeds exactly if it succeeds for each of them. -/
theorem forM_eq_ok {xs : List α} {f : α → Except ε PUnit} {u : PUnit} :
    xs.forM f = .ok u ↔ ∀ x ∈ xs, f x = .ok () := by
  induction xs with
  | nil => simp [List.forM, pure, Except.pure]
  | cons x xs ih =>
    rw [List.forall_mem_cons, ← ih]
    show (f x >>= fun _ => xs.forM f) = .ok u ↔ f x = .ok () ∧ xs.forM f = .ok u
    rw [bind_eq_ok]
    exact ⟨fun ⟨_, hfirst, hrest⟩ => ⟨hfirst, hrest⟩, fun ⟨hfirst, hrest⟩ => ⟨(), hfirst, hrest⟩⟩

/-- A check of every element that fails does so at one of them. -/
theorem exists_of_forM_eq_error {xs : List α} {f : α → Except ε Unit} {error : ε}
    (h : xs.forM f = .error error) : ∃ x ∈ xs, f x = .error error := by
  induction xs with
  | nil => cases h
  | cons x xs ih =>
    have hstep : (f x >>= fun _ => xs.forM f) = .error error := h
    rcases bind_eq_error.1 hstep with hfirst | ⟨_, -, hrest⟩
    · exact ⟨x, by simp, hfirst⟩
    · obtain ⟨y, hy, herror⟩ := ih hrest
      exact ⟨y, by simp [hy], herror⟩

/-- A map over a list succeeds exactly if it does element by element. -/
theorem mapM_eq_ok {f : α → Except ε β} {xs : List α} {ys : List β} :
    xs.mapM f = .ok ys ↔ List.Forall₂ (fun x y => f x = .ok y) xs ys := by
  induction xs generalizing ys with
  | nil => cases ys <;> simp [pure, Except.pure]
  | cons x xs ih =>
    rw [List.mapM_cons, bind_eq_ok]
    constructor
    · rintro ⟨y, hy, hrest⟩
      obtain ⟨zs, hzs, hys⟩ := bind_eq_ok.1 hrest
      cases hys
      exact .cons hy (ih.1 hzs)
    · intro h
      cases h with
      | cons hy hzs => exact ⟨_, hy, bind_eq_ok.2 ⟨_, ih.2 hzs, rfl⟩⟩

/-- A map over a list succeeds if it does on every element. -/
theorem exists_mapM_iff {f : α → Except ε β} {xs : List α} :
    (∃ ys, xs.mapM f = .ok ys) ↔ ∀ x ∈ xs, ∃ y, f x = .ok y := by
  induction xs with
  | nil => simp [pure, Except.pure]
  | cons x xs ih =>
    rw [List.forall_mem_cons, ← ih]
    constructor
    · rintro ⟨ys, hys⟩
      cases mapM_eq_ok.1 hys with
      | cons hy hzs => exact ⟨⟨_, hy⟩, _, mapM_eq_ok.2 hzs⟩
    · rintro ⟨⟨y, hy⟩, zs, hzs⟩
      exact ⟨y :: zs, mapM_eq_ok.2 (.cons hy (mapM_eq_ok.1 hzs))⟩

/-- A map over a list that fails does so at one of its elements. -/
theorem exists_of_mapM_eq_error {f : α → Except ε β} {xs : List α} {error : ε}
    (h : xs.mapM f = .error error) : ∃ x ∈ xs, f x = .error error := by
  induction xs with
  | nil => cases h
  | cons x xs ih =>
    rw [List.mapM_cons] at h
    rcases bind_eq_error.1 h with hfirst | ⟨y, -, hrest⟩
    · exact ⟨x, by simp, hfirst⟩
    · rcases bind_eq_error.1 hrest with hothers | ⟨ys, -, hpure⟩
      · obtain ⟨z, hz, herror⟩ := ih hothers
        exact ⟨z, by simp [hz], herror⟩
      · cases hpure

/-- Folding a list in a row of two parts. -/
theorem foldlM_append_eq_ok {f : β → α → Except ε β} {xs ys : List α} {init out : β} :
    (xs ++ ys).foldlM f init = .ok out
      ↔ ∃ mid, xs.foldlM f init = .ok mid ∧ ys.foldlM f mid = .ok out := by
  rw [List.foldlM_append, bind_eq_ok]

/-- A fold that fails does so at one of its elements, with what the elements before it give. -/
theorem exists_split_of_foldlM_eq_error {step : β → α → Except ε β} {xs : List α} {init : β}
    {error : ε} (h : xs.foldlM step init = .error error) :
    ∃ before x after mid, xs = before ++ x :: after ∧ before.foldlM step init = .ok mid
      ∧ step mid x = .error error := by
  induction xs generalizing init with
  | nil => cases h
  | cons x xs ih =>
    rw [List.foldlM_cons] at h
    rcases bind_eq_error.1 h with hfirst | ⟨next, hnext, hrest⟩
    · exact ⟨[], x, xs, init, rfl, rfl, hfirst⟩
    · obtain ⟨before, y, after, mid, rfl, hmid, herror⟩ := ih hrest
      exact ⟨x :: before, y, after, mid, rfl, bind_eq_ok.2 ⟨next, hnext, hmid⟩, herror⟩

/-- A fold that fails does so at one of its elements. -/
theorem exists_of_foldlM_eq_error {step : β → α → Except ε β} {xs : List α} {init : β}
    {error : ε} (h : xs.foldlM step init = .error error) :
    ∃ x ∈ xs, ∃ mid, step mid x = .error error := by
  obtain ⟨before, x, after, mid, rfl, -, herror⟩ := exists_split_of_foldlM_eq_error h
  exact ⟨x, by simp, mid, herror⟩

namespace Dict

/-- The map of a list of pairs with different names looks up what the list does. -/
theorem get?_ofList {pairs : List (String × α)} (hnodup : (pairs.map (·.1)).Nodup)
    (key : String) : (ofList pairs).get? key = pairs.lookup key := by
  unfold ofList
  -- The fold starts with any map: a later insertion covers an earlier one, and the names
  -- are different, so the order of insertion does not show.
  suffices h : ∀ d : Dict α, (pairs.foldl (fun d pair => d.insert pair.1 pair.2) d).get? key
      = (pairs.lookup key).or (d.get? key) by
    rw [h empty, get?_empty, Option.or_none]
  induction pairs with
  | nil => intro d; simp
  | cons pair rest ih =>
    intro d
    obtain ⟨k, v⟩ := pair
    obtain ⟨hfresh, hrest⟩ := List.nodup_cons.1 hnodup
    rw [List.foldl_cons, ih hrest, get?_insert]
    by_cases hk : key = k
    · subst hk
      have hnone : rest.lookup key = none := by
        rw [List.lookup_eq_none_iff]
        intro other hmem
        simp only [bne_iff_ne, ne_eq]
        exact fun heq => hfresh (List.mem_map.2 ⟨other, hmem, heq.symm⟩)
      simp [hnone]
    · have hbeq : (key == k) = false := by simpa using hk
      simp [List.lookup_cons, hbeq, hk]

/-- The results of a function that can fail stand in the list under the names of the entries. -/
theorem lookup_of_forall₂ {f : String → α → Except ε β} {entries : List (String × α)}
    {pairs : List (String × β)}
    (h : List.Forall₂ (fun entry pair =>
      (f entry.1 entry.2).map (fun value => (entry.1, value)) = .ok pair) entries pairs) :
    pairs.map (·.1) = entries.map (·.1)
      ∧ ∀ key, match entries.lookup key with
        | none => pairs.lookup key = none
        | some value => ∃ result, f key value = .ok result ∧ pairs.lookup key = some result := by
  induction h with
  | nil => simp
  | @cons entry pair entries pairs hpair _ ih =>
    obtain ⟨k, v⟩ := entry
    obtain ⟨result, hresult, rfl⟩ := map_eq_ok.1 hpair
    refine ⟨by simp [ih.1], fun key => ?_⟩
    by_cases hk : key = k
    · subst hk
      simpa using hresult
    · have hbeq : (key == k) = false := by simpa using hk
      simpa [List.lookup_cons, hbeq] using ih.2 key

/-- What a map with a function that can fail looks up: the results for the entries. -/
theorem get?_of_mapM {f : String → α → Except ε β} {d : Dict α} {out : Dict β}
    (h : d.mapM f = .ok out) (key : String) :
    match d.get? key with
    | none => out.get? key = none
    | some value => ∃ result, f key value = .ok result ∧ out.get? key = some result := by
  obtain ⟨pairs, hpairs, rfl⟩ := map_eq_ok.1 h
  obtain ⟨hkeys, hlookup⟩ := lookup_of_forall₂ (mapM_eq_ok.1 hpairs)
  rw [get?_ofList (by rw [hkeys]; exact d.nodup_keys)]
  exact hlookup key

/-- A map with a function that can fail succeeds exactly if it does on every entry. -/
theorem exists_mapM_iff {f : String → α → Except ε β} {d : Dict α} :
    (∃ out, d.mapM f = .ok out)
      ↔ ∀ key value, d.get? key = some value → ∃ result, f key value = .ok result := by
  constructor
  · rintro ⟨out, hout⟩ key value hget
    obtain ⟨result, hresult, -⟩ : ∃ result, f key value = .ok result
        ∧ out.get? key = some result := by
      simpa [hget] using get?_of_mapM hout key
    exact ⟨result, hresult⟩
  · intro h
    obtain ⟨pairs, hpairs⟩ : ∃ pairs, d.entries.mapM (fun entry =>
        (f entry.1 entry.2).map fun value => (entry.1, value)) = .ok pairs := by
      refine Statechart.exists_mapM_iff.2 fun ⟨key, value⟩ hmem => ?_
      obtain ⟨result, hresult⟩ := h key value ((d.mem_entries key value).1 hmem)
      exact ⟨(key, result), map_eq_ok.2 ⟨result, hresult, rfl⟩⟩
    exact ⟨ofList pairs, map_eq_ok.2 ⟨pairs, hpairs, rfl⟩⟩

end Dict

end Statechart
