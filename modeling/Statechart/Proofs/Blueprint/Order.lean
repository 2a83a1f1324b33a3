import Mathlib.Data.List.Chain
import Mathlib.Data.List.Nodup
import Mathlib.Logic.Relation
import Statechart.Blueprint.Order
import Statechart.Proofs.Success

/-!
# `Statechart.Proofs.Blueprint.Order`: the walk sorts, or shows a cycle

`DependsOn` is the relation of a dependency map between its own names; a dependency that is
no name of the map does not count. A list is `Ordered` for a relation if each name comes
once, behind all that it relies on.

* `visit_eq_ok`: what a visit hands on is ordered again, and the visited name is in it.
* `visit_eq_error`: a visit that fails has met a `Cycle`. The bound is never the reason,
  because the path has no repetition.
* `exists_dependencyOrder_iff`: so the walk gives an order exactly if no name depends on
  itself over any number of steps.
-/

set_option autoImplicit false

namespace Statechart

/-- Every name of the list comes once, behind the names that it relies on. -/
structure Ordered (relies : String → String → Prop) (order : List String) : Prop where
  /-- No name comes twice. -/
  nodup : order.Nodup
  /-- Each name comes behind what it relies on. -/
  behind : ∀ before name after, order = before ++ name :: after →
    ∀ needed, relies name needed → needed ∈ before

namespace Ordered

variable {relies : String → String → Prop} {order : List String} {name : String}

/-- Without names there is nothing to order. -/
theorem nil : Ordered relies [] :=
  ⟨List.nodup_nil, fun _ _ _ h => by simp at h⟩

/-- A new name may follow once all that it relies on is there. -/
theorem append (h : Ordered relies order) (hfresh : name ∉ order)
    (hneeds : ∀ needed, relies name needed → needed ∈ order) :
    Ordered relies (order ++ [name]) := by
  refine ⟨List.nodup_append.2 ⟨h.nodup, List.nodup_singleton _, ?_⟩, ?_⟩
  · intro a ha b hb heq
    rw [List.mem_singleton] at hb
    exact hfresh (hb ▸ heq ▸ ha)
  · intro before other after hsplit needed hrelies
    -- The name is the new one at the end, or it is split off inside the old list.
    rcases List.eq_nil_or_concat after with rfl | ⟨front, last, rfl⟩
    · obtain ⟨rfl, hlast⟩ := List.append_inj' hsplit rfl
      cases hlast
      exact hneeds needed hrelies
    · rw [List.concat_eq_append, ← List.cons_append, ← List.append_assoc] at hsplit
      exact h.behind _ _ _ (List.append_inj' hsplit rfl).1 needed hrelies

/-- What a name relies on over several steps comes before it as well. -/
theorem transGen_mem (h : Ordered relies order) {other : String}
    (hrelies : Relation.TransGen relies name other) {before after : List String}
    (hsplit : order = before ++ name :: after) : other ∈ before := by
  -- Each step leads further to the front of the list.
  induction hrelies with
  | single hstep => exact h.behind _ _ _ hsplit _ hstep
  | tail _ hstep ih =>
    obtain ⟨front, back, rfl⟩ := List.append_of_mem ih
    have hmem := h.behind front _ (back ++ name :: after) (by simpa using hsplit) _ hstep
    exact List.mem_append_left _ hmem

/-- A name of an ordered list does not rely on itself. -/
theorem not_transGen (h : Ordered relies order) (hmem : name ∈ order) :
    ¬ Relation.TransGen relies name name := by
  intro hrelies
  obtain ⟨before, after, rfl⟩ := List.append_of_mem hmem
  have hself := h.transGen_mem hrelies rfl
  exact (List.nodup_append.1 h.nodup).2.2 _ hself _ (List.mem_cons_self) rfl

/-- The last name of an ordered list does not come before. -/
theorem last_not_mem (h : Ordered relies (order ++ [name])) : name ∉ order := fun hmem =>
  (List.nodup_append.1 h.nodup).2.2 _ hmem _ (List.mem_singleton_self _) rfl

/-- What relies on the last name of an ordered list is not in it. -/
theorem not_mem_of_relies {other : String} (h : Ordered relies (order ++ [name]))
    (hrelies : relies other name) : other ∉ order ++ [name] := by
  -- Otherwise the last name would come before that one, and so twice.
  intro hmem
  have hlast : name ∈ order := by
    obtain ⟨before, after, hsplit⟩ := List.append_of_mem hmem
    have hname := h.behind before other after hsplit name hrelies
    rcases List.eq_nil_or_concat after with rfl | ⟨front, last, rfl⟩
    · rwa [(List.append_inj' hsplit rfl).1]
    · rw [List.concat_eq_append, ← List.cons_append, ← List.append_assoc] at hsplit
      rw [(List.append_inj' hsplit rfl).1]
      exact List.mem_append_left _ hname
  exact h.last_not_mem hlast

/-- The beginning of an ordered list is ordered. -/
theorem left_of_append {rest : List String} (h : Ordered relies (order ++ rest)) :
    Ordered relies order := by
  refine ⟨(List.nodup_append.1 h.nodup).1, fun before name after hsplit => ?_⟩
  exact h.behind before name (after ++ rest) (by simp [hsplit])

end Ordered

/-- A name of the map and another one that has to come before it. -/
def DependsOn (map : Dependencies) (name needed : String) : Prop :=
  (map.get? needed).isSome ∧ ∃ dependencies, map.get? name = some dependencies
    ∧ needed ∈ dependencies

/-- A path from a name back to it that meets no other name twice. -/
def Cycle (map : Dependencies) (cycle : List String) : Prop :=
  ∃ first rest, cycle = first :: rest ++ [first] ∧ (first :: rest).Nodup
    ∧ cycle.IsChain (DependsOn map)

variable {map : Dependencies} {bound : Nat} {path order out names : List String}
  {name : String} {fault : LoadFault}

/-- A cycle leads from its first name to this name again. -/
theorem Cycle.exists_transGen {cycle : List String} (h : Cycle map cycle) :
    ∃ name, Relation.TransGen (DependsOn map) name name := by
  obtain ⟨first, rest, rfl, -, hchain⟩ := h
  have hpath : ∀ (rest : List String) (name : String),
      (name :: rest ++ [first]).IsChain (DependsOn map) →
      Relation.TransGen (DependsOn map) name first := by
    intro rest
    induction rest with
    | nil => exact fun name h => .single (List.isChain_cons_cons.1 h).1
    | cons next rest ih =>
      intro name h
      obtain ⟨hstep, hrest⟩ := List.isChain_cons_cons.1 h
      exact .head hstep (ih next hrest)
  exact ⟨first, hpath rest first hchain⟩

/-! ### Visits that succeed -/

/-- What the walk has done while the names on `path` wait. -/
structure Pending (map : Dependencies) (path order : List String) : Prop where
  /-- The names that are done come behind what they depend on. -/
  ordered : Ordered (DependsOn map) order
  /-- They are names of the map. -/
  known : ∀ name ∈ order, (map.get? name).isSome
  /-- None of them is waiting. -/
  apart : ∀ name ∈ path, name ∉ order

/-- A name that is not done may wait as well. -/
theorem Pending.concat (h : Pending map path order) (hdone : name ∉ order) :
    Pending map (path ++ [name]) order := by
  refine ⟨h.ordered, h.known, ?_⟩
  simpa [or_imp, forall_and, hdone] using h.apart

/-- Visits of several names one after the other, if each of them does its work. -/
theorem foldlM_visit_eq_ok {step : List String → String → Except LoadFault (List String)}
    (hstep : ∀ order out name, Pending map path order → step order name = .ok out →
      Pending map path out ∧ order ⊆ out ∧ ((map.get? name).isSome → name ∈ out))
    (hpending : Pending map path order) (h : names.foldlM step order = .ok out) :
    Pending map path out ∧ order ⊆ out
      ∧ ∀ name ∈ names, (map.get? name).isSome → name ∈ out := by
  -- The order grows from visit to visit, and what is done stays done.
  induction names generalizing order with
  | nil =>
    cases h
    exact ⟨hpending, List.Subset.refl _, by simp⟩
  | cons first rest ih =>
    obtain ⟨mid, hfirst, hrest⟩ := bind_eq_ok.1 h
    obtain ⟨hmid, hgrows, hdone⟩ := hstep _ _ _ hpending hfirst
    obtain ⟨hout, hgrows', hall⟩ := ih hmid hrest
    refine ⟨hout, List.Subset.trans hgrows hgrows', ?_⟩
    exact List.forall_mem_cons.2 ⟨fun hknown => hgrows' (hdone hknown), hall⟩

/-- A visit keeps what is done, and adds the name and all that it depends on. -/
theorem visit_eq_ok (hpending : Pending map path order)
    (h : visit map bound path order name = .ok out) :
    Pending map path out ∧ order ⊆ out ∧ ((map.get? name).isSome → name ∈ out) := by
  -- The recursion is on the bound, while the path gets longer by the visited name.
  induction bound generalizing path order name out with
  | zero => cases h
  | succ bound ih =>
    unfold visit at h
    split at h
    · next hnone =>
      cases h
      exact ⟨hpending, List.Subset.refl _, fun hknown => by simp [hnone] at hknown⟩
    · next dependencies hget =>
      split at h
      · next hdone =>
        cases h
        exact ⟨hpending, List.Subset.refl _, fun _ => hdone⟩
      · next hdone =>
        split at h
        · cases h
        · next hfresh =>
          obtain ⟨mid, hmid, hlast⟩ := bind_eq_ok.1 h
          cases hlast
          -- The name waits itself while its dependencies are visited.
          obtain ⟨hinner, hgrows, hall⟩ :=
            foldlM_visit_eq_ok (fun _ _ _ hinner hvisit => ih hinner hvisit)
              (hpending.concat hdone) hmid
          have hnew : name ∉ mid := hinner.apart name (by simp)
          have hknown : (map.get? name).isSome := by simp [hget]
          refine ⟨⟨hinner.ordered.append hnew ?_, ?_, ?_⟩,
            List.Subset.trans hgrows (List.subset_append_left _ _), fun _ => by simp⟩
          · rintro needed ⟨hneeded, found, hfound, hmem⟩
            rw [hget] at hfound
            cases hfound
            exact hall needed hmem hneeded
          · simpa [or_imp, forall_and, hknown] using hinner.known
          · intro other hother hmem
            rcases List.mem_append.1 hmem with hmem | hmem
            · exact hinner.apart other (by simp [hother]) hmem
            · rw [List.mem_singleton] at hmem
              exact hfresh (hmem ▸ hother)

/-! ### Visits that fail -/

/-- A way through names that wait for each other. -/
structure Trail (map : Dependencies) (path : List String) : Prop where
  /-- The names are names of the map. -/
  known : ∀ name ∈ path, (map.get? name).isSome
  /-- No name comes twice. -/
  nodup : path.Nodup
  /-- Each name depends on the next one. -/
  chain : path.IsChain (DependsOn map)

/-- A trail may have no names. -/
theorem Trail.nil : Trail map [] :=
  ⟨by simp, List.nodup_nil, List.isChain_nil⟩

/-- A trail leads on to a new name that its last name depends on. -/
theorem Trail.concat (h : Trail map path) (hknown : (map.get? name).isSome)
    (hfresh : name ∉ path) (hnext : (path ++ [name]).IsChain (DependsOn map)) :
    Trail map (path ++ [name]) := by
  refine ⟨?_, ?_, hnext⟩
  · simpa [or_imp, forall_and, hknown] using h.known
  · refine List.nodup_append.2 ⟨h.nodup, List.nodup_singleton _, ?_⟩
    intro a ha b hb heq
    rw [List.mem_singleton] at hb
    exact hfresh (hb ▸ heq ▸ ha)

/-- The beginning of a trail is a trail. -/
theorem Trail.left_of_append {rest : List String} (h : Trail map (path ++ rest)) :
    Trail map path :=
  ⟨fun name hname => h.known name (List.mem_append_left _ hname),
    (List.nodup_append.1 h.nodup).1, h.chain.left_of_append⟩

/-- What the last name of a trail depends on comes next. -/
theorem Trail.isChain_concat {needed : String} {dependencies : List String}
    (h : Trail map (path ++ [name])) (hget : map.get? name = some dependencies)
    (hneeded : needed ∈ dependencies) (hthere : (map.get? needed).isSome) :
    (path ++ [name] ++ [needed]).IsChain (DependsOn map) := by
  refine List.isChain_append.2 ⟨h.chain, List.isChain_singleton _, ?_⟩
  intro last hlast next hhead
  rw [List.getLast?_concat] at hlast
  cases hlast
  cases hhead
  exact ⟨hthere, dependencies, hget, hneeded⟩

/-- A trail visits no more names than the map has. -/
theorem Trail.length_le_size (h : Trail map path) : path.length ≤ map.size :=
  map.length_le_size h.nodup h.known

/-- Meeting a name of the trail again closes a cycle. -/
theorem Trail.cycle (h : Trail map path) (hmem : name ∈ path)
    (hnext : (path ++ [name]).IsChain (DependsOn map)) :
    Cycle map (path.dropWhile (· ≠ name) ++ [name]) := by
  obtain ⟨before, rest, rfl⟩ := List.append_of_mem hmem
  obtain ⟨-, hnodup, hdisjoint⟩ := List.nodup_append.1 h.nodup
  have hdrop : (before ++ name :: rest).dropWhile (· ≠ name) = name :: rest := by
    rw [List.dropWhile_append_of_pos]
    · simp
    · intro other hother
      simpa using hdisjoint other hother name (List.mem_cons_self)
  rw [hdrop]
  refine ⟨name, rest, rfl, hnodup, ?_⟩
  rw [List.append_assoc] at hnext
  exact hnext.right_of_append

/-- A visit fails only with a cycle. -/
theorem visit_eq_error (htrail : Trail map path)
    (hnext : (map.get? name).isSome → (path ++ [name]).IsChain (DependsOn map))
    (hbound : map.size < path.length + bound)
    (h : visit map bound path order name = .error fault) :
    ∃ cycle, fault = .cycle cycle ∧ Cycle map cycle := by
  -- The trail and the bound together are longer than the map has names.
  induction bound generalizing path order name fault with
  | zero =>
    have hshort := htrail.length_le_size
    omega
  | succ bound ih =>
    unfold visit at h
    split at h
    · cases h
    · next dependencies hget =>
      have hknown : (map.get? name).isSome := by simp [hget]
      split at h
      · cases h
      · split at h
        · next hmem =>
          cases h
          exact ⟨_, rfl, htrail.cycle hmem (hnext hknown)⟩
        · next hfresh =>
          have hlonger := htrail.concat hknown hfresh (hnext hknown)
          cases hfold : dependencies.foldlM (visit map bound (path ++ [name])) order with
          | ok mid =>
            rw [hfold] at h
            cases h
          | error other =>
            rw [hfold] at h
            cases h
            obtain ⟨needed, hneeded, mid, hvisit⟩ := exists_of_foldlM_eq_error hfold
            refine ih hlonger (fun hthere => hlonger.isChain_concat hget hneeded hthere) ?_ hvisit
            rw [List.length_append, List.length_singleton]
            omega

/-! ### The whole walk -/

/-- An order that the walk gives holds every name of the map behind what it depends on. -/
theorem dependencyOrder_eq_ok (h : dependencyOrder map = .ok order) :
    Ordered (DependsOn map) order ∧ ∀ name, name ∈ order ↔ (map.get? name).isSome := by
  have hempty : Pending map [] [] := ⟨.nil, by simp, by simp⟩
  obtain ⟨hpending, -, hall⟩ :=
    foldlM_visit_eq_ok (fun _ _ _ hpending hvisit => visit_eq_ok hpending hvisit) hempty h
  refine ⟨hpending.ordered, fun name => ⟨hpending.known name, fun hknown => ?_⟩⟩
  exact hall name ((map.mem_keys name).2 hknown) hknown

/-- The walk fails only with a cycle. -/
theorem dependencyOrder_eq_error (h : dependencyOrder map = .error fault) :
    ∃ cycle, fault = .cycle cycle ∧ Cycle map cycle := by
  obtain ⟨name, -, order, hvisit⟩ := exists_of_foldlM_eq_error h
  refine visit_eq_error .nil (fun _ => List.isChain_singleton _) ?_ hvisit
  rw [List.length_nil]
  omega

/-- The walk gives an order exactly if no name depends on itself. -/
theorem exists_dependencyOrder_iff :
    (∃ order, dependencyOrder map = .ok order)
      ↔ ∀ name, ¬ Relation.TransGen (DependsOn map) name name := by
  constructor
  · rintro ⟨order, horder⟩ name hcycle
    obtain ⟨hordered, hall⟩ := dependencyOrder_eq_ok horder
    obtain ⟨_, ⟨_, dependencies, hget, _⟩, _⟩ := Relation.TransGen.head'_iff.1 hcycle
    exact hordered.not_transGen ((hall name).2 (by simp [hget])) hcycle
  · intro hacyclic
    cases h : dependencyOrder map with
    | ok order => exact ⟨order, rfl⟩
    | error fault =>
      obtain ⟨cycle, -, hcycle⟩ := dependencyOrder_eq_error h
      obtain ⟨name, hname⟩ := hcycle.exists_transGen
      exact absurd hname (hacyclic name)

end Statechart
