import Mathlib.Data.List.Pairwise
import Statechart.Blueprint.Links
import Statechart.Proofs.Success

/-!
# `Statechart.Proofs.Blueprint.Links`: which declared states can be linked

A state delegates to the start substate that it names (`Blueprint.Delegates`). The parent of
a declared state is the one that it names, or else the state that delegates to it
(`Blueprint.effectiveParent?`).

`links_eq_ok_iff` says when all links can be made (`Blueprint.Linkable`) and what they are.
The dependencies of a state are then just its parent.
-/

set_option autoImplicit false

namespace Statechart

namespace Blueprint

variable {blueprint : Blueprint} {claims : Dict String} {links : Dict Link} {link : Link}
  {name : String} {plan : StatePlan}

/-- A declared state names another one as its start substate. -/
def Delegates (blueprint : Blueprint) (name start : String) : Prop :=
  ∃ plan, blueprint.states.get? name = some plan ∧ plan.startName? = some start

/-- The first state, in the order of names, that delegates to the given one. -/
def claimer? (blueprint : Blueprint) (name : String) : Option String :=
  (blueprint.states.entries.find? fun entry => entry.2.startName? = some name).map (·.1)

/-- The parent that a declared state names, or else the state that delegates to it. -/
def effectiveParent? (blueprint : Blueprint) (name : String) : Option String :=
  (blueprint.states.get? name).bind fun plan => plan.parentName?.or (blueprint.claimer? name)

/-- A declared state and its effective parent. -/
def Under (blueprint : Blueprint) (child parent : String) : Prop :=
  blueprint.effectiveParent? child = some parent

/-- The start substates can be entered as claims. -/
structure Claimable (blueprint : Blueprint) : Prop where
  /-- A state that delegates has no ways out of its own. -/
  undecided : ∀ name plan start, blueprint.states.get? name = some plan →
    plan.startName? = some start → plan.transitions.isEmpty
  /-- Start substates are declared. -/
  declared : ∀ name start, blueprint.Delegates name start →
    (blueprint.states.get? start).isSome
  /-- No state is the start substate of two states. -/
  unique : ∀ name other start, blueprint.Delegates name start →
    blueprint.Delegates other start → name = other

/-- The states can be linked. -/
structure Linkable (blueprint : Blueprint) : Prop extends Claimable blueprint where
  /-- Parents are declared. -/
  parents : ∀ name plan parent, blueprint.states.get? name = some plan →
    plan.parentName? = some parent → (blueprint.states.get? parent).isSome
  /-- A start substate with a parent of its own names the state that delegates to it. -/
  agreeing : ∀ name plan parent other, blueprint.states.get? name = some plan →
    plan.parentName? = some parent → blueprint.Delegates other name → parent = other
  /-- A start state has no parent. -/
  free : ∀ name plan, blueprint.states.get? name = some plan → plan.start →
    blueprint.effectiveParent? name = none

/-- In a list of entries a start substate is found under the state that names it. -/
theorem exists_of_claimer? {start : String} (h : blueprint.claimer? start = some name) :
    blueprint.Delegates name start := by
  obtain ⟨entry, hfind, rfl⟩ := Option.map_eq_some_iff.1 h
  have hstart := List.find?_some hfind
  have hmem := List.mem_of_find?_eq_some hfind
  exact ⟨entry.2, (blueprint.states.mem_entries _ _).1 hmem, by simpa using hstart⟩

/-- A start substate is claimed, though perhaps by another state that names it as well. -/
theorem claimer?_isSome {start : String} (h : blueprint.Delegates name start) :
    (blueprint.claimer? start).isSome := by
  obtain ⟨plan, hget, hstart⟩ := h
  unfold claimer?
  rw [Option.isSome_map, List.find?_isSome]
  exact ⟨(name, plan), (blueprint.states.mem_entries _ _).2 hget, by simpa using hstart⟩

/-- If start substates are claimed once at most, the claimer is the state that delegates. -/
theorem Claimable.claimer?_eq_some_iff (h : blueprint.Claimable) {start : String} :
    blueprint.claimer? start = some name ↔ blueprint.Delegates name start := by
  refine ⟨exists_of_claimer?, fun hname => ?_⟩
  obtain ⟨other, hother⟩ := Option.isSome_iff_exists.1 (claimer?_isSome hname)
  rw [hother, h.unique name other start hname (exists_of_claimer? hother)]

/-- A declared state has the parent that it names, and else the state that claims it. -/
theorem effectiveParent?_eq (hget : blueprint.states.get? name = some plan) :
    blueprint.effectiveParent? name = plan.parentName?.or (blueprint.claimer? name) := by
  simp [effectiveParent?, hget]

/-- Only declared states have parents. -/
theorem exists_of_effectiveParent? {parent : String}
    (h : blueprint.effectiveParent? name = some parent) :
    ∃ plan, blueprint.states.get? name = some plan
      ∧ plan.parentName?.or (blueprint.claimer? name) = some parent :=
  Option.bind_eq_some_iff.1 h

/-- Effective parents are declared. -/
theorem Linkable.parent_declared (h : blueprint.Linkable) {parent : String}
    (hparent : blueprint.Under name parent) :
    (blueprint.states.get? parent).isSome := by
  obtain ⟨plan, hget, hor⟩ := exists_of_effectiveParent? hparent
  cases hnamed : plan.parentName? with
  | some other =>
    rw [hnamed, Option.some_or, Option.some.injEq] at hor
    exact h.parents name plan parent hget (by rw [hnamed, hor])
  | none =>
    rw [hnamed, Option.none_or] at hor
    obtain ⟨above, habove, -⟩ := exists_of_claimer? hor
    simp [habove]

/-- The start substate of a state has this state as its parent. -/
theorem Linkable.parent_of_delegates (h : blueprint.Linkable) {start : String}
    (hstart : blueprint.Delegates name start) :
    blueprint.Under start name := by
  obtain ⟨plan, hget⟩ := Option.isSome_iff_exists.1 (h.declared name start hstart)
  rw [Under, effectiveParent?_eq hget, h.claimer?_eq_some_iff.2 hstart]
  cases hnamed : plan.parentName? with
  | none => rfl
  | some parent => rw [h.agreeing start plan parent name hget hnamed hstart, Option.some_or]

/-! ### Claims -/

/-- A claim succeeds if the start substate is declared and not claimed yet, and the state that
names it has no transitions. It adds this one claim; a state without a start substate adds none. -/
theorem claim_eq_ok_iff {entry : String × StatePlan} {out : Dict String} :
    blueprint.claim claims entry = .ok out
      ↔ (∀ start, entry.2.startName? = some start → entry.2.transitions.isEmpty
          ∧ (blueprint.states.get? start).isSome ∧ claims.get? start = none)
        ∧ ∀ name, out.get? name
          = if entry.2.startName? = some name then some entry.1 else claims.get? name := by
  unfold claim
  cases hstart : entry.2.startName? with
  | none =>
    simp only [Except.ok.injEq, reduceCtorEq, false_implies, implies_true, true_and, if_false]
    exact ⟨fun h => by simp [h], fun h => Dict.ext_get? fun name => (h name).symm⟩
  | some start =>
    simp only [Option.some.injEq, forall_eq']
    by_cases hways : entry.2.transitions.isEmpty
    · by_cases hdeclared : (blueprint.states.get? start).isSome
      · cases hclaims : claims.get? start with
        | some other => simp [hways, hdeclared]
        | none =>
          simp only [hways, hdeclared, not_true_eq_false, if_false, Dict.contains_eq,
            Except.ok.injEq, and_self, true_and]
          constructor
          · rintro rfl name
            rw [Dict.get?_insert]
            simp [eq_comm]
          · intro h
            refine Dict.ext_get? fun name => ?_
            rw [Dict.get?_insert, h name]
            simp [eq_comm]
      · simp [hways, hdeclared]
    · simp [hways]

/-- Once several claims are entered, the map holds them beside the ones that it had. -/
theorem of_foldlM_claim {entries : List (String × StatePlan)} {out : Dict String}
    (h : entries.foldlM blueprint.claim claims = .ok out) :
    (∀ entry ∈ entries, ∀ start, entry.2.startName? = some start →
        entry.2.transitions.isEmpty ∧ (blueprint.states.get? start).isSome
          ∧ claims.get? start = none)
      ∧ entries.Pairwise (fun a b => ∀ start, a.2.startName? = some start →
          b.2.startName? ≠ some start)
      ∧ ∀ name, out.get? name
        = ((entries.find? fun entry => entry.2.startName? = some name).map (·.1)).or
            (claims.get? name) := by
  -- What the later entries find unclaimed, the first one has not claimed either.
  induction entries generalizing claims with
  | nil =>
    cases h
    simp
  | cons entry rest ih =>
    obtain ⟨mid, hclaim, hrest⟩ := bind_eq_ok.1 h
    obtain ⟨hentry, hmid⟩ := claim_eq_ok_iff.1 hclaim
    obtain ⟨hall, hpairwise, hout⟩ := ih hrest
    -- What a later state names is claimed by no earlier one.
    have hfree : ∀ other ∈ rest, ∀ start, other.2.startName? = some start →
        entry.2.startName? ≠ some start ∧ claims.get? start = none := by
      intro other hother start hstart
      have hnone := (hall other hother start hstart).2.2
      rw [hmid start] at hnone
      split at hnone
      · cases hnone
      · next hne => exact ⟨hne, hnone⟩
    refine ⟨List.forall_mem_cons.2 ⟨hentry, fun other hother start hstart => ?_⟩,
      List.pairwise_cons.2 ⟨fun other hother start hstart hsame => ?_, hpairwise⟩,
      fun name => ?_⟩
    · obtain ⟨hways, hdeclared, -⟩ := hall other hother start hstart
      exact ⟨hways, hdeclared, (hfree other hother start hstart).2⟩
    · exact (hfree other hother start hsame).1 hstart
    · rw [hout name, hmid name, List.find?_cons]
      by_cases hstart : entry.2.startName? = some name
      · have hnone : rest.find? (fun other => other.2.startName? = some name) = none := by
          refine List.find?_eq_none.2 fun other hother hsame => ?_
          exact (hfree other hother name (by simpa using hsame)).1 hstart
        simp [hstart, hnone]
      · simp [hstart]

/-- Claims that do not get in each other's way can all be entered. -/
theorem exists_foldlM_claim {entries : List (String × StatePlan)}
    (hall : ∀ entry ∈ entries, ∀ start, entry.2.startName? = some start →
      entry.2.transitions.isEmpty ∧ (blueprint.states.get? start).isSome
        ∧ claims.get? start = none)
    (hpairwise : entries.Pairwise (fun a b => ∀ start, a.2.startName? = some start →
      b.2.startName? ≠ some start)) :
    ∃ out, entries.foldlM blueprint.claim claims = .ok out := by
  -- The first claim takes only its own start substate, which no later entry names.
  induction entries generalizing claims with
  | nil => exact ⟨claims, rfl⟩
  | cons entry rest ih =>
    obtain ⟨hentry, hrest⟩ := List.forall_mem_cons.1 hall
    obtain ⟨hapart, hpairwise⟩ := List.pairwise_cons.1 hpairwise
    obtain ⟨mid, hmid⟩ : ∃ mid, blueprint.claim claims entry = .ok mid := by
      cases hstart : entry.2.startName? with
      | none => exact ⟨claims, by simp [claim, hstart]⟩
      | some start =>
        obtain ⟨hways, hdeclared, hfree⟩ := hentry start hstart
        exact ⟨claims.insert start entry.1, by simp [claim, hstart, hways, hdeclared, hfree]⟩
    have hlookup := (claim_eq_ok_iff.1 hmid).2
    have hfree : ∀ other ∈ rest, ∀ start, other.2.startName? = some start →
        other.2.transitions.isEmpty ∧ (blueprint.states.get? start).isSome
          ∧ mid.get? start = none := by
      intro other hother start hstart
      obtain ⟨hways, hdeclared, hfree⟩ := hrest other hother start hstart
      refine ⟨hways, hdeclared, ?_⟩
      rw [hlookup start, if_neg (fun hsame => hapart other hother start hsame hstart), hfree]
    obtain ⟨out, hout⟩ := ih hfree hpairwise
    exact ⟨out, bind_eq_ok.2 ⟨mid, hmid, hout⟩⟩

/-- The claims say who delegates to whom. -/
theorem get?_of_claims (h : blueprint.claims = .ok claims) (name : String) :
    claims.get? name = blueprint.claimer? name := by
  rw [(of_foldlM_claim h).2.2 name, Dict.get?_empty, Option.or_none]
  rfl

/-- The claims can be made exactly if the states allow it. -/
theorem exists_claims_iff : (∃ claims, blueprint.claims = .ok claims) ↔ blueprint.Claimable := by
  constructor
  · rintro ⟨claims, hclaims⟩
    obtain ⟨hall, hpairwise, -⟩ := of_foldlM_claim hclaims
    refine ⟨fun name plan start hget hstart => ?_, ?_, ?_⟩
    · exact (hall (name, plan) ((Dict.mem_entries _ _ _).2 hget) start hstart).1
    · rintro name start ⟨plan, hget, hstart⟩
      exact (hall (name, plan) ((Dict.mem_entries _ _ _).2 hget) start hstart).2.1
    · rintro name other start ⟨plan, hget, hstart⟩ ⟨plan', hget', hstart'⟩
      -- Two different entries would name the same start substate.
      by_contra hne
      have hsymm : Std.Symm fun a b : String × StatePlan => ∀ start,
          a.2.startName? = some start → b.2.startName? ≠ some start :=
        ⟨fun _ _ hapart start hb ha => hapart start ha hb⟩
      have hapart := hpairwise.forall ((Dict.mem_entries _ _ _).2 hget)
        ((Dict.mem_entries _ _ _).2 hget') (fun heq => hne (congrArg Prod.fst heq))
      exact hapart start hstart hstart'
  · rintro ⟨hways, hdeclared, hunique⟩
    refine exists_foldlM_claim ?_ ?_
    · rintro ⟨name, plan⟩ hmem start hstart
      have hget := (Dict.mem_entries _ _ _).1 hmem
      exact ⟨hways name plan start hget hstart, hdeclared name start ⟨plan, hget, hstart⟩, rfl⟩
    · -- The entries have increasing names, so different ones do not name the same state.
      refine blueprint.states.sorted.imp_of_mem ?_
      rintro ⟨name, plan⟩ ⟨other, plan'⟩ hmem hmem' hlt start hstart hstart'
      have hsame := hunique name other start
        ⟨plan, (Dict.mem_entries _ _ _).1 hmem, hstart⟩
        ⟨plan', (Dict.mem_entries _ _ _).1 hmem', hstart'⟩
      subst hsame
      exact String.lt_irrefl name hlt

/-! ### Links -/

/-- A state can be linked exactly if its parent is declared and is the state that claims it,
and it has no parent if it is a start state. -/
theorem link_eq_ok_iff :
    blueprint.link claims name plan = .ok link
      ↔ (∀ parent, plan.parentName? = some parent → (blueprint.states.get? parent).isSome
          ∧ ∀ claimer, claims.get? name = some claimer → parent = claimer)
        ∧ (plan.start → plan.parentName?.or (claims.get? name) = none)
        ∧ link = ⟨plan.parentName?.or (claims.get? name), claims.get? name,
            (plan.parentName?.or (claims.get? name)).toList⟩ := by
  have hone : ∀ parent : String, [parent].eraseDups = [parent] := fun parent => by
    simp [List.eraseDups_cons]
  have htwice : ∀ parent : String, [parent, parent].eraseDups = [parent] := fun parent => by
    simp [List.eraseDups_cons]
  -- The cases are the ones of the definition: the named parent, whether it is declared, who
  -- claims the state, whether the two agree, and the mark of a start state.
  unfold Blueprint.link
  cases hparent : plan.parentName? with
  | none =>
    cases hclaimer : claims.get? name with
    | none => simp [eq_comm (a := link)]
    | some claimer =>
      cases hstart : plan.start with
      | true => simp
      | false => simp [hone, eq_comm (a := link)]
  | some parent =>
    cases hdeclared : blueprint.states.get? parent with
    | none => simp [Option.filter_some, hdeclared]
    | some above =>
      cases hclaimer : claims.get? name with
      | none =>
        cases hstart : plan.start with
        | true => simp [Option.filter_some, hdeclared]
        | false => simp [Option.filter_some, hdeclared, hone, eq_comm (a := link)]
      | some claimer =>
        by_cases hsame : parent = claimer
        · subst hsame
          cases hstart : plan.start with
          | true => simp [Option.filter_some, hdeclared]
          | false => simp [Option.filter_some, hdeclared, htwice, eq_comm (a := link)]
        · simp [Option.filter_some, hdeclared, hsame]

/-- The links are made of the effective parents and the claimers. -/
theorem get?_of_links (h : blueprint.links = .ok links) (name : String) :
    links.get? name = (blueprint.states.get? name).map fun _ =>
      ⟨blueprint.effectiveParent? name, blueprint.claimer? name,
        (blueprint.effectiveParent? name).toList⟩ := by
  obtain ⟨claims, hclaims, hmap⟩ := bind_eq_ok.1 h
  have hlink := Dict.get?_of_mapM hmap name
  cases hget : blueprint.states.get? name with
  | none => simpa [hget] using hlink
  | some plan =>
    simp only [hget] at hlink
    obtain ⟨link, hlink, hfound⟩ := hlink
    obtain ⟨-, -, rfl⟩ := link_eq_ok_iff.1 hlink
    rw [hfound, get?_of_claims hclaims, ← effectiveParent?_eq hget, Option.map_some]

/-- All links can be made exactly if the states are linkable. -/
theorem exists_links_iff : (∃ links, blueprint.links = .ok links) ↔ blueprint.Linkable := by
  constructor
  · rintro ⟨links, hlinks⟩
    obtain ⟨claims, hclaims, hmap⟩ := bind_eq_ok.1 hlinks
    have hclaimable := exists_claims_iff.1 ⟨claims, hclaims⟩
    have hall := Dict.exists_mapM_iff.1 ⟨links, hmap⟩
    refine ⟨hclaimable, ?_, ?_, ?_⟩
    · intro name plan parent hget hparent
      obtain ⟨link, hlink⟩ := hall name plan hget
      exact ((link_eq_ok_iff.1 hlink).1 parent hparent).1
    · intro name plan parent other hget hparent hother
      obtain ⟨link, hlink⟩ := hall name plan hget
      refine ((link_eq_ok_iff.1 hlink).1 parent hparent).2 other ?_
      rw [get?_of_claims hclaims]
      exact hclaimable.claimer?_eq_some_iff.2 hother
    · intro name plan hget hstart
      obtain ⟨link, hlink⟩ := hall name plan hget
      rw [effectiveParent?_eq hget, ← get?_of_claims hclaims]
      exact (link_eq_ok_iff.1 hlink).2.1 hstart
  · intro hlinkable
    obtain ⟨claims, hclaims⟩ := exists_claims_iff.2 hlinkable.toClaimable
    obtain ⟨links, hlinks⟩ : ∃ links,
        blueprint.states.mapM (blueprint.link claims) = .ok links := by
      refine Dict.exists_mapM_iff.2 fun name plan hget => ⟨_, link_eq_ok_iff.2 ⟨?_, ?_, rfl⟩⟩
      · intro parent hparent
        refine ⟨hlinkable.parents name plan parent hget hparent, fun claimer hclaimer => ?_⟩
        rw [get?_of_claims hclaims] at hclaimer
        exact hlinkable.agreeing name plan parent claimer hget hparent
          (exists_of_claimer? hclaimer)
      · intro hstart
        rw [get?_of_claims hclaims, ← effectiveParent?_eq hget]
        exact hlinkable.free name plan hget hstart
    exact ⟨links, bind_eq_ok.2 ⟨claims, hclaims, hlinks⟩⟩

end Blueprint

end Statechart
