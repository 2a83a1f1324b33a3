import Statechart.Blueprint.Assembly
import Statechart.Proofs.Blueprint.Order
import Statechart.Proofs.Blueprint.WellFormed

/-!
# `Statechart.Proofs.Blueprint.Making`: the states of a blueprint, one after the other

`Making` is the invariant of the loop that makes the states: the parts show the layout of the
blueprint, as far as it is made, and the mark is on the start state once this is made. In an
order that puts parents first, a new state always finds its parent, and its parent can adopt
it (`exists_attach`). So the loop stops early only where a transition cannot be compiled or a
second start state comes up.

`exists_resolve_iff`: the states can be resolved exactly if the blueprint is `Resolvable`.
-/

set_option autoImplicit false

namespace Statechart

namespace Parts

/-- A state is marked unless it is the second one. -/
theorem mark_eq_ok_iff {parts : Parts} {name : String} {isStart : Bool}
    {start : Option String} :
    parts.mark name isStart = .ok start
      ↔ (isStart → parts.start = none)
        ∧ start = if isStart then some name else parts.start := by
  unfold mark
  cases isStart with
  | false =>
    simp only [Bool.false_eq_true, if_false, Except.ok.injEq, false_implies, true_and]
    exact eq_comm
  | true =>
    cases hstart : parts.start with
    | none =>
      simp only [if_true, Except.ok.injEq, imp_self, true_and]
      exact eq_comm
    | some first => simp

/-- A state is not marked because another one is marked already. -/
theorem exists_of_mark_eq_error {parts : Parts} {name : String} {isStart : Bool} {fault : Fault}
    (h : parts.mark name isStart = .error fault) :
    isStart ∧ ∃ first, parts.start = some first ∧ fault = .load (.severalStarts first name) := by
  unfold mark at h
  split at h
  · next hstart =>
    split at h
    · next first hfirst =>
      cases h
      exact ⟨hstart, first, hfirst, rfl⟩
    · cases h
  · cases h

end Parts

namespace Blueprint

variable {blueprint : Blueprint} {registry : Registry} {links : Dict Link}
  {made order : List String} {parts parts' : Parts} {name : String} {plan : StatePlan}
  {ways : List Transition}

/-- The dependencies between declared states lead to their parents. -/
theorem dependsOn_eq (hlinks : blueprint.links = .ok links) :
    DependsOn (links.mapWithKey fun _ link => link.dependencies) = blueprint.Under := by
  have hlinkable := exists_links_iff.1 ⟨links, hlinks⟩
  have hlookup : ∀ name, (links.mapWithKey fun _ link => link.dependencies).get? name
      = (blueprint.states.get? name).map fun _ =>
        (blueprint.effectiveParent? name).toList := by
    intro name
    rw [Dict.get?_mapWithKey, get?_of_links hlinks, Option.map_map]
    rfl
  funext name needed
  refine propext ?_
  unfold DependsOn Under
  rw [hlookup, hlookup, Option.isSome_map]
  constructor
  · rintro ⟨-, dependencies, hdependencies, hmem⟩
    obtain ⟨plan, -, rfl⟩ := Option.map_eq_some_iff.1 hdependencies
    simpa using hmem
  · intro hparent
    obtain ⟨plan, hget, -⟩ := exists_of_effectiveParent? hparent
    exact ⟨hlinkable.parent_declared hparent, _, by rw [hget]; rfl, by simp [hparent]⟩

/-- The start substate of a state comes after it. -/
theorem Linkable.start_not_mem (h : blueprint.Linkable)
    (hordered : Ordered blueprint.Under (made ++ [name])) {child : String}
    (hchild : blueprint.startOf? name = some child) : child ∉ made ++ [name] :=
  hordered.not_mem_of_relies (h.parent_of_delegates (startOf?_eq_some_iff.1 hchild))

/-- A state is claimed by the one whose start substate it is. -/
theorem Linkable.claimer?_eq_some_iff_startOf? (h : blueprint.Linkable) {parent : String} :
    blueprint.claimer? name = some parent ↔ blueprint.startOf? parent = some name := by
  rw [h.claimer?_eq_some_iff, startOf?_eq_some_iff]

/-- A state that is made can adopt the ones below it: as a plain substate at any time, and as
its start substate because it delegates to no other state and has no ways out of its own. -/
theorem adopt_eq {parent : String} (registry : Registry) (hfresh : name ∉ made)
    (ways : List Transition) :
    ((blueprint.layout registry).state made parent).adopt (State.new name ways)
        ((blueprint.layout registry).start parent = some name)
      = .ok (((blueprint.layout registry).state made parent).adopting name
          ((blueprint.layout registry).start parent = some name),
        (State.new name ways).under parent) := by
  have hfree : decide ((blueprint.layout registry).start parent = some name) = true →
      ((blueprint.layout registry).state made parent).startSubstate = none
        ∧ ((blueprint.layout registry).state made parent).transitions = [] := by
    intro hstart
    have hstart' : blueprint.startOf? parent = some name := of_decide_eq_true hstart
    exact Layout.state_free hstart' hfresh (ways_eq_nil (by simp [hstart']))
  refine State.adopt_eq_ok_iff.2 ⟨rfl, hfree, ?_⟩
  rw [Layout.state_name]
  rfl

/-- A new state finds its parent among the parts, and the parent can adopt it. -/
theorem exists_attach (hlinks : blueprint.links = .ok links)
    (hordered : Ordered blueprint.Under (made ++ [name]))
    (hget : blueprint.states.get? name = some plan)
    (hshown : (blueprint.layout registry).Shown made parts.built)
    (hways : plan.ownWays registry name = .ok ways) :
    ∃ linked, parts.attach (links.get? name) (State.new name ways) = .ok linked
      ∧ (blueprint.layout registry).Shown (made ++ [name])
          (linked.1.insert name linked.2) := by
  have hlinkable := exists_links_iff.1 ⟨links, hlinks⟩
  have hlink := get?_of_links hlinks name
  rw [hget, Option.map_some] at hlink
  have hfresh : name ∉ made := hordered.last_not_mem
  have hlater : ∀ child, (blueprint.layout registry).start name = some child →
      child ∉ made ++ [name] := fun child hchild => hlinkable.start_not_mem hordered hchild
  have hown : (blueprint.layout registry).ways name = ways := ways_eq hget hways
  -- Only the parent delegates to a state.
  have hdelegates : ∀ other, blueprint.startOf? other = some name →
      blueprint.effectiveParent? name = some other :=
    fun other hother => hlinkable.parent_of_delegates (startOf?_eq_some_iff.1 hother)
  cases hparent : blueprint.effectiveParent? name with
  | none =>
    have hinsert := hshown.insert hfresh hlater fun other _ hother => by
      have hsome := hdelegates other hother
      rw [hparent] at hsome
      cases hsome
    have hnew : State.new name ways = ⟨name, (blueprint.layout registry).parent name, none,
        (blueprint.layout registry).ways name⟩ := by
      rw [hown]
      simp [State.new, layout, hparent]
    refine ⟨(parts.built, State.new name ways), ?_, ?_⟩
    · simp [Parts.attach, hlink, hparent]
    · rw [hnew]
      exact hinsert
  | some parent =>
    have hmade : parent ∈ made := hordered.behind made name [] rfl parent hparent
    have hadopted := hshown.adopt hfresh hlater hmade fun other _ hother => by
      have hsome := hdelegates other hother
      rw [hparent] at hsome
      exact (Option.some.inj hsome).symm
    have hclaims : decide (blueprint.claimer? name = some parent)
        = decide ((blueprint.layout registry).start parent = some name) :=
      decide_eq_decide.2 hlinkable.claimer?_eq_some_iff_startOf?
    have hnew : (State.new name ways).under parent
        = ⟨name, (blueprint.layout registry).parent name, none,
          (blueprint.layout registry).ways name⟩ := by
      rw [hown]
      simp [State.new, State.under, layout, hparent]
    refine ⟨(parts.built.insert parent (((blueprint.layout registry).state made parent).adopting
        name ((blueprint.layout registry).start parent = some name)),
      (State.new name ways).under parent), ?_, ?_⟩
    · simp only [Parts.attach, hlink, Option.bind_some, hparent, hshown.get?_eq hmade, hclaims,
        adopt_eq registry hfresh ways]
      rfl
    · rw [hnew]
      exact hadopted

/-- What holds of the parts when the given states are made. -/
structure Making (blueprint : Blueprint) (registry : Registry) (made : List String)
    (parts : Parts) : Prop where
  /-- The parts are the made states. -/
  shown : (blueprint.layout registry).Shown made parts.built
  /-- The mark is on the start state, if it is made. -/
  start : ∀ name, parts.start = some name ↔ name ∈ made ∧ blueprint.Starts name

/-- Before any state is made there are no parts and no mark. -/
theorem Making.empty : blueprint.Making registry [] Parts.empty :=
  ⟨fun _ => rfl, fun _ => by simp [Parts.empty]⟩

/-- The phases of making a state. -/
theorem make_eq (hget : blueprint.states.get? name = some plan) :
    blueprint.make registry links parts name
      = plan.ownWays registry name >>= fun ways =>
        parts.attach (links.get? name) (State.new name ways) >>= fun linked =>
        parts.mark name plan.start >>= fun start =>
        pure ⟨linked.1.insert name linked.2, start⟩ := by
  -- The definition compiles only where no start substate is named.
  unfold make StatePlan.ownWays
  rw [hget]
  simp only
  split <;> rfl

/-- A state is made if each of the phases succeeds. The new parts are those after the adoption,
with the state put in. -/
theorem make_eq_ok_iff (hget : blueprint.states.get? name = some plan) :
    blueprint.make registry links parts name = .ok parts'
      ↔ ∃ ways linked start, plan.ownWays registry name = .ok ways
        ∧ parts.attach (links.get? name) (State.new name ways) = .ok linked
        ∧ parts.mark name plan.start = .ok start
        ∧ parts' = ⟨linked.1.insert name linked.2, start⟩ := by
  rw [make_eq hget]
  simp only [bind_eq_ok]
  constructor
  · rintro ⟨ways, hways, linked, hlinked, start, hstart, hpure⟩
    cases hpure
    exact ⟨ways, linked, start, hways, hlinked, hstart, rfl⟩
  · rintro ⟨ways, linked, start, hways, hlinked, hstart, rfl⟩
    exact ⟨ways, hways, linked, hlinked, start, hstart, rfl⟩

/-- A state is made if its ways out can be compiled and it is not a second start state. -/
theorem Making.exists_make_iff (h : blueprint.Making registry made parts)
    (hlinks : blueprint.links = .ok links)
    (hordered : Ordered blueprint.Under (made ++ [name]))
    (hget : blueprint.states.get? name = some plan) :
    (∃ parts', blueprint.make registry links parts name = .ok parts')
      ↔ (∃ ways, plan.ownWays registry name = .ok ways)
        ∧ (plan.start → ∀ other ∈ made, ¬ blueprint.Starts other) := by
  have hunmarked : parts.start = none ↔ ∀ other ∈ made, ¬ blueprint.Starts other := by
    rw [Option.eq_none_iff_forall_ne_some]
    simp only [ne_eq, h.start, not_and]
  simp only [make_eq_ok_iff hget, Parts.mark_eq_ok_iff]
  constructor
  · rintro ⟨_, ways, _, _, hways, -, ⟨hmark, -⟩, -⟩
    exact ⟨⟨ways, hways⟩, fun hstart => hunmarked.1 (hmark hstart)⟩
  · rintro ⟨⟨ways, hways⟩, honly⟩
    obtain ⟨linked, hlinked, -⟩ := exists_attach hlinks hordered hget h.shown hways
    exact ⟨_, ways, linked, _, hways, hlinked, ⟨fun hstart => hunmarked.2 (honly hstart), rfl⟩,
      rfl⟩

/-- Making a state keeps the invariant. -/
theorem Making.make (h : blueprint.Making registry made parts)
    (hlinks : blueprint.links = .ok links)
    (hordered : Ordered blueprint.Under (made ++ [name]))
    (hget : blueprint.states.get? name = some plan)
    (hmake : blueprint.make registry links parts name = .ok parts') :
    blueprint.Making registry (made ++ [name]) parts' := by
  obtain ⟨ways, linked, start, hways, hlinked, hmark, rfl⟩ := (make_eq_ok_iff hget).1 hmake
  obtain ⟨hfree, rfl⟩ := Parts.mark_eq_ok_iff.1 hmark
  obtain ⟨linked', hlinked', hshown⟩ := exists_attach hlinks hordered hget h.shown hways
  rw [hlinked] at hlinked'
  cases hlinked'
  have hstarts := starts_iff hget
  -- The new state gets the mark if it is a start state; otherwise the mark stays where it is.
  refine ⟨hshown, fun other => ?_⟩
  by_cases hstart : plan.start
  · have hnone := hfree hstart
    have hothers : other ∈ made → ¬ blueprint.Starts other := by
      intro hmem hother
      have hsome := (h.start other).2 ⟨hmem, hother⟩
      rw [hnone] at hsome
      cases hsome
    simp only [hstart, if_true, Option.some.injEq, List.mem_append, List.mem_singleton]
    constructor
    · rintro rfl
      exact ⟨Or.inr rfl, hstarts.2 hstart⟩
    · rintro ⟨hmem | heq, hother⟩
      · exact absurd hother (hothers hmem)
      · exact heq.symm
  · simp only [hstart, Bool.false_eq_true, if_false, h.start, List.mem_append,
      List.mem_singleton]
    constructor
    · exact fun ⟨hmem, hother⟩ => ⟨Or.inl hmem, hother⟩
    · rintro ⟨hmem | rfl, hother⟩
      · exact ⟨hmem, hother⟩
      · exact absurd (hstarts.1 hother) hstart

/-- Whatever states are made in such an order, the invariant holds. -/
theorem Making.foldlM (hlinks : blueprint.links = .ok links)
    (hordered : Ordered blueprint.Under order)
    (hdeclared : ∀ name ∈ order, (blueprint.states.get? name).isSome)
    (h : order.foldlM (blueprint.make registry links) Parts.empty = .ok parts) :
    blueprint.Making registry order parts := by
  -- The last state of the order is the one made last.
  induction order using List.reverseRecOn generalizing parts with
  | nil =>
    cases h
    exact .empty
  | append_singleton made name ih =>
    obtain ⟨mid, hmid, hmake⟩ := foldlM_append_eq_ok.1 h
    obtain ⟨parts', hmake, hnil⟩ := bind_eq_ok.1 hmake
    cases hnil
    obtain ⟨plan, hget⟩ := Option.isSome_iff_exists.1 (hdeclared name (by simp))
    have hmaking := ih hordered.left_of_append
      (fun other hother => hdeclared other (by simp [hother])) hmid
    exact hmaking.make hlinks hordered hget hmake

/-- No two of the names have a property exactly if no two of the names before the last one
have it, and none of them has it if the last one does. -/
theorem only_append_iff {P : String → Prop} (hfresh : name ∉ made) :
    (∀ a ∈ made ++ [name], ∀ b ∈ made ++ [name], P a → P b → a = b)
      ↔ (∀ a ∈ made, ∀ b ∈ made, P a → P b → a = b)
        ∧ (P name → ∀ other ∈ made, ¬ P other) := by
  constructor
  · intro honly
    refine ⟨fun a ha b hb => honly a (by simp [ha]) b (by simp [hb]), ?_⟩
    intro hname other hother hP
    have hsame : name = other := honly name (by simp) other (by simp [hother]) hname hP
    exact hfresh (hsame ▸ hother)
  · rintro ⟨honly, hlast⟩ a ha b hb hPa hPb
    rw [List.mem_append, List.mem_singleton] at ha hb
    rcases ha with ha | rfl <;> rcases hb with hb | rfl
    · exact honly a ha b hb hPa hPb
    · exact absurd hPa (hlast hPb a ha)
    · exact absurd hPb (hlast hPa b hb)
    · rfl

/-- All states are made exactly if all ways out can be compiled and no two states are start
states. -/
theorem exists_foldlM_make_iff (hlinks : blueprint.links = .ok links)
    (hordered : Ordered blueprint.Under order)
    (hdeclared : ∀ name ∈ order, (blueprint.states.get? name).isSome) :
    (∃ parts, order.foldlM (blueprint.make registry links) Parts.empty = .ok parts)
      ↔ (∀ name ∈ order, ∀ plan, blueprint.states.get? name = some plan →
          ∃ ways, plan.ownWays registry name = .ok ways)
        ∧ ∀ name ∈ order, ∀ other ∈ order, blueprint.Starts name → blueprint.Starts other →
          name = other := by
  -- The states are made in this order, so the last one is what a step is about.
  induction order using List.reverseRecOn with
  | nil => exact ⟨fun _ => ⟨by simp, by simp⟩, fun _ => ⟨_, rfl⟩⟩
  | append_singleton made name ih =>
    have hdeclared' : ∀ other ∈ made, (blueprint.states.get? other).isSome :=
      fun other hother => hdeclared other (by simp [hother])
    have hbefore := ih hordered.left_of_append hdeclared'
    obtain ⟨plan, hget⟩ := Option.isSome_iff_exists.1 (hdeclared name (by simp))
    have hways : (∀ plan, blueprint.states.get? name = some plan →
        ∃ ways, plan.ownWays registry name = .ok ways)
          ↔ ∃ ways, plan.ownWays registry name = .ok ways := by simp [hget]
    rw [only_append_iff hordered.last_not_mem, List.forall_mem_append, List.forall_mem_singleton,
      hways, starts_iff hget]
    simp only [foldlM_append_eq_ok, List.foldlM_cons, List.foldlM_nil, bind_pure]
    constructor
    · rintro ⟨parts, mid, hmid, hmake⟩
      obtain ⟨hcompiled, honly⟩ := hbefore.1 ⟨mid, hmid⟩
      have hmaking := Making.foldlM hlinks hordered.left_of_append hdeclared' hmid
      obtain ⟨hlast, hfirst⟩ := (hmaking.exists_make_iff hlinks hordered hget).1 ⟨parts, hmake⟩
      exact ⟨⟨hcompiled, hlast⟩, honly, hfirst⟩
    · rintro ⟨⟨hcompiled, hlast⟩, honly, hfirst⟩
      obtain ⟨mid, hmid⟩ := hbefore.2 ⟨hcompiled, honly⟩
      have hmaking := Making.foldlM hlinks hordered.left_of_append hdeclared' hmid
      obtain ⟨parts, hmake⟩ := (hmaking.exists_make_iff hlinks hordered hget).2 ⟨hlast, hfirst⟩
      exact ⟨parts, mid, hmid, hmake⟩

/-! ### Resolving the blueprint -/

/-- A list of all declared states, each once and behind its parent. -/
structure Arranged (blueprint : Blueprint) (order : List String) : Prop where
  /-- Parents come first. -/
  ordered : Ordered blueprint.Under order
  /-- The states are the declared ones. -/
  declared : ∀ name, name ∈ order ↔ (blueprint.states.get? name).isSome

/-- The start state is one of the declared states. -/
theorem Arranged.mem_of_starts (harranged : blueprint.Arranged order)
    (hstarts : blueprint.Starts name) : name ∈ order := by
  obtain ⟨plan, hget, -⟩ := hstarts
  exact (harranged.declared name).2 (by simp [hget])

/-- An arrangement puts parents first up to any of its states. -/
theorem Arranged.upTo {rest : List String}
    (harranged : blueprint.Arranged (made ++ name :: rest)) :
    Ordered blueprint.Under (made ++ [name]) := by
  have hordered := harranged.ordered
  rw [List.append_cons] at hordered
  exact hordered.left_of_append

/-- The invariant holds wherever the making of an arrangement comes to. -/
theorem Arranged.making (harranged : blueprint.Arranged order)
    (hlinks : blueprint.links = .ok links) (hbegins : made <+: order)
    (h : made.foldlM (blueprint.make registry links) Parts.empty = .ok parts) :
    blueprint.Making registry made parts := by
  obtain ⟨rest, rfl⟩ := hbegins
  refine Making.foldlM hlinks harranged.ordered.left_of_append ?_ h
  intro name hname
  exact (harranged.declared name).1 (List.mem_append_left _ hname)

/-- The order that the walk gives puts parents first. -/
theorem arranged_of_dependencyOrder (hlinks : blueprint.links = .ok links)
    (horder : dependencyOrder (links.mapWithKey fun _ link => link.dependencies) = .ok order) :
    blueprint.Arranged order := by
  obtain ⟨hordered, hall⟩ := dependencyOrder_eq_ok horder
  rw [dependsOn_eq hlinks] at hordered
  refine ⟨hordered, fun name => ?_⟩
  rw [hall name, Dict.get?_mapWithKey, get?_of_links hlinks, Option.isSome_map,
    Option.isSome_map]

/-- Resolved states are made in an order that puts parents first, and the start state is taken
out. -/
theorem of_resolve {start : State} {states : Dict State}
    (h : blueprint.resolve registry = .ok (start, states)) :
    ∃ order name built, blueprint.Arranged order ∧ blueprint.Starts name
      ∧ (blueprint.layout registry).Shown order built
      ∧ start = (blueprint.layout registry).state order name ∧ states = built.erase name := by
  obtain ⟨parts, hparts, hstart⟩ := bind_eq_ok.1 h
  obtain ⟨links, hlinks, hrest⟩ := bind_eq_ok.1 hparts
  obtain ⟨order, horder, hfold⟩ := bind_eq_ok.1 hrest
  have harranged := arranged_of_dependencyOrder hlinks (mapError_eq_ok.1 horder)
  have hmaking := harranged.making hlinks List.prefix_rfl hfold
  split at hstart
  · cases hstart
  · next name state hmarked =>
    obtain ⟨name', hname', hmap⟩ := Option.bind_eq_some_iff.1 hmarked
    obtain ⟨state', hstate', hpair⟩ := Option.map_eq_some_iff.1 hmap
    cases hpair
    cases hstart
    obtain ⟨hmem, hstarts⟩ := (hmaking.start name).1 hname'
    rw [hmaking.shown.get?_eq hmem] at hstate'
    exact ⟨order, name, parts.built, harranged, hstarts, hmaking.shown,
      (Option.some.inj hstate').symm, rfl⟩

/-- A blueprint that is resolved is resolvable. -/
theorem resolvable_of_resolve {start : State} {states : Dict State}
    (h : blueprint.resolve registry = .ok (start, states)) : blueprint.Resolvable registry := by
  obtain ⟨-, first, -, -, hstarts, -⟩ := of_resolve h
  obtain ⟨parts, hparts, -⟩ := bind_eq_ok.1 h
  obtain ⟨links, hlinks, hrest⟩ := bind_eq_ok.1 hparts
  obtain ⟨order, horder, hfold⟩ := bind_eq_ok.1 hrest
  have hlinkable := exists_links_iff.1 ⟨links, hlinks⟩
  have hwalk := mapError_eq_ok.1 horder
  have harranged := arranged_of_dependencyOrder hlinks hwalk
  obtain ⟨hcompiled, honly⟩ := (exists_foldlM_make_iff hlinks harranged.ordered
    (fun name => (harranged.declared name).1)).1 ⟨parts, hfold⟩
  refine ⟨hlinkable, ?_, ⟨first, hstarts⟩, ?_, ?_⟩
  · rw [← dependsOn_eq hlinks]
    exact exists_dependencyOrder_iff.1 ⟨order, hwalk⟩
  · intro name other hname hother
    exact honly name (harranged.mem_of_starts hname) other (harranged.mem_of_starts hother) hname
      hother
  · intro name plan hget key transition htransition
    have hmem' : name ∈ order := (harranged.declared name).2 (by simp [hget])
    obtain ⟨ways, hways⟩ := hcompiled name hmem' plan hget
    exact StatePlan.exists_compile_iff.1 ⟨ways, hlinkable.compile_eq hget hways⟩ key transition
      htransition

/-- A resolvable blueprint is resolved. -/
theorem Resolvable.exists_resolve (h : blueprint.Resolvable registry) :
    ∃ resolved, blueprint.resolve registry = .ok resolved := by
  obtain ⟨links, hlinks⟩ := exists_links_iff.2 h.toLinkable
  have hacyclic := h.acyclic
  rw [← dependsOn_eq hlinks] at hacyclic
  obtain ⟨order, horder⟩ := exists_dependencyOrder_iff.2 hacyclic
  have harranged := arranged_of_dependencyOrder hlinks horder
  obtain ⟨parts, hfold⟩ : ∃ parts, order.foldlM (blueprint.make registry links) Parts.empty
      = .ok parts :=
    (exists_foldlM_make_iff hlinks harranged.ordered
      (fun name => (harranged.declared name).1)).2
      ⟨fun name _ plan hget => ⟨_, h.ownWays_eq hget⟩,
        fun name _ other _ => h.only name other⟩
  have hmaking := harranged.making hlinks List.prefix_rfl hfold
  obtain ⟨name, hstarts⟩ := h.started
  have hmem : name ∈ order := harranged.mem_of_starts hstarts
  refine ⟨((blueprint.layout registry).state order name, parts.built.erase name),
    bind_eq_ok.2 ⟨parts, ?_, ?_⟩⟩
  · exact bind_eq_ok.2 ⟨links, hlinks, bind_eq_ok.2 ⟨order, mapError_eq_ok.2 horder, hfold⟩⟩
  · rw [(hmaking.start name).2 ⟨hmem, hstarts⟩, Option.bind_some, hmaking.shown.get?_eq hmem]
    rfl

/-- The states can be resolved exactly if they can be linked without a cycle, have one start
state, and can be compiled. -/
theorem exists_resolve_iff :
    (∃ resolved, blueprint.resolve registry = .ok resolved)
      ↔ blueprint.Resolvable registry :=
  ⟨fun ⟨_, hresolve⟩ => resolvable_of_resolve hresolve, Resolvable.exists_resolve⟩

end Blueprint

end Statechart
