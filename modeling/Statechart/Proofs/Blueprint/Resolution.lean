import Statechart.Proofs.Blueprint.Making

/-!
# `Statechart.Proofs.Blueprint.Resolution`: what can still go wrong once states are ordered

The states of a blueprint are linked, put into an order, and made in this order. Each stage relies
on the ones before it. A link is made only where a state has one parent at most, is the start
substate of no two states, and has no ways out beside a start substate. The order puts parents
first. So when a state is made, its parent is among the parts and adopts it
(`Making.exists_adopt`).

What is left are the `Flaw`s of a blueprint: a guard that is not fit, an action that is not
registered, several start states, or none. Whatever is reported after the order is found is one of
them (`flaw_of_resolve`).

Resolved states are the declared ones, each once, with the parents and start substates that the
blueprint gives them (`resolved_of_resolve`).
-/

set_option autoImplicit false

namespace Statechart

namespace Blueprint

variable {blueprint : Blueprint} {registry : Registry} {links : Dict Link} {link : Link}
  {made order : List String} {parts : Parts} {name : String} {plan : StatePlan} {fault : Fault}
  {start : State} {states : Dict State}

/-! ### Adoption -/

/-- The parent of a state that comes next is made already, and adopts it. -/
theorem Making.exists_adopt (h : blueprint.Making registry made parts)
    (hlinks : blueprint.links = .ok links)
    (hordered : Ordered blueprint.Under (made ++ [name])) (hlink : links.get? name = some link)
    {parent : String} (hparent : link.parent = some parent) (ways : List Transition) :
    ∃ above linked, parts.built.get? parent = some above
      ∧ above.adopt (State.new name ways) (link.claimer = some parent) = .ok linked := by
  have hlinkable := exists_links_iff.1 ⟨links, hlinks⟩
  rw [get?_of_links hlinks] at hlink
  obtain ⟨plan, -, rfl⟩ := Option.map_eq_some_iff.1 hlink
  have hmade : parent ∈ made := hordered.behind made name [] rfl parent hparent
  -- A state claims its start substate, and in the layout it delegates to it.
  have hclaims : decide (blueprint.claimer? name = some parent)
      = decide ((blueprint.layout registry).start parent = some name) :=
    decide_eq_decide.2 hlinkable.claimer?_eq_some_iff_startOf?
  have hadopt : ((blueprint.layout registry).state made parent).adopt (State.new name ways)
      ((blueprint.layout registry).start parent = some name) = .ok _ :=
    adopt_eq registry hordered.last_not_mem ways
  rw [← hclaims] at hadopt
  exact ⟨_, _, h.shown.get?_eq hmade, hadopt⟩

/-! ### Flaws -/

/-- What may be wrong with a blueprint whose states can be linked and ordered, as it is
reported. -/
inductive Flaw (blueprint : Blueprint) (registry : Registry) : Fault → Prop where
  /-- A guard is not fit. -/
  | guard {name key : String} {plan : StatePlan} {transition : TransitionPlan}
      {cause : LoadFault} (hget : blueprint.states.get? name = some plan)
      (hplanned : plan.transitions.get? key = some transition)
      (hunfit : ¬ transition.guard.Fit) (hcause : transition.guard.compile = .error cause) :
      Flaw blueprint registry (.load (.inState name (.inTransition key cause)))
  /-- An action is not registered. -/
  | action {name key : String} {plan : StatePlan} {transition : TransitionPlan}
      {action : ActionPlan} (hget : blueprint.states.get? name = some plan)
      (hplanned : plan.transitions.get? key = some transition)
      (haction : transition.action = some action) (hunknown : ¬ action.Registered registry) :
      Flaw blueprint registry
        (.load (.inState name (.actionNotFound action.name registry.names)))
  /-- Two states are marked as start states. -/
  | severalStarts {first second : String} (hfirst : blueprint.Starts first)
      (hsecond : blueprint.Starts second) (hne : first ≠ second) :
      Flaw blueprint registry (.load (.severalStarts first second))
  /-- No state is marked as start state. -/
  | noStart (hnone : ∀ name, ¬ blueprint.Starts name) :
      Flaw blueprint registry (.load .noStart)

/-- The ways out of a declared state are refused for a flaw. -/
theorem flaw_of_ownWays (hget : blueprint.states.get? name = some plan)
    (h : plan.ownWays registry name = .error fault) :
    blueprint.Flaw registry fault := by
  unfold StatePlan.ownWays at h
  split at h
  · cases h
  · obtain ⟨cause, hcompile, rfl⟩ := mapError_eq_error.1 h
    obtain ⟨key, transition, flaw, hplanned, hflaw, rfl⟩ :=
      StatePlan.exists_of_compile_eq_error hcompile
    rcases TransitionPlan.compile_eq_error_cases hflaw with
      ⟨reason, hguard, rfl⟩ | ⟨action, haction, hunknown, rfl⟩
    · exact .guard hget hplanned (GuardPlan.not_fit_of_compile hguard) hguard
    · exact .action hget hplanned haction hunknown

/-- If the state that comes next is not made, this is for a flaw. -/
theorem Making.flaw_of_make (h : blueprint.Making registry made parts)
    (hlinks : blueprint.links = .ok links)
    (hordered : Ordered blueprint.Under (made ++ [name]))
    (hget : blueprint.states.get? name = some plan)
    (hmake : blueprint.make registry links parts name = .error fault) :
    blueprint.Flaw registry fault := by
  rw [make_eq hget] at hmake
  rcases bind_eq_error.1 hmake with hways | ⟨ways, hways, hrest⟩
  · exact flaw_of_ownWays hget hways
  · rcases bind_eq_error.1 hrest with hattach | ⟨linked, -, hrest⟩
    · -- The new state is always attached.
      obtain ⟨linked, hlinked, -⟩ := exists_attach hlinks hordered hget h.shown hways
      rw [hlinked] at hattach
      cases hattach
    · rcases bind_eq_error.1 hrest with hmark | ⟨mark, -, hpure⟩
      · -- The mark that is in the way was set by a state made before this one.
        obtain ⟨hstart, first, hfirst, rfl⟩ := Parts.exists_of_mark_eq_error hmark
        obtain ⟨hmem, hstarts⟩ := (h.start first).1 hfirst
        have hne : first ≠ name := by
          intro hsame
          exact hordered.last_not_mem (hsame ▸ hmem)
        exact .severalStarts hstarts ⟨plan, hget, hstart⟩ hne
      · cases hpure

/-- If the states of an arrangement are not all made, this is for a flaw. -/
theorem flaw_of_foldlM (hlinks : blueprint.links = .ok links)
    (harranged : blueprint.Arranged order)
    (h : order.foldlM (blueprint.make registry links) Parts.empty = .error fault) :
    blueprint.Flaw registry fault := by
  obtain ⟨made, name, rest, parts, rfl, hmade, hmake⟩ := exists_split_of_foldlM_eq_error h
  have hmaking := harranged.making hlinks (List.prefix_append made (name :: rest)) hmade
  obtain ⟨plan, hget⟩ := Option.isSome_iff_exists.1 ((harranged.declared name).1 (by simp))
  exact hmaking.flaw_of_make hlinks harranged.upTo hget hmake

/-! ### Resolving an ordered blueprint -/

section InOrder

variable (hlinks : blueprint.links = .ok links)
  (horder : dependencyOrder (links.mapWithKey fun _ link => link.dependencies) = .ok order)
include hlinks horder

/-- The parts are made in the order that was found. -/
theorem parts_eq (registry : Registry) :
    blueprint.parts registry = order.foldlM (blueprint.make registry links) Parts.empty := by
  unfold Blueprint.parts
  rw [hlinks]
  show (dependencyOrder _).mapError Fault.load >>= _ = _
  rw [horder]
  rfl

/-- What is reported once the order is found is a flaw. -/
theorem flaw_of_resolve (h : blueprint.resolve registry = .error fault) :
    blueprint.Flaw registry fault := by
  have harranged := arranged_of_dependencyOrder hlinks horder
  unfold resolve at h
  rw [parts_eq hlinks horder registry] at h
  rcases bind_eq_error.1 h with hparts | ⟨parts, hparts, hstart⟩
  · exact flaw_of_foldlM hlinks harranged hparts
  · have hmaking := harranged.making hlinks List.prefix_rfl hparts
    split at hstart
    · next hnone =>
      cases hstart
      refine .noStart ?_
      -- A start state would be made and marked.
      intro name hstarts
      have hmem := harranged.mem_of_starts hstarts
      rw [(hmaking.start name).2 ⟨hmem, hstarts⟩, Option.bind_some,
        hmaking.shown.get?_eq hmem] at hnone
      cases hnone
    · cases hstart

/-- With an order, nothing but guards, actions and start states matters. -/
theorem exists_resolve_iff_of_order (registry : Registry) :
    (∃ resolved, blueprint.resolve registry = .ok resolved)
      ↔ (∀ name plan, blueprint.states.get? name = some plan → ∀ key transition,
          plan.transitions.get? key = some transition → transition.Fit registry)
        ∧ ∃! name, blueprint.Starts name := by
  rw [exists_resolve_iff]
  constructor
  · intro h
    obtain ⟨name, hname⟩ := h.started
    exact ⟨h.fit, name, hname, fun other hother => h.only other name hother hname⟩
  · rintro ⟨hfit, name, hname, honly⟩
    have hacyclic := exists_dependencyOrder_iff.1 ⟨order, horder⟩
    rw [dependsOn_eq hlinks] at hacyclic
    exact ⟨exists_links_iff.1 ⟨links, hlinks⟩, hacyclic, ⟨name, hname⟩,
      fun first second hfirst hsecond => (honly first hfirst).trans (honly second hsecond).symm,
      hfit⟩

end InOrder

/-! ### Resolved states -/

/-- The declared states, one of them as the start state and the others under their names. -/
structure Resolved (blueprint : Blueprint) (start : State) (states : Dict State) : Prop where
  /-- The start state is the one that is marked. -/
  starts : blueprint.Starts start.name
  /-- Every declared state is there once, and no other state is. -/
  names : (start.name :: states.keys).Perm blueprint.states.keys
  /-- Each state has its own name, its parent and its start substate. -/
  linked : ∀ name state, (states.insert start.name start).get? name = some state →
    state.name = name ∧ state.parent = blueprint.effectiveParent? name
      ∧ state.startSubstate = blueprint.startOf? name

/-- Once all states of an arrangement are made, each has its start substate. -/
theorem Arranged.startSubstate_eq (harranged : blueprint.Arranged order)
    (hlinkable : blueprint.Linkable) (name : String) :
    ((blueprint.layout registry).state order name).startSubstate = blueprint.startOf? name := by
  rw [Layout.state_startSubstate]
  show (blueprint.startOf? name).filter (· ∈ order) = blueprint.startOf? name
  cases hstart : blueprint.startOf? name with
  | none => rfl
  | some child =>
    have hdeclared := hlinkable.declared name child (startOf?_eq_some_iff.1 hstart)
    simp [Option.filter_some, (harranged.declared child).2 hdeclared]

/-- Resolving keeps every declared state and makes no other. -/
theorem resolved_of_resolve (h : blueprint.resolve registry = .ok (start, states)) :
    blueprint.Resolved start states := by
  have hlinkable := (resolvable_of_resolve h).toLinkable
  obtain ⟨order, first, built, harranged, hstarts, hshown, rfl, rfl⟩ := of_resolve h
  have hfirst := hshown.get?_eq (harranged.mem_of_starts hstarts)
  have hnames : built.keys.Perm blueprint.states.keys := by
    refine (List.perm_ext_iff_of_nodup built.nodup_keys blueprint.states.nodup_keys).2 ?_
    intro name
    rw [Dict.mem_keys, Dict.mem_keys, hshown.isSome_get?_iff, harranged.declared]
  refine ⟨?_, ?_, ?_⟩
  · rw [Layout.state_name]
    exact hstarts
  · rw [Layout.state_name]
    exact (built.perm_keys_erase (by simp [hfirst])).trans hnames
  · -- Put back under its name, the start state completes the table that was built.
    rw [Layout.state_name, built.insert_erase_of_get? hfirst]
    intro name state hget
    have hmem : name ∈ order := hshown.isSome_get?_iff.1 (by simp [hget])
    rw [hshown.get?_eq hmem, Option.some.injEq] at hget
    rw [← hget]
    exact ⟨Layout.state_name _ _ _, Layout.state_parent _ _ _,
      harranged.startSubstate_eq hlinkable name⟩

/-! ### All together -/

/-- Take a blueprint whose states can be linked and put into an order, and any registry. Every
declared state has a link, and what it depends on is its effective parent, or nothing. Wherever
the making of the states comes to, the next state finds its parent among the parts, and the parent
adopts it. So the states are resolved exactly if all guards are fit, all actions are registered,
and just one state is the start state; and what is reported otherwise is such a flaw. When they
are resolved, every declared state is there once, as the start state or among the others, and has
its parent and its start substate. -/
theorem resolution_law (hlinks : blueprint.links = .ok links)
    (horder : dependencyOrder (links.mapWithKey fun _ link => link.dependencies) = .ok order)
    (registry : Registry) :
    (∀ name, (links.get? name).isSome ↔ (blueprint.states.get? name).isSome)
      ∧ (∀ name link, links.get? name = some link →
        link.parent = blueprint.effectiveParent? name ∧ link.dependencies = link.parent.toList)
      ∧ (∀ made name rest parts, order = made ++ name :: rest →
        made.foldlM (blueprint.make registry links) Parts.empty = .ok parts →
        ∀ link parent ways, links.get? name = some link → link.parent = some parent →
          ∃ above linked, parts.built.get? parent = some above
            ∧ above.adopt (State.new name ways) (link.claimer = some parent) = .ok linked)
      ∧ ((∃ resolved, blueprint.resolve registry = .ok resolved)
        ↔ (∀ name plan, blueprint.states.get? name = some plan → ∀ key transition,
            plan.transitions.get? key = some transition → transition.Fit registry)
          ∧ ∃! name, blueprint.Starts name)
      ∧ (∀ fault, blueprint.resolve registry = .error fault → blueprint.Flaw registry fault)
      ∧ ∀ start states, blueprint.resolve registry = .ok (start, states) →
        blueprint.Resolved start states := by
  have harranged := arranged_of_dependencyOrder hlinks horder
  refine ⟨?_, ?_, ?_, exists_resolve_iff_of_order hlinks horder registry, ?_, ?_⟩
  · intro name
    rw [get?_of_links hlinks, Option.isSome_map]
  · intro name link hlink
    rw [get?_of_links hlinks] at hlink
    obtain ⟨plan, -, rfl⟩ := Option.map_eq_some_iff.1 hlink
    exact ⟨rfl, rfl⟩
  · intro made name rest parts hsplit hmade link parent ways hlink hparent
    subst hsplit
    have hmaking := harranged.making hlinks (List.prefix_append made (name :: rest)) hmade
    exact hmaking.exists_adopt hlinks harranged.upTo hlink hparent ways
  · intro fault hfault
    exact flaw_of_resolve hlinks horder hfault
  · intro start states hresolve
    exact resolved_of_resolve hresolve

/-- A house that delegates to its hall, from which a transition with a guard and an action leads to
the attic. By their names, both rooms come before the house. -/
def manor : Blueprint :=
  ⟨Dict.ofList [
    ("attic", { parent := some "house" }),
    ("hall", { transitions := Dict.ofList [("ring", {
      target := "attic"
      guard := { kind := "context", key := some "awake", value := some (.bool true) }
      action := some (.bare "bell") })] }),
    ("house", { start := true, startSubstate := some "hall" })]⟩

/-- A registry with the action of the manor. -/
def bells : Registry :=
  Registry.empty.insert "bell" .done

/-- The house is made first and adopts both rooms. Without its action the manor has a flaw. -/
theorem manor_resolution :
    ∃ links, manor.links = .ok links
      ∧ dependencyOrder (links.mapWithKey fun _ link => link.dependencies)
        = .ok ["house", "attic", "hall"]
      ∧ (∃ start states, manor.resolve bells = .ok (start, states) ∧ manor.Resolved start states)
      ∧ ∃ fault, manor.resolve Registry.empty = .error fault
        ∧ manor.Flaw Registry.empty fault := by
  obtain ⟨links, hlinks, horder⟩ : ∃ links, manor.links = .ok links
      ∧ dependencyOrder (links.mapWithKey fun _ link => link.dependencies)
        = .ok ["house", "attic", "hall"] := ⟨_, rfl, rfl⟩
  obtain ⟨-, -, -, -, -, hresolved⟩ := resolution_law hlinks horder bells
  obtain ⟨-, -, -, -, hflawed, -⟩ := resolution_law hlinks horder Registry.empty
  obtain ⟨⟨start, states⟩, hresolve⟩ : ∃ resolved, manor.resolve bells = .ok resolved := ⟨_, rfl⟩
  obtain ⟨fault, hfault⟩ : ∃ fault, manor.resolve Registry.empty = .error fault := ⟨_, rfl⟩
  exact ⟨links, hlinks, horder, ⟨start, states, hresolve, hresolved start states hresolve⟩,
    fault, hfault, hflawed fault hfault⟩

end Blueprint

end Statechart
