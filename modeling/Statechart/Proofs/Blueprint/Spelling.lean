import Statechart.Blueprint.Assembly
import Statechart.Proofs.Chart.Reordered

/-!
# `Statechart.Proofs.Blueprint.Spelling`: ways to write that something is absent

A blueprint can say in several ways that something is not there. A parent or a start substate may
be left out or be empty; a guard that is always open may be left out or be written down, with a key
and a value that nobody reads; an action may be left out or have no name. Two blueprints that
differ in this alone are `Respelled`.

Every blueprint has a `plain` spelling, in which whatever is absent is left out. Compiling, linking
and making states look at the plain spelling only, and so does the whole assembly
(`assemble_plain`). Respelled blueprints have one plain spelling (`Respelled.plain_eq`), so they
assemble to the same chart or fail with the same fault (`assemble_eq_of_respelled`).
-/

set_option autoImplicit false

namespace Statechart

/-! ### Spellings -/

/-- The same, or two ways to write that something is absent. -/
def Interchangeable {α : Type} (Absent : α → Prop) (given other : α) : Prop :=
  given = other ∨ Absent given ∧ Absent other

/-- A name that is left out or empty. -/
def Unnamed (name : Option String) : Prop :=
  name = none ∨ name = some ""

/-- A guard that is always open, whatever its key and its value are. A guard that is left out is
one of them. -/
def GuardPlan.Unconditional (plan : GuardPlan) : Prop :=
  plan.kind = "" ∨ plan.kind = "always"

instance (plan : GuardPlan) : Decidable plan.Unconditional :=
  inferInstanceAs (Decidable (_ ∨ _))

/-- An action that is left out or has no name, whatever its parameters are. -/
def Inactive (planned : Option ActionPlan) : Prop :=
  ∀ action, planned = some action → action.name = ""

/-- Two transitions that are the same but for spellings of what is absent. -/
structure TransitionPlan.Respelled (plan plan' : TransitionPlan) : Prop where
  /-- They lead to the same state. -/
  target : plan.target = plan'.target
  /-- They have the same guard, or both are always open. -/
  guard : Interchangeable GuardPlan.Unconditional plan.guard plan'.guard
  /-- They have the same action, or none. -/
  action : Interchangeable Inactive plan.action plan'.action

/-- Two states that are the same but for spellings of what is absent. -/
structure StatePlan.Respelled (plan plan' : StatePlan) : Prop where
  /-- Both are start states or none is. -/
  start : plan.start = plan'.start
  /-- They have the same start substate, or none. -/
  startSubstate : Interchangeable Unnamed plan.startSubstate plan'.startSubstate
  /-- They have the same parent, or none. -/
  parent : Interchangeable Unnamed plan.parent plan'.parent
  /-- They have transitions of the same names. -/
  transitions : ∀ name, Option.Rel TransitionPlan.Respelled (plan.transitions.get? name)
    (plan'.transitions.get? name)

/-- Two blueprints that are the same but for spellings of what is absent, in any number of
places. -/
def Blueprint.Respelled (blueprint blueprint' : Blueprint) : Prop :=
  ∀ name, Option.Rel StatePlan.Respelled (blueprint.states.get? name)
    (blueprint'.states.get? name)

/-! ### The plain spelling -/

/-- The guard, or the one that is left out if it is always open. -/
def GuardPlan.plain (plan : GuardPlan) : GuardPlan :=
  if plan.Unconditional then {} else plan

/-- The transition in the plain spelling. -/
def TransitionPlan.plain (plan : TransitionPlan) : TransitionPlan where
  target := plan.target
  guard := plan.guard.plain
  action := plan.action.filter (·.name ≠ "")

/-- The state in the plain spelling. -/
def StatePlan.plain (plan : StatePlan) : StatePlan where
  start := plan.start
  startSubstate := plan.startName?
  parent := plan.parentName?
  transitions := plan.transitions.mapWithKey fun _ transition => transition.plain

/-- The blueprint in the plain spelling. -/
def Blueprint.plain (blueprint : Blueprint) : Blueprint :=
  ⟨blueprint.states.mapWithKey fun _ plan => plan.plain⟩

/-- Names that are left out or empty are read alike. -/
theorem nonEmpty?_eq_of_interchangeable {name name' : Option String}
    (h : Interchangeable Unnamed name name') : nonEmpty? name = nonEmpty? name' := by
  -- Either spelling of an absent name is read as none.
  have hnone : ∀ given, Unnamed given → nonEmpty? given = none := by
    rintro given (rfl | rfl) <;> rfl
  rcases h with rfl | ⟨hname, hname'⟩
  · rfl
  · rw [hnone name hname, hnone name' hname']

/-- Guards that differ in nothing but ways to be always open have one plain spelling. -/
theorem GuardPlan.plain_eq_of_interchangeable {plan plan' : GuardPlan}
    (h : Interchangeable Unconditional plan plan') : plan.plain = plan'.plain := by
  rcases h with rfl | ⟨hplan, hplan'⟩
  · rfl
  · rw [plain, plain, if_pos hplan, if_pos hplan']

/-- Of actions that differ in nothing but ways to be absent, the same is left when those without a
name are dropped. -/
theorem filter_eq_of_interchangeable {planned planned' : Option ActionPlan}
    (h : Interchangeable Inactive planned planned') :
    planned.filter (·.name ≠ "") = planned'.filter (·.name ≠ "") := by
  have hnone : ∀ given : Option ActionPlan, Inactive given → given.filter (·.name ≠ "") = none := by
    intro given hgiven
    rw [Option.filter_eq_none_iff]
    intro action haction
    simpa using hgiven action haction
  rcases h with rfl | ⟨hplanned, hplanned'⟩
  · rfl
  · rw [hnone planned hplanned, hnone planned' hplanned']

/-- Respelled transitions have one plain spelling. -/
theorem TransitionPlan.Respelled.plain_eq {plan plan' : TransitionPlan}
    (h : plan.Respelled plan') : plan.plain = plan'.plain := by
  unfold TransitionPlan.plain
  rw [h.target, GuardPlan.plain_eq_of_interchangeable h.guard,
    filter_eq_of_interchangeable h.action]

/-- What maps related values to the same maps related dictionaries to the same. -/
theorem Dict.mapWithKey_eq_of_rel {α β : Type} {R : α → α → Prop} {f : α → β} {d d' : Dict α}
    (hf : ∀ a a', R a a' → f a = f a') (h : ∀ key, Option.Rel R (d.get? key) (d'.get? key)) :
    (d.mapWithKey fun _ a => f a) = d'.mapWithKey fun _ a => f a := by
  refine ext_get? fun key => ?_
  rw [get?_mapWithKey, get?_mapWithKey]
  exact map_eq_of_rel hf (h key)

/-- Respelled states have one plain spelling. Their transitions are compared name by name. -/
theorem StatePlan.Respelled.plain_eq {plan plan' : StatePlan} (h : plan.Respelled plan') :
    plan.plain = plan'.plain := by
  have hstart : plan.startName? = plan'.startName? :=
    nonEmpty?_eq_of_interchangeable h.startSubstate
  have hparent : plan.parentName? = plan'.parentName? := nonEmpty?_eq_of_interchangeable h.parent
  unfold StatePlan.plain
  rw [h.start, hstart, hparent,
    Dict.mapWithKey_eq_of_rel (fun _ _ htransition => htransition.plain_eq) h.transitions]

/-- Respelled blueprints have one plain spelling. -/
theorem Blueprint.Respelled.plain_eq {blueprint blueprint' : Blueprint}
    (h : blueprint.Respelled blueprint') : blueprint.plain = blueprint'.plain :=
  congrArg Blueprint.mk (Dict.mapWithKey_eq_of_rel (fun _ _ hplan => hplan.plain_eq) h)

/-! ### Compiling plain plans -/

section Compile

variable (registry : Registry) (state name : String)

/-- A guard compiles as in the plain spelling: key and value of one that is always open are not
looked at. -/
theorem GuardPlan.compile_plain (plan : GuardPlan) : plan.plain.compile = plan.compile := by
  -- A conditional guard is in its plain spelling already.
  by_cases h : plan.Unconditional
  · have hcompile : plan.compile = .ok .always := if_pos h
    rw [plain, if_pos h, hcompile]
    rfl
  · rw [plain, if_neg h]

/-- A transition compiles as in the plain spelling. -/
theorem TransitionPlan.compile_plain (plan : TransitionPlan) :
    plan.plain.compile registry state name = plan.compile registry state name := by
  unfold compile plain
  rw [GuardPlan.compile_plain]
  cases plan.action with
  | none => rfl
  | some action =>
    by_cases hname : action.name = ""
    · -- The action without a name is left out, and compiles to no action.
      have hcompile : action.compile registry state name = .ok none := by
        rw [ActionPlan.compile, if_pos hname]
      have hplain : (some action).filter (·.name ≠ "") = none := by simp [hname]
      simp only [hplain, hcompile]
      rfl
    · have hplain : (some action).filter (·.name ≠ "") = some action := by simp [hname]
      simp only [hplain]

/-- The transitions of a state compile as in the plain spelling, or fail in the same one. -/
theorem StatePlan.compile_plain (plan : StatePlan) :
    plan.plain.compile registry state = plan.compile registry state := by
  show (List.mapM (fun entry : String × TransitionPlan => entry.2.compile registry state entry.1)
      (plan.transitions.entries.map fun entry => (entry.1, entry.2.plain))).mapError _ = _
  rw [List.mapM_map]
  simp only [Function.comp_def, TransitionPlan.compile_plain]
  rfl

end Compile

/-! ### Linking and making plain plans -/

/-- Two functions that are applied to the entries one after the other. -/
theorem Dict.mapM_mapWithKey {α β γ ε : Type} (d : Dict α) (g : String → α → β)
    (f : String → β → Except ε γ) :
    (d.mapWithKey g).mapM f = d.mapM fun key value => f key (g key value) := by
  unfold Dict.mapM mapWithKey
  rw [List.mapM_map]
  rfl

/-- What is read as a name is no empty one, so reading it again changes nothing. -/
theorem nonEmpty?_nonEmpty? (name : Option String) :
    nonEmpty? (nonEmpty? name) = nonEmpty? name := by
  simp [nonEmpty?, Option.filter_filter]

/-- In the plain spelling a state names the same start substate. -/
@[simp] theorem StatePlan.startName?_plain (plan : StatePlan) :
    plan.plain.startName? = plan.startName? :=
  nonEmpty?_nonEmpty? plan.startSubstate

/-- In the plain spelling a state names the same parent. -/
@[simp] theorem StatePlan.parentName?_plain (plan : StatePlan) :
    plan.plain.parentName? = plan.parentName? :=
  nonEmpty?_nonEmpty? plan.parent

/-- The plain spelling leaves out no transition. -/
@[simp] theorem StatePlan.isEmpty_transitions_plain (plan : StatePlan) :
    plan.plain.transitions.isEmpty = plan.transitions.isEmpty := by
  show (plan.transitions.entries.map _).isEmpty = plan.transitions.entries.isEmpty
  exact List.isEmpty_map

namespace Blueprint

variable (blueprint : Blueprint)

/-- The plain spelling declares each state in its plain spelling. -/
theorem get?_states_plain (name : String) :
    blueprint.plain.states.get? name = (blueprint.states.get? name).map StatePlan.plain :=
  Dict.get?_mapWithKey _ _ _

/-- The plain spelling declares the same names. -/
@[simp] theorem contains_plain (name : String) :
    blueprint.plain.states.contains name = blueprint.states.contains name := by
  simp only [Dict.contains_eq, get?_states_plain, Option.isSome_map]

/-- A start substate is claimed as in the plain spelling, or refused for the same reason. -/
theorem claim_plain (claims : Dict String) (name : String) (plan : StatePlan) :
    blueprint.plain.claim claims (name, plan.plain) = blueprint.claim claims (name, plan) := by
  simp only [claim, StatePlan.startName?_plain, StatePlan.isEmpty_transitions_plain, contains_plain]

/-- The claims of all states are those of the plain spelling. -/
theorem claims_plain : blueprint.plain.claims = blueprint.claims := by
  show (blueprint.states.entries.map fun entry : String × StatePlan =>
    (entry.1, entry.2.plain)).foldlM blueprint.plain.claim Dict.empty = _
  rw [List.foldlM_map]
  simp only [claim_plain]
  rfl

/-- A state is linked as in the plain spelling, or refused for the same reason. -/
theorem link_plain (claims : Dict String) (name : String) (plan : StatePlan) :
    blueprint.plain.link claims name plan.plain = blueprint.link claims name plan := by
  have hstart : plan.plain.start = plan.start := rfl
  simp only [link, StatePlan.parentName?_plain, contains_plain, hstart]

/-- The links of all states are those of the plain spelling. -/
theorem links_plain : blueprint.plain.links = blueprint.links := by
  -- A link is compared state by state, as the blueprint that it is looked up in changes as well.
  have hmap : ∀ claims, blueprint.plain.states.mapM (blueprint.plain.link claims)
      = blueprint.states.mapM (blueprint.link claims) := by
    intro claims
    rw [plain, Dict.mapM_mapWithKey]
    exact congrArg blueprint.states.mapM
      (funext fun name => funext fun plan => link_plain blueprint claims name plan)
  simp only [links, claims_plain, hmap]

/-- A state is made from the plain spelling as from the blueprint, with any links and any parts
made before it. -/
theorem make_plain (registry : Registry) (links : Dict Link) (parts : Parts) (name : String) :
    blueprint.plain.make registry links parts name = blueprint.make registry links parts name := by
  unfold make
  rw [get?_states_plain]
  cases blueprint.states.get? name with
  | none => rfl
  | some plan =>
    have hstart : plan.plain.start = plan.start := rfl
    simp only [Option.map_some, StatePlan.startName?_plain, StatePlan.compile_plain, hstart]

/-- The parts of a blueprint are those of its plain spelling. -/
theorem resolve_plain (registry : Registry) :
    blueprint.plain.resolve registry = blueprint.resolve registry := by
  have hmake : ∀ links, blueprint.plain.make registry links = blueprint.make registry links :=
    fun links => funext fun parts => funext fun name =>
      make_plain blueprint registry links parts name
  simp only [resolve, parts, links_plain, hmake]

/-- A blueprint assembles as in the plain spelling. -/
theorem assemble_plain (registry : Registry) :
    blueprint.plain.assemble registry = blueprint.assemble registry := by
  simp only [assemble, resolve_plain]

variable {blueprint} {blueprint' : Blueprint}

/-- Take two blueprints that differ, in any number of places, by ways to write that a parent, a
start substate, a guard or an action is absent. With any registry they assemble to the same chart,
or fail with the same fault. -/
theorem assemble_eq_of_respelled (h : blueprint.Respelled blueprint') (registry : Registry) :
    blueprint.assemble registry = blueprint'.assemble registry := by
  calc blueprint.assemble registry
      = blueprint.plain.assemble registry := (assemble_plain blueprint registry).symm
    _ = blueprint'.plain.assemble registry := by rw [h.plain_eq]
    _ = blueprint'.assemble registry := assemble_plain blueprint' registry

/-- A house whose hall leads to its attic. -/
def terseHouse : Blueprint :=
  ⟨Dict.ofList [("house", { start := true, startSubstate := some "hall" }),
    ("hall", { transitions := Dict.ofList [("stairs", { target := "attic" })] }),
    ("attic", { parent := some "house" })]⟩

/-- The same house, where all that is absent is written down. -/
def wordyHouse : Blueprint :=
  ⟨Dict.ofList [("house", { start := true, startSubstate := some "hall", parent := some "" }),
    ("hall", {
      startSubstate := some ""
      parent := some ""
      transitions := Dict.ofList [("stairs", {
        target := "attic"
        guard := { kind := "always", key := some "key", value := some .null }
        action := some (.packaged "" (Dict.ofList [("key", .bool true)])) })] }),
    ("attic", { startSubstate := some "", parent := some "house" })]⟩

/-- Both houses assemble to one chart. -/
theorem wordyHouse_assembled :
    terseHouse.Respelled wordyHouse
      ∧ ∃ chart, terseHouse.assemble Registry.empty = .ok chart
        ∧ wordyHouse.assemble Registry.empty = .ok chart := by
  have hstairs : ∀ name, Option.Rel TransitionPlan.Respelled
      ((Dict.ofList [("stairs", ({ target := "attic" } : TransitionPlan))]).get? name)
      ((Dict.ofList [("stairs", ({
        target := "attic"
        guard := { kind := "always", key := some "key", value := some .null }
        action := some (.packaged "" (Dict.ofList [("key", .bool true)])) } :
          TransitionPlan))]).get? name) := by
    intro name
    simp only [Dict.ofList, List.foldl_cons, List.foldl_nil, Dict.get?_insert, Dict.get?_empty]
    split
    · refine .some ⟨rfl, Or.inr ⟨Or.inl rfl, Or.inr rfl⟩, Or.inr ⟨?_, ?_⟩⟩
      · intro action haction
        cases haction
      · intro action haction
        cases haction
        rfl
    · exact .none
  have hrespelled : terseHouse.Respelled wordyHouse := by
    intro name
    simp only [terseHouse, wordyHouse, Dict.ofList, List.foldl_cons, List.foldl_nil,
      Dict.get?_insert, Dict.get?_empty]
    split
    · exact .some ⟨rfl, Or.inr ⟨Or.inl rfl, Or.inr rfl⟩, Or.inl rfl, fun _ => .none⟩
    · split
      · exact .some ⟨rfl, Or.inr ⟨Or.inl rfl, Or.inr rfl⟩, Or.inr ⟨Or.inl rfl, Or.inr rfl⟩,
          hstairs⟩
      · split
        · exact .some ⟨rfl, Or.inl rfl, Or.inr ⟨Or.inl rfl, Or.inr rfl⟩, fun _ => .none⟩
        · exact .none
  obtain ⟨chart, hchart⟩ : ∃ chart, terseHouse.assemble Registry.empty = .ok chart := by
    have hsome : (terseHouse.assemble Registry.empty).toOption.isSome = true := by decide
    cases hassemble : terseHouse.assemble Registry.empty with
    | ok chart => exact ⟨chart, rfl⟩
    | error fault =>
      rw [hassemble] at hsome
      cases hsome
  -- The second house need not be evaluated.
  have hsame := assemble_eq_of_respelled hrespelled Registry.empty
  exact ⟨hrespelled, chart, hchart, hsame ▸ hchart⟩

end Blueprint

end Statechart
