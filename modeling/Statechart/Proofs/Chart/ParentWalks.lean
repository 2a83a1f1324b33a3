import Mathlib.Logic.Function.Iterate
import Statechart.Chart.Validation
import Statechart.Proofs.Chart.ParentLinks

/-!
# `Statechart.Proofs.Chart.ParentWalks`: two walks up the parents

`lineage?` and `validateState` follow the links of a state upwards. The first gives up when it
has met as many names as there are states, the second when it meets a name again. Both are loops
without a bound of their own: `Climb.turn` is one turn of either loop, and the two differ in
their `Rule`. Nothing is known of the table but that its states stand under their own names.

* `Climb.iterate_listing`, `Climb.iterate_checking`: the loops end on every table, with what
  `lineage?` and `validateState` give. Different names are never more than there are, so the
  bound of `validateChain` is not reached.
* `finds_validateChain`: what the check of the parents answers is true of the links.
* `parent_walks_law`: both walks are exact, and so they agree.
-/

set_option autoImplicit false

namespace Statechart

open Relation (ReflTransGen TransGen)

/-! ### The loops -/

/-- A walk up the parents on its way. -/
structure Climb where
  /-- The names that it has met, the last one first. -/
  met : List String
  /-- The state that it has come to; none above the top. -/
  current : Option State

namespace Climb

/-- What a walk up the parents answers. -/
structure Rule (α : Type) where
  /-- Whether it gives up at a state, after the names that it has met. -/
  stops : List String → State → Bool
  /-- The answer if it gives up. -/
  stopped : α
  /-- The answer above the top. -/
  finished : List String → α
  /-- The answer at a state whose parent is not there. -/
  dangling : String → String → α

/-- The walk that lists the states from the top on. It gives up after as many names as there
are states. -/
def listing (chart : Chart) : Rule (Option (List String)) where
  stops met _ := decide (chart.size ≤ met.length)
  stopped := none
  finished met := some met
  dangling _ _ := none

/-- The walk that checks the parents of a state. It gives up at a name that it has met. -/
def checking (origin : String) : Rule (Except Fault Unit) where
  stops met state := decide (state.name ∈ met)
  stopped := .error (.stateInvalid origin .cycled)
  finished _ := .ok ()
  dangling name parent := .error (.chartInvalid (.unknownParent name parent))

variable {α : Type} {chart : Chart} {rule : Rule α} {met : List String}
  {state above : State} {name origin parent : String} {bound : Nat}

/-- One turn of the loop, if it has not ended. -/
def turn (chart : Chart) (rule : Rule α) : Climb ⊕ α → Climb ⊕ α
  | .inr answer => .inr answer
  | .inl ⟨met, none⟩ => .inr (rule.finished met)
  | .inl ⟨met, some state⟩ =>
    if rule.stops met state then .inr rule.stopped
    else
      match state.parent with
      | none => .inl ⟨state.name :: met, none⟩
      | some parent =>
        match chart.get? parent with
        | none => .inr (rule.dangling state.name parent)
        | some above => .inl ⟨state.name :: met, some above⟩

/-- The beginning of the walk that lists the states above one. -/
def start (chart : Chart) (name : String) : Climb ⊕ Option (List String) :=
  match chart.get? name with
  | none => .inr none
  | some state => .inl ⟨[], some state⟩

section turn

variable (hstops : rule.stops met state = false)
include hstops

/-- At a state without parent, a walk that does not give up is above the top after this turn. -/
theorem turn_top (hparent : state.parent = none) :
    turn chart rule (.inl ⟨met, some state⟩) = .inl ⟨state.name :: met, none⟩ := by
  simp [turn, hstops, hparent]

/-- At a state whose parent is not there, a walk that does not give up ends with the answer for
that. -/
theorem turn_dangling (hparent : state.parent = some parent)
    (habove : chart.get? parent = none) :
    turn chart rule (.inl ⟨met, some state⟩) = .inr (rule.dangling state.name parent) := by
  simp [turn, hstops, hparent, habove]

/-- At a state with a parent, a walk that does not give up goes on to the parent. -/
theorem turn_above (hparent : state.parent = some parent)
    (habove : chart.get? parent = some above) :
    turn chart rule (.inl ⟨met, some state⟩) = .inl ⟨state.name :: met, some above⟩ := by
  simp [turn, hstops, hparent, habove]

end turn

/-- A walk that gives up ends with the answer for that, whatever the parent is. -/
theorem turn_stopped (hstops : rule.stops met state = true) :
    turn chart rule (.inl ⟨met, some state⟩) = .inr rule.stopped := by
  simp [turn, hstops]

/-- A loop that has ended stays as it is. -/
theorem iterate_turn_inr (chart : Chart) (rule : Rule α) (answer : α) (turns : Nat) :
    (turn chart rule)^[turns] (.inr answer) = .inr answer :=
  Function.iterate_fixed rfl turns

/-- Above the top, the loop ends in one turn. -/
theorem iterate_turn_finished (chart : Chart) (rule : Rule α) (met : List String) (turns : Nat) :
    (turn chart rule)^[turns + 1] (.inl ⟨met, none⟩) = .inr (rule.finished met) := by
  rw [Function.iterate_succ_apply]
  exact iterate_turn_inr chart rule (rule.finished met) turns

/-- The loop that lists the states ends with the list, in one turn more than the names that it
may still meet. -/
theorem iterate_turn_listing (hget : chart.get? name = some state)
    (hlength : met.length + bound = chart.size) :
    (turn chart (listing chart))^[bound + 1] (.inl ⟨met, some state⟩)
      = .inr ((chart.chain? bound name).map fun chain => chain.reverse ++ met) := by
  -- Each turn meets one more name, so what may still be met goes down with it.
  induction bound generalizing name state met with
  | zero =>
    have hstops : (listing chart).stops met state = true := by
      simp only [listing, decide_eq_true_eq]
      omega
    rw [Function.iterate_succ_apply, turn_stopped hstops]
    rfl
  | succ bound ih =>
    have hstops : (listing chart).stops met state = false := by
      simp only [listing, decide_eq_false_iff_not]
      omega
    rw [Function.iterate_succ_apply]
    cases hparent : state.parent with
    | none =>
      rw [turn_top hstops hparent, iterate_turn_finished]
      simp [listing, Chart.chain?, hget, hparent]
    | some parent =>
      cases habove : chart.get? parent with
      | none =>
        -- The rest of the chain is not there either.
        have hrest : chart.chain? bound parent = none := by
          cases bound with
          | zero => rfl
          | succ bound => simp [Chart.chain?, habove]
        rw [turn_dangling hstops hparent habove, iterate_turn_inr]
        simp [listing, Chart.chain?, hget, hparent, hrest]
      | some above =>
        have hnext : (state.name :: met).length + bound = chart.size := by
          rw [List.length_cons]
          omega
        rw [turn_above hstops hparent habove, ih habove hnext]
        simp [Chart.chain?, hget, hparent, Function.comp_def]

/-- Different names of states are no more than there are states. -/
theorem bound_pos (hnodup : met.Nodup) (hknown : met ⊆ origin :: chart.states.keys)
    (hlength : met.length + bound = chart.size + 2) : 0 < bound := by
  have hle : met.length ≤ (origin :: chart.states.keys).length :=
    hnodup.length_le_of_subset hknown
  have hkeys : chart.states.keys.length = chart.size := chart.states.length_keys
  rw [List.length_cons, hkeys] at hle
  omega

/-- The loop that checks the parents ends with the answer of the check, in one turn more than
the names that it may still meet. -/
theorem iterate_turn_checking (hnamed : chart.Named) (hnodup : met.Nodup)
    (hknown : state.name :: met ⊆ origin :: chart.states.keys)
    (hlength : met.length + bound = chart.size + 2) :
    (turn chart (checking origin))^[bound + 1] (.inl ⟨met, some state⟩)
      = .inr (chart.validateChain origin bound met state) := by
  -- The names met stay different and known, so the loop ends before the bound does.
  induction bound generalizing state met with
  | zero =>
    have hpositive := bound_pos hnodup (fun _ h => hknown (List.mem_cons_of_mem _ h)) hlength
    omega
  | succ bound ih =>
    rw [Function.iterate_succ_apply]
    by_cases hmet : state.name ∈ met
    · have hstops : (checking origin).stops met state = true := by simp [checking, hmet]
      rw [turn_stopped hstops, iterate_turn_inr]
      simp [checking, Chart.validateChain, hmet]
    · have hstops : (checking origin).stops met state = false := by simp [checking, hmet]
      cases hparent : state.parent with
      | none =>
        rw [turn_top hstops hparent, iterate_turn_finished]
        simp [checking, Chart.validateChain, hmet, hparent]
      | some parent =>
        cases habove : chart.get? parent with
        | none =>
          rw [turn_dangling hstops hparent habove, iterate_turn_inr]
          simp [checking, Chart.validateChain, hmet, hparent, habove]
        | some above =>
          have hkey : above.name ∈ origin :: chart.states.keys := by
            rw [hnamed parent above habove]
            exact List.mem_cons_of_mem _ ((chart.states.mem_keys parent).2
              (Option.isSome_iff_exists.2 ⟨above, habove⟩))
          have hnext : (state.name :: met).length + bound = chart.size + 2 := by
            rw [List.length_cons]
            omega
          rw [turn_above hstops hparent habove, ih (List.nodup_cons.2 ⟨hmet, hnodup⟩)
            (List.cons_subset.2 ⟨hkey, hknown⟩) hnext]
          simp [Chart.validateChain, hmet, hparent, habove]

/-- The loop behind `lineage?` ends on every table. -/
theorem iterate_listing (chart : Chart) (name : String) :
    (turn chart (listing chart))^[chart.size + 1] (start chart name)
      = .inr (chart.lineage? name) := by
  unfold start
  cases hget : chart.get? name with
  | none =>
    rw [Chart.lineage?_eq_none hget]
    exact iterate_turn_inr chart (listing chart) none (chart.size + 1)
  | some state =>
    have hlength : ([] : List String).length + chart.size = chart.size := Nat.zero_add _
    rw [iterate_turn_listing hget hlength]
    simp [Chart.lineage?]

/-- The loop behind `validateState` ends on every table and from every state. -/
theorem iterate_checking (hnamed : chart.Named) (hvalid : state.validate = .ok ()) :
    (turn chart (checking state.name))^[chart.size + 3] (.inl ⟨[], some state⟩)
      = .inr (chart.validateState state) := by
  have hknown : state.name :: [] ⊆ state.name :: chart.states.keys := by simp
  rw [iterate_turn_checking hnamed List.nodup_nil hknown (by simp)]
  unfold Chart.validateState
  rw [hvalid]
  rfl

end Climb

/-! ### The answers -/

namespace Chart

variable {chart : Chart} {name origin : String} {state : State} {path visited : List String}
  {bound : Nat}

/-- What the check of the parents of a state answers, and what that says of the links. -/
inductive Finds (chart : Chart) (name : String) : Except Fault Unit → Prop where
  /-- It accepts the state if its links lead to a state without parent. -/
  | top (h : chart.EndsAtTop name) : Finds chart name (.ok ())
  /-- It reports a cycle, and the links lead into one. -/
  | cycle (h : chart.RunsIntoCycle name) :
    Finds chart name (.error (.stateInvalid name .cycled))
  /-- It reports a parent that is not there, and the links lead to it. -/
  | dangling {last parent : String} (h : chart.DanglesAt name last parent) :
    Finds chart name (.error (.chartInvalid (.unknownParent last parent)))

namespace Finds

variable {answer : Except Fault Unit}

/-- Whatever the check answers, the links have one of the three fates. -/
theorem fate (h : chart.Finds name answer) :
    chart.EndsAtTop name ∨ chart.RunsIntoCycle name
      ∨ ∃ last parent, chart.DanglesAt name last parent := by
  cases h with
  | top htop => exact Or.inl htop
  | cycle hcycle => exact Or.inr (Or.inl hcycle)
  | dangling hdangles => exact Or.inr (Or.inr ⟨_, _, hdangles⟩)

/-! The fates exclude each other, so each answer has one fate and each fate one answer. -/

/-- The check accepts exactly if the links lead to a state without parent. -/
theorem eq_ok_iff (h : chart.Finds name answer) : answer = .ok () ↔ chart.EndsAtTop name := by
  cases h with
  | top htop => exact ⟨fun _ => htop, fun _ => rfl⟩
  | cycle hcycle => exact ⟨nofun, fun htop => absurd hcycle htop.not_runsIntoCycle⟩
  | dangling hdangles => exact ⟨nofun, fun htop => absurd hdangles htop.not_danglesAt⟩

/-- The check reports a cycle exactly if the links lead into one. -/
theorem eq_cycled_iff (h : chart.Finds name answer) :
    answer = .error (.stateInvalid name .cycled) ↔ chart.RunsIntoCycle name := by
  cases h with
  | top htop => exact ⟨nofun, fun hcycle => absurd hcycle htop.not_runsIntoCycle⟩
  | cycle hcycle => exact ⟨fun _ => hcycle, fun _ => rfl⟩
  | dangling hdangles => exact ⟨nofun, fun hcycle => absurd hcycle hdangles.not_runsIntoCycle⟩

/-- The check reports a missing parent, and the state below it, exactly if the links lead there. -/
theorem eq_dangling_iff (h : chart.Finds name answer) (last parent : String) :
    answer = .error (.chartInvalid (.unknownParent last parent))
      ↔ chart.DanglesAt name last parent := by
  cases h with
  | top htop => exact ⟨nofun, fun hdangles => absurd hdangles htop.not_danglesAt⟩
  | cycle hcycle => exact ⟨nofun, fun hdangles => absurd hcycle hdangles.not_runsIntoCycle⟩
  | dangling hdangles =>
    constructor
    · intro hsame
      cases hsame
      exact hdangles
    · intro hdangles'
      obtain ⟨rfl, rfl⟩ := hdangles.unique hdangles'
      rfl

end Finds

/-- What the check answers on its way up is true of the state that it started from. -/
theorem finds_validateChain (hnamed : chart.Named) (hget : chart.get? name = some state)
    (hreach : ReflTransGen chart.Link origin name) (hnodup : visited.Nodup)
    (hbelow : ∀ other ∈ visited, TransGen chart.Link other name)
    (hlength : visited.length + bound = chart.size + 2) :
    chart.Finds origin (chart.validateChain origin bound visited state) := by
  -- The visited names are below the state, so meeting one of them closes a cycle.
  induction bound generalizing name state visited with
  | zero =>
    have hknown : ∀ other ∈ visited, (chart.get? other).isSome := by
      intro other hother
      obtain ⟨above, ⟨state, hget, -⟩, -⟩ := TransGen.head'_iff.1 (hbelow other hother)
      exact Option.isSome_iff_exists.2 ⟨state, hget⟩
    have hle : visited.length ≤ chart.size := chart.states.length_le_size hnodup hknown
    omega
  | succ bound ih =>
    have hname : state.name = name := hnamed name state hget
    unfold validateChain
    split
    · next hmet =>
      rw [hname] at hmet
      exact .cycle ⟨name, hreach, hbelow name hmet⟩
    · next hfresh =>
      split
      · next hparent => exact .top ⟨name, state, hreach, hget, hparent⟩
      · next parent hparent =>
        have hlink : chart.Link name parent := ⟨state, hget, hparent⟩
        split
        · next hnone =>
          rw [hname]
          exact .dangling ⟨hreach, hlink, hnone⟩
        · next above habove =>
          refine ih habove (hreach.tail hlink) (List.nodup_cons.2 ⟨hfresh, hnodup⟩) ?_ ?_
          · intro other hother
            rcases List.mem_cons.1 hother with rfl | hmem
            · rw [hname]
              exact .single hlink
            · exact (hbelow other hmem).tail hlink
          · rw [List.length_cons]
            omega

/-- What the two walks up the parents of a state answer. -/
structure WalksExact (chart : Chart) (name : String) (state : State) : Prop where
  /-- The links lead to one of three ends. -/
  fate : chart.EndsAtTop name ∨ chart.RunsIntoCycle name
    ∨ ∃ last parent, chart.DanglesAt name last parent
  /-- There is a list exactly if they lead to a state without parent. -/
  listed : (chart.lineage? name).isSome ↔ chart.EndsAtTop name
  /-- The list is the path down from that state. -/
  path : ∀ path, chart.lineage? name = some path ↔ chart.LeadsDown path name
  /-- A valid state is accepted exactly if there is a list. -/
  accepted : state.validate = .ok () →
    (chart.validateState state = .ok () ↔ (chart.lineage? name).isSome)
  /-- A cycle is reported exactly if the links lead into one. -/
  cycled : state.validate = .ok () →
    (chart.validateState state = .error (.stateInvalid name .cycled)
      ↔ chart.RunsIntoCycle name)
  /-- A parent that is not there is reported exactly if they lead to it. -/
  dangling : state.validate = .ok () → ∀ last parent,
    (chart.validateState state = .error (.chartInvalid (.unknownParent last parent))
      ↔ chart.DanglesAt name last parent)

/-- The bounded walk finds a list exactly if the links lead to a state without parent. -/
theorem lineage?_isSome_iff (hnamed : chart.Named) :
    (chart.lineage? name).isSome ↔ chart.EndsAtTop name := by
  rw [← exists_lineage_iff, Option.isSome_iff_exists]
  exact exists_congr fun path => lineage?_eq_some_iff hnamed

/-- The list that the bounded walk finds is the path down from the top. -/
theorem lineage?_eq_some_iff_leadsDown (hnamed : chart.Named) :
    chart.lineage? name = some path ↔ chart.LeadsDown path name :=
  (lineage?_eq_some_iff hnamed).trans lineage_iff_leadsDown

/-- From any state of the table, the check of its parents finds what is true of its links. The
bound leaves room for all names of the table. -/
theorem finds_whole (hnamed : chart.Named) (hget : chart.get? name = some state) :
    chart.Finds name (chart.validateChain name (chart.size + 2) [] state) :=
  finds_validateChain hnamed hget .refl List.nodup_nil (by simp) (by simp)

/-- What the check of a valid state answers is true of its links. -/
theorem finds_validateState (hnamed : chart.Named) (hget : chart.get? name = some state)
    (hvalid : state.validate = .ok ()) : chart.Finds name (chart.validateState state) := by
  unfold validateState
  rw [hvalid, hnamed name state hget]
  exact finds_whole hnamed hget

/-- Of a state under its own name, both walks tell exactly where its links lead. -/
theorem Named.walksExact (hnamed : chart.Named) (hget : chart.get? name = some state) :
    chart.WalksExact name state where
  fate := (finds_whole hnamed hget).fate
  listed := lineage?_isSome_iff hnamed
  path _ := lineage?_eq_some_iff_leadsDown hnamed
  accepted hvalid := by
    rw [lineage?_isSome_iff hnamed]
    exact (finds_validateState hnamed hget hvalid).eq_ok_iff
  cycled hvalid := (finds_validateState hnamed hget hvalid).eq_cycled_iff
  dangling hvalid := (finds_validateState hnamed hget hvalid).eq_dangling_iff

/-- Take a table of states, each under its own name, with any parents. The loops of both walks
end, whatever the parents are. A name that is no state's has no lineage; and of a state, both
walks tell exactly where its links lead. -/
theorem parent_walks_law (hnamed : chart.Named) :
    (∀ name, (Climb.turn chart (Climb.listing chart))^[chart.size + 1] (Climb.start chart name)
        = .inr (chart.lineage? name))
      ∧ (∀ state : State, state.validate = .ok () →
        (Climb.turn chart (Climb.checking state.name))^[chart.size + 3] (.inl ⟨[], some state⟩)
          = .inr (chart.validateState state))
      ∧ (∀ name, chart.get? name = none → chart.lineage? name = none)
      ∧ ∀ name state, chart.get? name = some state → chart.WalksExact name state :=
  ⟨Climb.iterate_listing chart, fun _ hvalid => Climb.iterate_checking hnamed hvalid,
    fun _ hnone => lineage?_eq_none hnone, fun _ _ hget => hnamed.walksExact hget⟩

/-- The table of some states. -/
def ofStates (states : List State) : Chart :=
  states.foldl put ⟨Dict.empty⟩

/-- In the table of some states each stands under its own name. Of two with one name the later
counts. -/
theorem named_ofStates (states : List State) : (ofStates states).Named := by
  have hput : ∀ chart : Chart, chart.Named → ∀ state : State, (chart.put state).Named := by
    intro chart hnamed state name other hget
    unfold put get? at hget
    rw [Dict.get?_insert] at hget
    split at hget
    · next hname =>
      cases hget
      exact hname.symm
    · exact hnamed name other hget
  have hempty : Chart.Named ⟨Dict.empty⟩ := by
    intro name state hget
    unfold get? at hget
    rw [Dict.get?_empty] at hget
    cases hget
  unfold ofStates
  generalize (⟨Dict.empty⟩ : Chart) = chart at hempty ⊢
  induction states generalizing chart with
  | nil => exact hempty
  | cons state rest ih => exact ih (chart.put state) (hput chart hempty state)

/-- A table with a chain of two states, two states that are each other's parents, a state below
these, one that is its own parent, and one whose parent is not there. -/
def labyrinth : Chart :=
  ofStates [⟨"gate", none, none, []⟩, ⟨"hall", some "gate", none, []⟩,
    ⟨"east", some "west", none, []⟩, ⟨"west", some "east", none, []⟩,
    ⟨"niche", some "east", none, []⟩, ⟨"mirror", some "mirror", none, []⟩,
    ⟨"ladder", some "attic", none, []⟩]

/-- The walks find the chain of two and its path, the cycle that is above a state and the one of a
single state, the missing parent, and no lineage of that. -/
theorem labyrinth_walks :
    labyrinth.LeadsDown ["gate", "hall"] "hall" ∧ labyrinth.RunsIntoCycle "niche"
      ∧ labyrinth.RunsIntoCycle "mirror" ∧ labyrinth.DanglesAt "ladder" "ladder" "attic"
      ∧ labyrinth.lineage? "attic" = none := by
  have hnamed : labyrinth.Named := named_ofStates _
  obtain ⟨-, -, hunknown, hstates⟩ := parent_walks_law hnamed
  have hhall := hstates "hall" ⟨"hall", some "gate", none, []⟩ rfl
  have hniche := hstates "niche" ⟨"niche", some "east", none, []⟩ rfl
  have hmirror := hstates "mirror" ⟨"mirror", some "mirror", none, []⟩ rfl
  have hladder := hstates "ladder" ⟨"ladder", some "attic", none, []⟩ rfl
  exact ⟨(hhall.path _).1 rfl, (hniche.cycled rfl).1 rfl, (hmirror.cycled rfl).1 rfl,
    (hladder.dangling rfl _ _).1 rfl, hunknown "attic" rfl⟩

end Chart

end Statechart
