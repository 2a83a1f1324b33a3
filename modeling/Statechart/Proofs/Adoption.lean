import Statechart.Proofs.State

/-!
# `Statechart.Proofs.Adoption`: states that adopt each other

States are made, cloned and linked before any chart knows of them. A `Roster` lists the states at
hand; each `Call` makes a state, clones one, or lets one adopt another. Adoption changes two states
in place, one field after the other (`State.adoptInPlace`), so a failure could leave one of them
half changed. `run_adoptInPlace` proves that it does not: every check comes before the first write.

Whatever the calls are, a state either has the ways out that it was made with, or it delegates and
has one way out, into its start substate (`Member.Intact`). Its parent and its start substate are
set once and stay (`Member.Becomes`). `representation_law` puts this together, and draws from it
what the check of a state comes to.
-/

set_option autoImplicit false

namespace Statechart

/-! ### Adoption in place -/

namespace State

/-- Adoption as it is programmed, on a parent and a child that are changed in place: the checks
first, and then one write for each field. A failure takes nothing back. -/
def adoptInPlace (isStart : Bool) : EStateM Fault (State × State) Unit := do
  let (parent, child) ← get
  if let some current := child.parent then
    throw (.stateInvalid child.name (.hasParent current))
  if isStart then
    if let some current := parent.startSubstate then
      throw (.stateInvalid parent.name (.hasStart current))
    if ¬ parent.transitions.isEmpty then
      throw (.stateInvalid parent.name .startBesideTransitions)
  modify fun (parent, child) => (parent, { child with parent := some parent.name })
  if isStart then
    modify fun (parent, child) => ({ parent with startSubstate := some child.name }, child)
    modify fun (parent, child) =>
      ({ parent with transitions := [entry parent.name child.name] }, child)

/-- Adoption in place leaves what `adopt` gives, and both states as they were if it gives
nothing. -/
theorem run_adoptInPlace (parent child : State) (isStart : Bool) :
    (adoptInPlace isStart).run (parent, child)
      = match parent.adopt child isStart with
        | .ok linked => .ok () linked
        | .error fault => .error fault (parent, child) := by
  unfold adoptInPlace adopt
  cases hparent : child.parent with
  | some current => simp [hparent]
  | none =>
    cases isStart with
    | false => simp [hparent]
    | true =>
      cases hstart : parent.startSubstate with
      | some current => simp [hparent, hstart]
      | none =>
        cases hways : parent.transitions with
        | cons way rest => simp [hparent, hstart, hways]
        | nil => simp [hparent, hstart, hways, -bind_pure_comp]

end State

/-! ### Calls -/

/-- A state at hand, and what it was made from. -/
structure Member where
  /-- The name that it was made with. -/
  name : String
  /-- The ways out that it was made with. -/
  ways : List Transition
  /-- What it is now. -/
  state : State

/-- A state that was just made. -/
def Member.made (name : String) (ways : List Transition) : Member :=
  ⟨name, ways, State.new name ways⟩

/-- The states at hand. -/
abbrev Roster := List Member

namespace Roster

/-- What can be done with the states at hand. They are known by their places. -/
inductive Call where
  /-- A state is made. -/
  | make (name : String) (ways : List Transition)
  /-- A state is cloned. -/
  | clone (index : Nat)
  /-- A state adopts another one. -/
  | adopt (parent child : Nat) (isStart : Bool)

/-- Puts a parent and a child back in their places. -/
def put (roster : Roster) (parent child : Nat) (linked : State × State) : Roster :=
  (roster.modify parent fun member => { member with state := linked.1 }).modify child
    fun member => { member with state := linked.2 }

/-- The states after a call, and whether it succeeded. A state that is not there cannot be cloned
or adopt or be adopted, and no state can be both parent and child: such calls do nothing. -/
def perform (roster : Roster) : Call → Roster × Except Fault Unit
  | .make name ways => (roster ++ [.made name ways], .ok ())
  | .clone index => (roster ++ roster[index]?.toList, .ok ())
  | .adopt parent child isStart =>
    match roster[parent]?, roster[child]? with
    | some above, some below =>
      if parent = child then (roster, .ok ())
      else
        match (State.adoptInPlace isStart).run (above.state, below.state) with
        | .ok () linked => (roster.put parent child linked, .ok ())
        | .error fault linked => (roster.put parent child linked, .error fault)
    | _, _ => (roster, .ok ())

/-- The states after several calls. A failing call stops nothing. -/
def performAll (roster : Roster) (calls : List Call) : Roster :=
  calls.foldl (fun roster call => (roster.perform call).1) roster

variable {roster : Roster} {call : Call} {member later : Member} {parent child index : Nat}
  {isStart : Bool}

/-- After a parent and a child are put back, their places hold the changed states, and every other
place is as it was. Each state keeps what it was made with. -/
theorem getElem?_put (linked : State × State) (index : Nat) :
    (roster.put parent child linked)[index]?
      = (roster[index]?).map fun member =>
          if child = index then { member with state := linked.2 }
          else if parent = index then { member with state := linked.1 }
          else member := by
  unfold put
  rw [List.getElem?_modify, List.getElem?_modify]
  cases roster[index]? with
  | none => rfl
  | some member =>
    by_cases hchild : child = index
    · by_cases hparent : parent = index <;> simp [hchild, hparent]
    · simp [hchild]

/-- Two states that are put back as they were. -/
theorem put_eq_self {above below : Member} (habove : roster[parent]? = some above)
    (hbelow : roster[child]? = some below) :
    roster.put parent child (above.state, below.state) = roster := by
  refine List.ext_getElem? fun index => ?_
  rw [getElem?_put]
  by_cases hchild : child = index
  · rw [← hchild, hbelow]
    simp
  · by_cases hparent : parent = index
    · have hne : child ≠ parent := hparent ▸ hchild
      rw [← hparent, habove]
      simp [hne]
    · simp [hchild, hparent]

/-- Two states that are at hand adopt each other, or stay as they are. -/
theorem perform_adopt {above below : Member} (hne : parent ≠ child)
    (habove : roster[parent]? = some above) (hbelow : roster[child]? = some below) :
    roster.perform (.adopt parent child isStart)
      = match above.state.adopt below.state isStart with
        | .ok linked => (roster.put parent child linked, .ok ())
        | .error fault => (roster, .error fault) := by
  simp only [perform, habove, hbelow, if_neg hne, State.run_adoptInPlace]
  cases above.state.adopt below.state isStart with
  | ok linked => rfl
  | error fault => simp only [put_eq_self habove hbelow]

/-- What a call comes to: new states at the end of the list, or two states that are linked. -/
theorem perform_cases (roster : Roster) (call : Call) :
    (∃ extra, (roster.perform call).1 = roster ++ extra
        ∧ ∀ member ∈ extra, member ∈ roster ∨ ∃ name ways, member = .made name ways)
      ∨ ∃ parent child isStart above below linked, roster[parent]? = some above
          ∧ roster[child]? = some below ∧ above.state.adopt below.state isStart = .ok linked
          ∧ (roster.perform call).1 = roster.put parent child linked := by
  have hnothing : ∃ extra, roster = roster ++ extra
      ∧ ∀ member ∈ extra, member ∈ roster ∨ ∃ name ways, member = .made name ways :=
    ⟨[], (List.append_nil _).symm, by simp⟩
  cases call with
  | make name ways =>
    refine Or.inl ⟨[.made name ways], rfl, fun member hmem => ?_⟩
    exact Or.inr ⟨name, ways, List.mem_singleton.1 hmem⟩
  | clone index =>
    refine Or.inl ⟨roster[index]?.toList, rfl, fun member hmem => ?_⟩
    exact Or.inl (List.mem_of_getElem? (Option.mem_toList.1 hmem))
  | adopt parent child isStart =>
    cases habove : roster[parent]? with
    | none =>
      left
      simpa only [perform, habove] using hnothing
    | some above =>
      cases hbelow : roster[child]? with
      | none =>
        left
        simpa only [perform, habove, hbelow] using hnothing
      | some below =>
        by_cases hne : parent = child
        · left
          simpa only [perform, habove, hbelow, if_pos hne] using hnothing
        · rw [perform_adopt hne habove hbelow]
          cases hadopt : above.state.adopt below.state isStart with
          | error fault => exact Or.inl hnothing
          | ok linked =>
            exact Or.inr ⟨parent, child, isStart, above, below, linked, habove, hbelow, hadopt, rfl⟩

/-- A failing call changes no state. -/
theorem perform_eq_self_of_error {fault : Fault}
    (h : (roster.perform (.adopt parent child isStart)).2 = .error fault) :
    (roster.perform (.adopt parent child isStart)).1 = roster := by
  cases habove : roster[parent]? with
  | none => simp only [perform, habove]
  | some above =>
    cases hbelow : roster[child]? with
    | none => simp only [perform, habove, hbelow]
    | some below =>
      by_cases hne : parent = child
      · simp only [perform, habove, hbelow, if_pos hne]
      · rw [perform_adopt hne habove hbelow] at h ⊢
        cases hadopt : above.state.adopt below.state isStart with
        | error => rfl
        | ok linked =>
          rw [hadopt] at h
          cases h

end Roster

/-! ### What becomes of a state -/

/-- What a call can make of a state. -/
inductive State.Changes : State → State → Prop where
  /-- It stays as it is. -/
  | same (state : State) : Changes state state
  /-- It adopts another state. -/
  | adopting (state : State) (child : String) (isStart : Bool)
      (hfree : isStart = true → state.startSubstate = none ∧ state.transitions = []) :
      Changes state (state.adopting child isStart)
  /-- It is adopted. -/
  | under (state : State) (parent : String) (hfree : state.parent = none) :
      Changes state (state.under parent)

/-- The ways out are the ones that the state was made with, or the one into the start substate:
it is always open, and nothing happens on it. -/
structure Member.Intact (member : Member) : Prop where
  /-- The name is the one that the state was made with. -/
  name : member.state.name = member.name
  /-- A state that delegates has the way into its start substate, and no other. -/
  ways : member.state.transitions = match member.state.startSubstate with
    | some child => [.always ("Always " ++ member.name ++ "->" ++ child) child none]
    | none => member.ways

/-- What a state can become: its parent and its start substate stay once they are set. -/
structure Member.Becomes (member later : Member) : Prop where
  /-- It was made with the same name. -/
  name : later.name = member.name
  /-- It was made with the same ways out. -/
  ways : later.ways = member.ways
  /-- A parent stays. -/
  parent : ∀ parent, member.state.parent = some parent → later.state.parent = some parent
  /-- A start substate stays. -/
  start : ∀ child, member.state.startSubstate = some child →
    later.state.startSubstate = some child

namespace Member

variable {member later last : Member} {state : State}

/-- A state can stay what it is. -/
theorem Becomes.refl (member : Member) : member.Becomes member :=
  ⟨rfl, rfl, fun _ h => h, fun _ h => h⟩

/-- What a state becomes in two stages, it becomes. -/
theorem Becomes.trans (h : member.Becomes later) (hlater : later.Becomes last) :
    member.Becomes last where
  name := hlater.name.trans h.name
  ways := hlater.ways.trans h.ways
  parent parent hparent := hlater.parent parent (h.parent parent hparent)
  start child hchild := hlater.start child (h.start child hchild)

/-- A change sets no link that is set already, so it is something that the state can become. -/
theorem becomes_of_changes (h : member.state.Changes state) :
    member.Becomes { member with state := state } := by
  refine ⟨rfl, rfl, fun parent hparent => ?_, fun start hstart => ?_⟩
  · show state.parent = some parent
    -- A state that has a parent is not adopted again.
    generalize member.state = before at h hparent
    cases h with
    | same => exact hparent
    | adopting child isStart => rw [State.adopting_parent, hparent]
    | under other hfree =>
      rw [hfree] at hparent
      cases hparent
  · show state.startSubstate = some start
    -- A state that delegates adopts no second start substate.
    generalize member.state = before at h hstart
    cases h with
    | same => exact hstart
    | adopting child isStart hfree =>
      cases isStart with
      | false => exact hstart
      | true =>
        rw [(hfree rfl).1] at hstart
        cases hstart
    | under => exact hstart

/-- A state that was just made is intact. -/
theorem intact_made (name : String) (ways : List Transition) : (made name ways).Intact :=
  ⟨rfl, rfl⟩

/-- A state whose ways out are intact keeps them so. -/
theorem Intact.changes (hintact : member.Intact) (h : member.state.Changes state) :
    Intact { member with state := state } := by
  obtain ⟨name, ways, before⟩ := member
  obtain ⟨hname, hways⟩ := hintact
  cases h with
  | same => exact ⟨hname, hways⟩
  | adopting child isStart =>
    refine ⟨(State.adopting_name _ _ _).trans hname, ?_⟩
    cases isStart with
    | false => exact hways
    | true =>
      -- The way is named after the state as it is now, which is named as it was made.
      show [State.entry before.name child] = _
      rw [show before.name = name from hname]
      rfl
  | under => exact ⟨hname, hways⟩

end Member

namespace Roster

variable {roster : Roster} {member later : Member}

/-- When a state adopts another one, each state of the roster changes in one of the ways a state
can, and keeps its place. -/
theorem changes_put {above below : Member} {parent child : Nat} {isStart : Bool}
    {linked : State × State} (habove : roster[parent]? = some above)
    (hbelow : roster[child]? = some below)
    (hadopt : above.state.adopt below.state isStart = .ok linked) {index : Nat}
    (hindex : roster[index]? = some member) :
    ∃ state, member.state.Changes state
      ∧ (roster.put parent child linked)[index]? = some { member with state := state } := by
  obtain ⟨hfree, hstart, rfl⟩ := State.adopt_eq_ok_iff.1 hadopt
  rw [getElem?_put, hindex, Option.map_some]
  by_cases hchild : child = index
  · rw [← hchild, hbelow, Option.some.injEq] at hindex
    subst hindex
    exact ⟨_, .under _ above.state.name hfree, by rw [if_pos hchild]⟩
  · by_cases hparent : parent = index
    · rw [← hparent, habove, Option.some.injEq] at hindex
      subst hindex
      exact ⟨_, .adopting _ below.state.name isStart hstart, by rw [if_neg hchild, if_pos hparent]⟩
    · exact ⟨_, .same _, by rw [if_neg hchild, if_neg hparent]⟩

/-- A state stays in its place, and becomes what it can become. -/
theorem becomes_perform (roster : Roster) (call : Call) {index : Nat}
    (hindex : roster[index]? = some member) :
    ∃ later, (roster.perform call).1[index]? = some later ∧ member.Becomes later := by
  rcases roster.perform_cases call with ⟨extra, hafter, -⟩
    | ⟨parent, child, isStart, above, below, linked, habove, hbelow, hadopt, hafter⟩
  · have hlt : index < roster.length := (List.getElem?_eq_some_iff.1 hindex).1
    refine ⟨member, ?_, .refl member⟩
    rw [hafter, List.getElem?_append_left hlt, hindex]
  · obtain ⟨state, hchanges, hput⟩ := changes_put habove hbelow hadopt hindex
    exact ⟨_, by rw [hafter, hput], Member.becomes_of_changes hchanges⟩

/-- After any calls a state is still in its place, as something that it can become. The induction
is on the calls, as a failing one stops nothing. -/
theorem becomes_performAll (calls : List Call) {index : Nat}
    (hindex : roster[index]? = some member) :
    ∃ later, (roster.performAll calls)[index]? = some later ∧ member.Becomes later := by
  induction calls generalizing roster member with
  | nil => exact ⟨member, hindex, .refl member⟩
  | cons call rest ih =>
    obtain ⟨next, hnext, hbecomes⟩ := becomes_perform roster call hindex
    obtain ⟨later, hlater, hrest⟩ := ih hnext
    exact ⟨later, hlater, hbecomes.trans hrest⟩

/-- A call leaves all states intact. -/
theorem intact_perform (hroster : ∀ member ∈ roster, member.Intact) (call : Call) :
    ∀ member ∈ (roster.perform call).1, member.Intact := by
  intro later hlater
  rcases roster.perform_cases call with ⟨extra, hafter, hextra⟩
    | ⟨parent, child, isStart, above, below, linked, habove, hbelow, hadopt, hafter⟩
  · rw [hafter, List.mem_append] at hlater
    rcases hlater with hold | hnew
    · exact hroster later hold
    · rcases hextra later hnew with hold | ⟨name, ways, rfl⟩
      · exact hroster later hold
      · exact Member.intact_made name ways
  · rw [hafter] at hlater
    obtain ⟨index, hindex⟩ := List.mem_iff_getElem?.1 hlater
    -- The state has a place, and in this place there was a state before.
    obtain ⟨member, hmember⟩ : ∃ member, roster[index]? = some member := by
      rw [getElem?_put] at hindex
      obtain ⟨member, hmember, -⟩ := Option.map_eq_some_iff.1 hindex
      exact ⟨member, hmember⟩
    obtain ⟨state, hchanges, hput⟩ := changes_put habove hbelow hadopt hmember
    rw [hindex, Option.some.injEq] at hput
    rw [hput]
    exact (hroster member (List.mem_of_getElem? hmember)).changes hchanges

/-- Any calls leave all states intact. -/
theorem intact_performAll (hroster : ∀ member ∈ roster, member.Intact) (calls : List Call) :
    ∀ member ∈ roster.performAll calls, member.Intact := by
  induction calls generalizing roster with
  | nil => exact hroster
  | cons call rest ih => exact ih (intact_perform hroster call)

end Roster

/-! ### What the check comes to -/

/-- What the check of a state comes to if no start substate stands beside other ways out. -/
structure State.Checked (state : State) : Prop where
  /-- It never finds a start substate beside other ways out. -/
  undivided : ∀ owner, state.validate ≠ .error (.stateInvalid owner .customTransitions)
  /-- It accepts the state if there is a name, and the ways out have different names and
  targets. -/
  accepts : state.validate = .ok () ↔ state.name ≠ ""
    ∧ (∀ way ∈ state.transitions, way.name ≠ "" ∧ way.target ≠ "")
    ∧ (state.transitions.map (·.name)).Nodup

/-- The check of transitions alone never complains of a start substate beside them, whatever the
names that it has seen. -/
theorem State.validateTransitions_ne_customTransitions (owner other : String) (seen : List String)
    (ways : List Transition) :
    validateTransitions owner seen ways ≠ .error (.stateInvalid other .customTransitions) := by
  intro h
  induction ways generalizing seen with
  | nil => cases h
  | cons way rest ih =>
    rw [validateTransitions] at h
    rcases bind_eq_error.1 h with hway | ⟨_, -, hrest⟩
    · unfold Transition.validate at hway
      split at hway
      · cases hway
      · split at hway
        · cases hway
        · cases hway
    · split at hrest
      · cases hrest
      · exact ih _ hrest

/-- The check of an intact state is about names alone: a state that delegates has just the way into
its start substate, so the two cannot be at odds. -/
theorem Member.Intact.checked {member : Member} (h : member.Intact) : member.state.Checked := by
  have hdelegating : ∀ start, member.state.startSubstate = some start →
      ∃ only, member.state.transitions = [only] ∧ only.target = start := by
    intro start hstart
    have hways := h.ways
    rw [hstart] at hways
    exact ⟨_, hways, rfl⟩
  refine ⟨fun owner => ?_, ?_⟩
  · unfold State.validate
    split
    · simp
    · split
      · next start hstart =>
        obtain ⟨only, hways, htarget⟩ := hdelegating start hstart
        -- The branch that complains of other ways out is never taken.
        have hdelegates : State.delegates start member.state.transitions = true := by
          simp [hways, State.delegates, htarget]
        rw [if_pos hdelegates]
        exact State.validateTransitions_ne_customTransitions _ _ _ _
      · exact State.validateTransitions_ne_customTransitions _ _ _ _
  · rw [State.validate_eq_ok_iff]
    constructor
    · intro hsound
      exact ⟨hsound.named, hsound.ways, hsound.distinct⟩
    · rintro ⟨hnamed, hways, hdistinct⟩
      exact ⟨hnamed, hdelegating, hways, hdistinct⟩

/-! ### The law -/

namespace Roster

/-- Take the states that any calls lead to, whether they succeed or fail. Each state has the ways
out that it was made with, or delegates and has the way into its start substate alone; the check
never finds both, and asks only for names and targets. Whatever calls follow, a parent and a start
substate stay once they are set. An adoption that fails changes no state. -/
theorem representation_law (calls : List Call) :
    (∀ member ∈ performAll [] calls, member.Intact ∧ member.state.Checked)
      ∧ (∀ (more : List Call) (index : Nat) (member : Member),
          (performAll [] calls)[index]? = some member →
          ∃ later, (performAll [] (calls ++ more))[index]? = some later ∧ member.Becomes later)
      ∧ ∀ parent child isStart fault,
          ((performAll [] calls).perform (.adopt parent child isStart)).2 = .error fault →
          ((performAll [] calls).perform (.adopt parent child isStart)).1
            = performAll [] calls := by
  have hintact : ∀ member ∈ performAll [] calls, member.Intact :=
    intact_performAll (by simp) calls
  refine ⟨fun member hmem => ⟨hintact member hmem, (hintact member hmem).checked⟩, ?_, ?_⟩
  · intro more index member hindex
    rw [performAll, List.foldl_append]
    exact becomes_performAll more hindex
  · intro parent child isStart fault hfault
    exact perform_eq_self_of_error hfault

/-- A room that delegates to its bed, a lamp, and a clone of the room. -/
def furnishing : List Call :=
  [.make "room" [], .make "bed" [.always "rise" "room" none], .make "lamp" [], .adopt 0 1 true,
    .clone 0]

/-- The clone cannot delegate to the lamp as well, and whatever follows, its only way out is the
one to the bed. -/
theorem furnishing_represented :
    ((performAll [] furnishing).perform (.adopt 3 2 true)).1 = performAll [] furnishing
      ∧ ∀ more, ∃ later, (performAll [] (furnishing ++ more))[3]? = some later
          ∧ later.state.transitions = [.always "Always room->bed" "bed" none] := by
  obtain ⟨-, hstays, hfails⟩ := representation_law furnishing
  refine ⟨hfails 3 2 true (.stateInvalid "room" (.hasStart "bed")) rfl, fun more => ?_⟩
  obtain ⟨later, hlater, hbecomes⟩ := hstays more 3 _ rfl
  obtain ⟨hintact, -⟩ := (representation_law (furnishing ++ more)).1 later
    (List.mem_of_getElem? hlater)
  refine ⟨later, hlater, ?_⟩
  rw [hintact.ways, hbecomes.start "bed" rfl, hbecomes.name]
  rfl

end Roster

end Statechart
