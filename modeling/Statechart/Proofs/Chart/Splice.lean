import Statechart.Proofs.Chart.Growth

/-!
# `Statechart.Proofs.Chart.Splice`: hierarchies that are put in place as they are

A spliced state keeps its links; only one without parent goes below the root
(`State.settled`). So appending a hierarchy to a new chart gives a chart with the settled
states, the start state and the root, provided that no name is taken (`append_eq_ok_iff`).
-/

set_option autoImplicit false

namespace Statechart

/-- A state below its parent, or below the root if it has none. -/
def State.settled (state : State) : State :=
  { state with parent := some (state.parent.getD rootName) }

namespace Chart

variable {chart chart' : Chart} {name : String} {state root start : State}
  {states : Dict State}

/-- Charts that look up the same states are equal. -/
theorem ext_get? (h : ∀ name, chart.get? name = chart'.get? name) : chart = chart' := by
  obtain ⟨table⟩ := chart
  obtain ⟨table'⟩ := chart'
  exact congrArg Chart.mk (Dict.ext_get? h)

/-- A state with a new name is spliced, settled, and nothing else changes. -/
theorem exists_splice (state : State) (hroot : chart.get? rootName = some root)
    (hname : root.name = rootName) (hnew : chart.get? name = none) :
    ∃ after, chart.splice name state = .ok after
      ∧ ∀ other, after.get? other
        = if other = name then some state.settled else chart.get? other := by
  unfold splice
  rw [if_neg (by simp [hnew])]
  cases hparent : state.parent with
  | some parent =>
    refine ⟨_, if_pos rfl, fun other => ?_⟩
    have hsettled : state.settled = state := by
      simp only [State.settled, hparent, Option.getD_some]
      rw [← hparent]
    rw [hsettled]
    exact Dict.get?_insert _ _ _ _
  | none =>
    -- The root adopts the state, but as a plain substate, so it stays as it is.
    have hroot' : chart.root? = some root := hroot
    have hadopt : root.adopt state false = .ok (root, state.under root.name) :=
      State.adopt_eq_ok_iff.2 ⟨hparent, by simp, rfl⟩
    have hsettled : state.under root.name = state.settled := by
      simp [State.under, State.settled, hparent, hname]
    refine ⟨⟨(chart.states.insert rootName root).insert name (state.under root.name)⟩, ?_,
      fun other => ?_⟩
    · simp only [Option.isSome_none, Bool.false_eq_true, if_false, hroot']
      rw [hadopt]
      rfl
    · rw [hsettled]
      show ((chart.states.insert rootName root).insert name state.settled).get? other = _
      rw [Dict.get?_insert, Dict.get?_insert]
      split
      · rfl
      · split
        · next heq => rw [heq, hroot]
        · rfl

/-- A state is spliced exactly if its name is new. -/
theorem splice_eq_ok_iff (hroot : chart.get? rootName = some root)
    (hname : root.name = rootName) :
    chart.splice name state = .ok chart'
      ↔ chart.get? name = none
        ∧ ∀ other, chart'.get? other
          = if other = name then some state.settled else chart.get? other := by
  by_cases hnew : chart.get? name = none
  · obtain ⟨after, hafter, hlookup⟩ := exists_splice state hroot hname hnew
    rw [hafter, Except.ok.injEq]
    constructor
    · intro hsame
      subst hsame
      exact ⟨hnew, hlookup⟩
    · intro h
      exact ext_get? fun other => (hlookup other).trans (h.2 other).symm
  · have hsome : (chart.get? name).isSome := Option.isSome_iff_ne_none.2 hnew
    simp [splice, hnew, hsome]

/-- What is looked up after a first state is spliced and before the rest is. -/
theorem lookup_spliced {key : String} {rest : List (String × State)}
    (hfresh : key ∉ rest.map (·.1))
    (hmid : ∀ other, chart'.get? other
      = if other = key then some state.settled else chart.get? other) (other : String) :
    ((rest.lookup other).map State.settled).or (chart'.get? other)
      = ((((key, state) :: rest).lookup other).map State.settled).or (chart.get? other) := by
  rw [hmid other, List.lookup_cons]
  by_cases heq : other = key
  · subst heq
    have hnone : rest.lookup other = none := by
      refine List.lookup_eq_none_iff.2 fun entry hentry => ?_
      have hne : entry.1 ≠ other := fun hsame =>
        hfresh (List.mem_map.2 ⟨entry, hentry, hsame⟩)
      simpa using hne.symm
    simp [hnone]
  · have hbeq : (other == key) = false := by simpa using heq
    simp [hbeq, heq]

/-- States are spliced one after the other exactly if all their names are new. -/
theorem foldlM_splice_eq_ok_iff {entries : List (String × State)}
    (hnodup : (entries.map (·.1)).Nodup) (hroot : chart.get? rootName = some root)
    (hname : root.name = rootName) :
    entries.foldlM (fun chart entry => chart.splice entry.1 entry.2) chart = .ok chart'
      ↔ (∀ entry ∈ entries, chart.get? entry.1 = none)
        ∧ ∀ other, chart'.get? other
          = ((entries.lookup other).map State.settled).or (chart.get? other) := by
  -- The table grows while the list is worked off, and the root stays in it.
  induction entries generalizing chart with
  | nil =>
    simp only [List.foldlM_nil, pure, Except.pure, Except.ok.injEq, List.not_mem_nil,
      false_implies, implies_true, List.lookup_nil, Option.map_none, Option.none_or, true_and]
    exact ⟨fun h => by simp [h], fun h => ext_get? fun other => (h other).symm⟩
  | cons entry rest ih =>
    obtain ⟨key, state⟩ := entry
    obtain ⟨hfresh, hrest⟩ := List.nodup_cons.1 hnodup
    have hapart : ∀ entry ∈ rest, entry.1 ≠ key := fun entry hentry heq =>
      hfresh (List.mem_map.2 ⟨entry, hentry, heq⟩)
    have hroot' : ∀ mid : Chart, chart.get? key = none →
        (∀ other, mid.get? other = if other = key then some state.settled else chart.get? other) →
        mid.get? rootName = some root := by
      intro mid hkey hmid
      rw [hmid, if_neg, hroot]
      intro heq
      rw [← heq, hroot] at hkey
      cases hkey
    rw [List.foldlM_cons, bind_eq_ok]
    simp only [splice_eq_ok_iff hroot hname, List.forall_mem_cons]
    constructor
    · rintro ⟨mid, ⟨hkey, hmid⟩, hfold⟩
      obtain ⟨hall, hout⟩ := (ih hrest (hroot' mid hkey hmid)).1 hfold
      refine ⟨⟨hkey, fun entry hentry => ?_⟩, fun other => ?_⟩
      · have hnone := hall entry hentry
        rwa [hmid, if_neg (hapart entry hentry)] at hnone
      · rw [hout other, lookup_spliced hfresh hmid other]
    · rintro ⟨⟨hkey, hall⟩, hout⟩
      obtain ⟨mid, -, hmid⟩ := exists_splice state hroot hname hkey
      refine ⟨mid, ⟨hkey, hmid⟩,
        (ih hrest (hroot' mid hkey hmid)).2 ⟨fun entry hentry => ?_, fun other => ?_⟩⟩
      · rw [hmid, if_neg (hapart entry hentry), hall entry hentry]
      · rw [hout other, lookup_spliced hfresh hmid other]

/-! ### Appending to a new chart -/

/-- The chart with nothing but a root and its start state. -/
def planted (start : State) : Chart :=
  new.adding (State.new rootName []) start true

/-- A chart with nothing but a start state has two names: that of the state and that of the root,
which delegates to it. -/
theorem get?_planted (start : State) (name : String) :
    (planted start).get? name
      = if name = start.name then some (start.under rootName)
        else if name = rootName then some ((State.new rootName []).adopting start.name true)
        else none := by
  rw [planted, get?_adding, get?_new]
  simp only [State.new]
  split
  · rfl
  · split
    · rfl
    · rfl

/-- A start state can be added to a new chart if it is well formed, has no parent, and does
not have the name of the root. -/
theorem addStart_new_eq_ok_iff :
    Chart.new.addStart start none = .ok chart
      ↔ start.Sound ∧ start.name ≠ rootName ∧ start.parent = none ∧ chart = planted start := by
  have hnew : Chart.new.get? start.name = none ↔ start.name ≠ rootName := by
    rw [get?_new]
    split
    · next heq => simp [heq]
    · next hne => simp [hne]
  have habove : Chart.new.get? ((none : Option String).getD rootName)
      = some (State.new rootName []) := by
    rw [Option.getD_none, get?_new, if_pos rfl]
  unfold addStart
  rw [add_eq_ok_iff tree_new.named, hnew]
  constructor
  · rintro ⟨hsound, hne, hfree, above, habove', -, hchart⟩
    rw [habove, Option.some.injEq] at habove'
    subst habove'
    exact ⟨hsound, hne, hfree, hchart⟩
  · rintro ⟨hsound, hne, hfree, hchart⟩
    exact ⟨hsound, hne, hfree, _, habove, fun _ => ⟨rfl, rfl⟩, hchart⟩

/-- A hierarchy is appended to a new chart exactly if its start state can be added and the
names of the other states are new. -/
theorem append_eq_ok_iff :
    Chart.new.append start states = .ok chart
      ↔ start.Sound ∧ start.name ≠ rootName ∧ start.parent = none
        ∧ (∀ name, (states.get? name).isSome → name ≠ rootName ∧ name ≠ start.name)
        ∧ ∀ name, chart.get? name
          = ((states.get? name).map State.settled).or ((planted start).get? name) := by
  have hfold (hne : start.name ≠ rootName) :
      states.entries.foldlM (fun chart entry => chart.splice entry.1 entry.2) (planted start)
          = .ok chart
        ↔ (∀ name, (states.get? name).isSome → name ≠ rootName ∧ name ≠ start.name)
          ∧ ∀ name, chart.get? name
            = ((states.get? name).map State.settled).or ((planted start).get? name) := by
    have hroot : (planted start).get? rootName
        = some ((State.new rootName []).adopting start.name true) := by
      rw [get?_planted, if_neg hne.symm, if_pos rfl]
    rw [foldlM_splice_eq_ok_iff states.nodup_keys hroot rfl]
    refine and_congr_left fun _ => ?_
    constructor
    · intro h name hname
      obtain ⟨state, hget⟩ := Option.isSome_iff_exists.1 hname
      have hnone := h (name, state) ((Dict.mem_entries _ _ _).2 hget)
      rw [get?_planted] at hnone
      refine ⟨fun heq => ?_, fun heq => ?_⟩
      · simp [heq, hne.symm] at hnone
      · simp [heq] at hnone
    · intro h entry hentry
      have hget := (Dict.mem_entries _ _ _).1 hentry
      obtain ⟨hroot, hstart⟩ := h entry.1 (by simp [hget])
      rw [get?_planted, if_neg hstart, if_neg hroot]
  have hroot : Chart.new.root? = some (State.new rootName []) := by
    show Chart.new.get? rootName = _
    rw [get?_new, if_pos rfl]
  unfold append
  rw [hroot]
  simp only [bind_eq_ok, addStart_new_eq_ok_iff]
  constructor
  · rintro ⟨mid, ⟨hsound, hne, hfree, hmid⟩, hrest⟩
    subst hmid
    exact ⟨hsound, hne, hfree, (hfold hne).1 hrest⟩
  · rintro ⟨hsound, hne, hfree, hrest⟩
    exact ⟨_, ⟨hsound, hne, hfree, rfl⟩, (hfold hne).2 hrest⟩

end Chart

end Statechart
