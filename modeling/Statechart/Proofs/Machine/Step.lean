import Statechart.Machine.Advance
import Statechart.Proofs.Chart.Ancestry
import Statechart.Proofs.ScopeStack

/-!
# `Statechart.Proofs.Machine.Step`: the phases of a step

`Machine.advance` goes through several phases, and each of them can stop the machine. The
lemmas say when a phase lets the step go on.

* `askGuards_eq_ok_iff`: asking the guards succeeds if none of them fails, and gives the
  open transitions.
* `route_eq_ok_iff`: in a tree, a transition leads on exactly if its target or the parent
  of its target is on the lineage of its source. As many scopes stay as `keptPath` has
  states, and the scope of the root in any case.
* `leave_cases`: leaving a state stops the machine with its scopes as they were, at an
  `Obstacle`, or enters the target of the one open transition.
-/

set_option autoImplicit false

namespace Statechart

namespace Machine

variable {machine : Machine} {source : String} {state : State} {way : Transition}
  {path targetPath : List String}

/-! ### The status -/

/-- A machine is fatal exactly if it keeps a fault. -/
theorem status_eq_fatal_iff : machine.status = .fatal ↔ machine.fault.isSome := by
  unfold status
  split
  · next h => simp [h]
  · next h =>
    simp only [h]
    split
    · simp
    · split
      · simp
      · simp

/-- A machine that is not fatal keeps no fault. -/
theorem fault_eq_none (hstatus : machine.status ≠ .fatal) : machine.fault = none := by
  rw [Ne, status_eq_fatal_iff] at hstatus
  simpa using hstatus

/-- A machine that can take steps keeps no fault. -/
theorem fault_eq_none_of_active (hactive : machine.status = .idle ∨ machine.status = .running) :
    machine.fault = none := by
  refine fault_eq_none ?_
  rcases hactive with hstatus | hstatus
  · simp [hstatus]
  · simp [hstatus]

/-- A machine that is not fatal is idle exactly if no scope but one is open. -/
theorem status_eq_idle_iff (hfault : machine.fault = none) :
    machine.status = .idle ↔ machine.stack.depth ≤ 1 := by
  unfold status
  rw [hfault]
  simp only [Option.isSome_none, Bool.false_eq_true, if_false]
  split
  · next h => simp [h]
  · next h =>
    simp only [h, iff_false]
    split
    · simp
    · simp

/-- A running machine has left the root. -/
theorem one_lt_depth (hrunning : machine.status = .running) : 1 < machine.stack.depth := by
  have hfault := fault_eq_none_of_active (Or.inr hrunning)
  -- With the scope of the root alone it would be idle.
  have hidle : ¬ machine.stack.depth ≤ 1 := by
    rw [← status_eq_idle_iff hfault, hrunning]
    simp
  omega

/-- A running machine has a way out of its active state. -/
theorem exists_way_of_running (hrunning : machine.status = .running)
    (hcurrent : machine.current? = some state) : ∃ way, way ∈ state.transitions := by
  -- In a final state below the root it would be completed.
  have hunfinished : ¬ state.isFinal = true := by
    intro hfinal
    have hdepth := one_lt_depth hrunning
    have hfault := fault_eq_none_of_active (Or.inr hrunning)
    have hcompleted : machine.status = .completed := by
      simp [status, hfault, hcurrent, hfinal, show ¬ machine.stack.depth ≤ 1 by omega]
    rw [hrunning] at hcompleted
    cases hcompleted
  cases hways : state.transitions with
  | nil => simp [State.isFinal, hways] at hunfinished
  | cons way rest => exact ⟨way, List.mem_cons_self⟩

/-! ### The guards -/

/-- Whether a transition is open for the variables in view. -/
def opens (machine : Machine) (way : Transition) : Bool :=
  match (way.guard.check machine.stack.view).result with
  | .ok isOpen => isOpen
  | .error _ => false

/-- None of the guards of the transitions fails. -/
def Answered (machine : Machine) (transitions : List Transition) : Prop :=
  ∀ way ∈ transitions, ∃ isOpen, (way.guard.check machine.stack.view).result = .ok isOpen

/-- Asking the guards gives the open transitions, unless one of them fails. -/
theorem askGuards_eq_ok_iff (machine : Machine) (transitions opened : List Transition) :
    (machine.askGuards transitions).2 = .ok opened
      ↔ machine.Answered transitions ∧ opened = transitions.filter machine.opens := by
  -- A guard that fails hides the ones behind it, and then the whole question fails.
  induction transitions generalizing opened with
  | nil =>
    simp only [askGuards, Except.ok.injEq, Answered, List.not_mem_nil, false_implies,
      implies_true, List.filter_nil, true_and]
    exact eq_comm
  | cons way rest ih =>
    cases hanswer : (way.guard.check machine.stack.view).result with
    | error failure =>
      simp only [askGuards, hanswer, reduceCtorEq, false_iff, not_and]
      intro hanswered
      obtain ⟨isOpen, hopen⟩ := hanswered way (by simp)
      rw [hanswer] at hopen
      cases hopen
    -- An answer only decides whether this transition is put before the open ones behind it.
    | ok isOpen =>
      have hopens : machine.opens way = isOpen := by simp [opens, hanswer]
      have hstep : (machine.askGuards (way :: rest)).2
          = (machine.askGuards rest).2.map
              (fun others => if isOpen then way :: others else others) := by
        simp only [askGuards, hanswer]
      rw [hstep, map_eq_ok]
      constructor
      · rintro ⟨others, hothers, rfl⟩
        obtain ⟨hanswered, rfl⟩ := (ih others).1 hothers
        refine ⟨List.forall_mem_cons.2 ⟨⟨isOpen, hanswer⟩, hanswered⟩, ?_⟩
        rw [List.filter_cons, hopens]
      · rintro ⟨hanswered, rfl⟩
        obtain ⟨-, hrest⟩ := List.forall_mem_cons.1 hanswered
        refine ⟨_, (ih _).2 ⟨hrest, rfl⟩, ?_⟩
        rw [List.filter_cons, hopens]

/-- Asking the guards fails only if one of them does. -/
theorem exists_of_askGuards_eq_error {transitions : List Transition} {failure : Failure}
    (h : (machine.askGuards transitions).2 = .error failure) :
    ∃ way ∈ transitions, (way.guard.check machine.stack.view).result = .error failure := by
  induction transitions with
  | nil => cases h
  | cons way rest ih =>
    cases hanswer : (way.guard.check machine.stack.view).result with
    | error other =>
      simp only [askGuards, hanswer] at h
      cases h
      exact ⟨way, List.mem_cons_self, hanswer⟩
    | ok isOpen =>
      simp only [askGuards, hanswer] at h
      cases hrest : (machine.askGuards rest).2 with
      | error other =>
        rw [hrest] at h
        cases h
        obtain ⟨later, hlater, hfails⟩ := ih hrest
        exact ⟨later, List.mem_cons_of_mem way hlater, hfails⟩
      | ok opened =>
        rw [hrest] at h
        cases h

/-- Asking the guards calls nothing but guards. -/
theorem role_of_askGuards {transitions : List Transition} {call : Call}
    (h : call ∈ (machine.askGuards transitions).1) : call.role = .guard := by
  induction transitions with
  | nil => cases h
  | cons way rest ih =>
    cases hanswer : (way.guard.check machine.stack.view).result with
    | error failure =>
      simp only [askGuards, hanswer, List.mem_singleton] at h
      rw [h]
    | ok isOpen =>
      simp only [askGuards, hanswer, List.mem_cons] at h
      rcases h with hfirst | hrest
      · rw [hfirst]
      · exact ih hrest

/-- The one open transition is one of the transitions. -/
theorem mem_of_only {transitions : List Transition}
    (honly : transitions.filter machine.opens = [way]) : way ∈ transitions := by
  have hopen : way ∈ transitions.filter machine.opens := by simp [honly]
  exact (List.mem_filter.1 hopen).1

/-- A transition is chosen exactly if it is the only open one. -/
theorem choose_eq_ok_iff {opened : List Transition} :
    choose source opened = .ok way ↔ opened = [way] := by
  cases opened with
  | nil => simp [choose]
  | cons first rest =>
    cases rest with
    | nil => simp [choose]
    | cons => simp [choose]

/-- There is no choice if no transition is open, or more than one. -/
theorem choose_eq_error_cases {opened : List Transition} {fault : Fault}
    (h : choose source opened = .error fault) :
    (opened = [] ∧ fault = .runtime (.allClosed source))
      ∨ 1 < opened.length
        ∧ fault = .runtime (.severalOpen source (opened.map (·.name))) := by
  cases opened with
  | nil =>
    cases h
    exact Or.inl ⟨rfl, rfl⟩
  | cons first rest =>
    cases rest with
    | nil => cases h
    | cons second rest =>
      cases h
      refine Or.inr ⟨?_, rfl⟩
      simp only [List.length_cons]
      omega

/-! ### The way to the target -/

/-- The states whose scopes stay when a state is left for a target: the ones that the two
lineages share, but not the target itself. -/
def keptPath (path targetPath : List String) (target : String) : List String :=
  if target ∈ path then (Chart.sharedPath path targetPath).dropLast
  else Chart.sharedPath path targetPath

/-- The states whose scopes stay are the outer ones of the lineage. -/
theorem keptPath_begins (path targetPath : List String) (target : String) :
    keptPath path targetPath target <+: path := by
  have hshared := (Chart.sharedPath_longest path targetPath).inLeft
  unfold keptPath
  split
  · exact (List.dropLast_prefix _).trans hshared
  · exact hshared

/-- The state `target` is entered from a state with the lineage `path`: the target or its
parent is on that lineage. -/
def Near (path : List String) (target : State) : Prop :=
  target.name ∈ path ∨ ∃ parent, target.parent = some parent ∧ parent ∈ path

/-- Without a way to the target the run cannot go on. -/
theorem kind_of_route {chart : Chart} {fault : Fault}
    (h : route chart source way = .error fault) : fault.kind = .runtime := by
  unfold route at h
  split at h
  · cases h
    rfl
  · split at h
    · cases h
      rfl
    · split at h
      · cases h
      · cases h
        rfl

section Tree

variable {chart : Chart} {target : State} {kept : Nat}

/-- The kept states and the target make up the lineage of the target. -/
theorem keptPath_append (htree : chart.Tree) (hpath : chart.Lineage source path)
    (hget : chart.get? way.target = some target)
    (htarget : chart.Lineage way.target targetPath) (hnear : Near path target) :
    keptPath path targetPath way.target ++ [way.target] = targetPath := by
  have hname : target.name = way.target := htree.named _ _ hget
  unfold Near at hnear
  rw [hname] at hnear
  exact Chart.Tree.shared_append_eq hpath htarget ((htree.near_iff hpath htarget hget).2 hnear)

/-- If a target is at most one step below what is shared, as many scopes stay as there are
kept states, and the scope of the root in any case. -/
theorem scopesKept_eq {name ancestor : String} (hpath : chart.Lineage source path)
    (htarget : chart.Lineage name targetPath)
    (hlength : targetPath.length ≤ (Chart.sharedPath path targetPath).length + 1)
    (hpositive : 0 < (Chart.sharedPath path targetPath).length) :
    scopesKept ⟨ancestor, (Chart.sharedPath path targetPath).length - 1, path.length - 1,
        targetPath.length - 1⟩
      = max 1 (keptPath path targetPath name).length := by
  have hlonger := (Chart.sharedPath_longest path targetPath).inRight.length_le
  have happend := congrArg List.length (Chart.Tree.shared_append_eq hpath htarget hlength)
  unfold keptPath scopesKept CommonAncestor.descent
  split at happend <;>
    simp only [List.length_append, List.length_singleton, List.length_dropLast] at happend
  · -- The target is shared itself, so the way down has no step.
    next hmem =>
    rw [if_pos hmem, if_neg (by simp only; omega), List.length_dropLast]
  · next hmem =>
    rw [if_neg hmem, if_pos (by simp only; omega)]
    simp only
    omega

/-- The way to a target that is there leads on unless it goes too deep. -/
theorem route_eq (htree : chart.Tree) (hpath : chart.Lineage source path)
    (hget : chart.get? way.target = some target)
    (htarget : chart.Lineage way.target targetPath) :
    route chart source way
      = if targetPath.length ≤ (Chart.sharedPath path targetPath).length + 1 then
          .ok (target, max 1 (keptPath path targetPath way.target).length)
        else .error (.runtime (.tooDeep source target.name)) := by
  have hname : target.name = way.target := htree.named _ _ hget
  have hpositive : 0 < (Chart.sharedPath path targetPath).length :=
    List.length_pos_iff.2 (htree.sharedPath_ne_nil hpath htarget)
  -- The number of steps down, in terms of the lengths of the paths.
  have hdescent : targetPath.length - 1 - ((Chart.sharedPath path targetPath).length - 1) ≤ 1
      ↔ targetPath.length ≤ (Chart.sharedPath path targetPath).length + 1 := by omega
  unfold route
  rw [hget]
  simp only
  rw [hname, htree.commonAncestor?_eq hpath htarget]
  simp only [CommonAncestor.descent, hdescent]
  split
  · next hlength => rw [scopesKept_eq hpath htarget hlength hpositive]
  · rfl

/-- A transition to a state that is there leads on, or it leads down too deep. -/
theorem route_eq_error (htree : chart.Tree) (hpath : chart.Lineage source path)
    (hget : chart.get? way.target = some target) {fault : Fault}
    (h : route chart source way = .error fault) :
    ¬ Near path target ∧ fault = .runtime (.tooDeep source target.name) := by
  obtain ⟨targetPath, htarget⟩ := htree.rooted _ _ hget
  have hnear := htree.near_iff hpath htarget hget
  rw [← htree.named _ _ hget] at hnear
  rw [route_eq htree hpath hget htarget] at h
  split at h
  · cases h
  · next hlength =>
    cases h
    exact ⟨fun hclose => hlength (hnear.2 hclose), rfl⟩

/-- A transition leads on exactly if its target is there and near. -/
theorem route_eq_ok_iff (htree : chart.Tree) (hpath : chart.Lineage source path) :
    route chart source way = .ok (target, kept)
      ↔ chart.get? way.target = some target ∧ Near path target
        ∧ ∃ targetPath, chart.Lineage way.target targetPath
          ∧ kept = max 1 (keptPath path targetPath way.target).length := by
  cases hget : chart.get? way.target with
  | none => simp [route, hget]
  | some next =>
    obtain ⟨targetPath, htarget⟩ := htree.rooted _ _ hget
    have hnear := htree.near_iff hpath htarget hget
    rw [← htree.named _ _ hget] at hnear
    rw [route_eq htree hpath hget htarget]
    constructor
    · intro h
      split at h
      · next hlength =>
        cases h
        exact ⟨rfl, hnear.1 hlength, targetPath, htarget, rfl⟩
      · cases h
    · rintro ⟨hsame, hclose, other, hother, hkept⟩
      cases hsame
      rw [if_pos (hnear.2 hclose), hkept, htarget.unique hother]

end Tree

/-! ### The phases -/

/-- What keeps the machine from leaving a state by one of its transitions. -/
inductive Obstacle (machine : Machine) (source : String) (transitions : List Transition) :
    Fault → Prop where
  /-- A guard fails. -/
  | guard {way : Transition} {failure : Failure} (hway : way ∈ transitions)
      (hfails : (way.guard.check machine.stack.view).result = .error failure) :
      Obstacle machine source transitions (.callbackFailed .guard failure)
  /-- No transition is open. -/
  | closed (hanswered : machine.Answered transitions)
      (hnone : transitions.filter machine.opens = []) :
      Obstacle machine source transitions (.runtime (.allClosed source))
  /-- More than one transition is open. -/
  | several (hanswered : machine.Answered transitions)
      (hseveral : 1 < (transitions.filter machine.opens).length) :
      Obstacle machine source transitions
        (.runtime (.severalOpen source ((transitions.filter machine.opens).map (·.name))))
  /-- The one open transition does not lead on. -/
  | astray {way : Transition} {fault : Fault} (hanswered : machine.Answered transitions)
      (honly : transitions.filter machine.opens = [way])
      (hroute : route machine.chart source way = .error fault) :
      Obstacle machine source transitions fault

/-- An obstacle is a callback that failed or a fault of the run. -/
theorem Obstacle.kind {transitions : List Transition} {fault : Fault}
    (h : machine.Obstacle source transitions fault) :
    fault.kind = .callbackFailed ∨ fault.kind = .runtime := by
  cases h with
  | guard => exact Or.inl rfl
  | closed => exact Or.inr rfl
  | several => exact Or.inr rfl
  | astray _ _ hroute => exact Or.inr (kind_of_route hroute)

/-- If a guard fails, then that is the obstacle, however many transitions are open. -/
theorem Obstacle.kind_eq_callbackFailed_iff {transitions : List Transition} {fault : Fault}
    (h : machine.Obstacle source transitions fault) :
    fault.kind = .callbackFailed ↔ ¬ machine.Answered transitions := by
  cases h with
  | guard hway hfails =>
    refine ⟨fun _ hanswered => ?_, fun _ => rfl⟩
    obtain ⟨isOpen, hopen⟩ := hanswered _ hway
    rw [hfails] at hopen
    cases hopen
  | closed hanswered => simp [Fault.kind, hanswered]
  | several hanswered => simp [Fault.kind, hanswered]
  | astray hanswered _ hroute => simp [kind_of_route hroute, hanswered]

/-- Leaving a state stops the machine at an obstacle, or it enters the target of the one open
transition. Up to then only guards are called. -/
theorem leave_cases (machine : Machine) (source : String) (transitions : List Transition) :
    (∃ fault, machine.Obstacle source transitions fault
        ∧ machine.leave source transitions
          = machine.fail (machine.askGuards transitions).1 fault)
      ∨ ∃ way target kept, machine.Answered transitions
          ∧ transitions.filter machine.opens = [way]
          ∧ route machine.chart source way = .ok (target, kept)
          ∧ machine.leave source transitions
            = machine.enter (machine.askGuards transitions).1 source way target kept := by
  -- Three phases can fail, each before a scope is closed.
  cases hasked : (machine.askGuards transitions).2 with
  | error failure =>
    obtain ⟨way, hway, hfails⟩ := exists_of_askGuards_eq_error hasked
    refine Or.inl ⟨.callbackFailed .guard failure, .guard hway hfails, ?_⟩
    simp only [leave, hasked]
  | ok opened =>
    obtain ⟨hanswered, rfl⟩ := (askGuards_eq_ok_iff _ _ _).1 hasked
    cases hchosen : choose source (transitions.filter machine.opens) with
    | error fault =>
      have hobstacle : machine.Obstacle source transitions fault := by
        rcases choose_eq_error_cases hchosen with ⟨hnone, hfault⟩ | ⟨hseveral, hfault⟩
        · rw [hfault]
          exact .closed hanswered hnone
        · rw [hfault]
          exact .several hanswered hseveral
      refine Or.inl ⟨fault, hobstacle, ?_⟩
      simp only [leave, hasked, hchosen]
    | ok way =>
      have honly : transitions.filter machine.opens = [way] := choose_eq_ok_iff.1 hchosen
      cases hroute : route machine.chart source way with
      | error fault =>
        refine Or.inl ⟨fault, .astray hanswered honly hroute, ?_⟩
        simp only [leave, hasked, hchosen, hroute]
      | ok next =>
        obtain ⟨target, kept⟩ := next
        refine Or.inr ⟨way, target, kept, hanswered, honly, hroute, ?_⟩
        simp only [leave, hasked, hchosen, hroute]

/-- With one open transition that leads on, leaving a state enters its target. -/
theorem leave_eq_enter {transitions : List Transition} {target : State} {kept : Nat}
    (hanswered : machine.Answered transitions)
    (honly : transitions.filter machine.opens = [way])
    (hroute : route machine.chart source way = .ok (target, kept)) :
    machine.leave source transitions
      = machine.enter (machine.askGuards transitions).1 source way target kept := by
  have hasked := (askGuards_eq_ok_iff machine transitions _).2 ⟨hanswered, rfl⟩
  have hchosen : choose source (transitions.filter machine.opens) = .ok way :=
    choose_eq_ok_iff.2 honly
  simp only [leave, hasked, hchosen, hroute]

end Machine

end Statechart
