import Mathlib.Algebra.GroupWithZero.Nat
import Mathlib.Algebra.Order.BigOperators.Group.List
import Mathlib.Algebra.Order.Group.Nat
import Mathlib.Logic.Function.Iterate
import Statechart.Dict.Lemmas
import Statechart.Fault.Message
import Statechart.Proofs.Blueprint.Order

/-!
# `Statechart.Proofs.Blueprint.Walk`: the walk with a stack of its own

`dependencyOrder` visits the dependencies of a name by calling itself. This file has the same
walk as a loop. A `Walk` marks each name as unvisited, visiting or visited, and keeps the names
that wait for their dependencies on a stack, each with a cursor into these. A step of the loop
(`Walk.step`) looks at one dependency, finishes one name, or starts from another name. It ends
with an order, or with the part of the stack that closes a cycle.

* `Walk.weight_step`: each step lowers the weight of a walk, which counts the names to start
  from, the dependencies that the cursors have not passed, and those of unvisited names. So the
  walk ends, and the number of its steps is bounded by the size of the map.
* `Walk.Consistent` ties marks, stack and order together, and `Walk.answers_look` carries it
  along a visit: where the recursion gives an order, the loop comes back to the same stack with
  that order, and where it fails, the loop ends with the same fault.
* `Walk.leads_dependencyOrder`: so the loop ends with what `dependencyOrder` gives.

`dependencyOrder_law` adds what is known of orders and cycles.
-/

set_option autoImplicit false

namespace Statechart

/-- What the walk knows of a name. -/
inductive Mark where
  /-- The walk has not come to it. -/
  | unvisited
  /-- It waits for its dependencies. -/
  | visiting
  /-- It is done. -/
  | visited
  deriving DecidableEq

/-- A name that waits for its dependencies. -/
structure Waiting where
  /-- The name. -/
  name : String
  /-- The number of dependencies that it has passed. -/
  cursor : Nat

/-- A walk on its way. -/
structure Walk where
  /-- The marks of the names of the map. -/
  marks : Dict Mark
  /-- The names that the walk has not tried to start from. -/
  roots : List String
  /-- The names that wait, the last one first. -/
  waiting : List Waiting
  /-- The names that are done. -/
  order : List String

namespace Walk

/-- A walk on its way, or at its end with what comes of it. -/
abbrev Stage := Walk ⊕ Except LoadFault (List String)

/-- The walk at its beginning. -/
def start (map : Dependencies) : Walk :=
  ⟨map.mapWithKey fun _ _ => .unvisited, map.keys, [], []⟩

/-- The names that wait, the first one first. -/
def path (walk : Walk) : List String :=
  (walk.waiting.map (·.name)).reverse

/-- Comes to a name, which waits then. -/
def enter (walk : Walk) (name : String) : Walk :=
  { walk with
      marks := walk.marks.insert name .visiting
      waiting := ⟨name, 0⟩ :: walk.waiting }

/-- The cycle from a waiting name back to it. -/
def close (walk : Walk) (name : String) : LoadFault :=
  .cycle (walk.path.drop ((walk.path.findIdx? (· = name)).getD 0) ++ [name])

/-- Looks at a dependency. One that has no mark is no name of the map, and nothing is done. -/
def look (walk : Walk) (needed : String) : Stage :=
  match (walk.marks.get? needed).getD .visited with
  | .visited => .inl walk
  | .visiting => .inr (.error (walk.close needed))
  | .unvisited => .inl (walk.enter needed)

/-- One step. The last waiting name looks at its next dependency or is done, and if no name
waits, the walk starts from the next one. -/
def step (map : Dependencies) (walk : Walk) : Stage :=
  match walk.waiting with
  | [] =>
    match walk.roots with
    | [] => .inr (.ok walk.order)
    | root :: roots =>
      let walk := { walk with roots := roots }
      if walk.marks.get? root = some .unvisited then .inl (walk.enter root) else .inl walk
  | ⟨name, cursor⟩ :: outer =>
    match (map.get? name).bind (·[cursor]?) with
    | none => .inl { walk with
        marks := walk.marks.insert name .visited
        waiting := outer
        order := walk.order ++ [name] }
    | some needed => look { walk with waiting := ⟨name, cursor + 1⟩ :: outer } needed

/-- One step, if the walk is still on its way. -/
def next (map : Dependencies) : Stage → Stage
  | .inl walk => walk.step map
  | .inr result => .inr result

variable {map : Dependencies} {walk after : Walk} {marks : Dict Mark}
  {roots order names front dependencies : List String} {waiting outer : List Waiting}
  {name needed : String} {bound steps cursor : Nat} {stage middle last : Stage}
  {result : Except LoadFault (List String)} {fault : LoadFault}

/-! ### The walk ends -/

/-- What an unvisited name can still cost: a step for each of its dependencies, and one to be
done. -/
def cost (marks : Dict Mark) (entry : String × List String) : Nat :=
  if marks.get? entry.1 = some .unvisited then entry.2.length + 1 else 0

/-- What the unvisited names of a map can still cost. -/
def owed (map : Dependencies) (marks : Dict Mark) : Nat :=
  (map.entries.map (cost marks)).sum

/-- The steps that a waiting name can still cost: one for each dependency that its cursor has not
passed, and one to be done. -/
def left (map : Dependencies) (waiting : Waiting) : Nat :=
  ((map.get? waiting.name).getD []).length - waiting.cursor + 1

/-- No walk goes on for more steps than this. -/
def weight (map : Dependencies) (walk : Walk) : Nat :=
  walk.roots.length + (walk.waiting.map (left map)).sum + owed map walk.marks

/-- A name that the walk comes to costs nothing more by itself, and the others cost the same. -/
theorem cost_insert_le {mark : Mark} (hmark : mark ≠ .unvisited) (marks : Dict Mark)
    (name : String) (entry : String × List String) :
    cost (marks.insert name mark) entry ≤ cost marks entry := by
  unfold cost
  rw [Dict.get?_insert]
  by_cases hname : entry.1 = name
  · simp [hname, hmark]
  · simp [hname]

/-- No list of entries costs more once a name is marked as visiting or visited. -/
theorem sum_cost_insert_le {mark : Mark} (hmark : mark ≠ .unvisited) (marks : Dict Mark)
    (name : String) (entries : List (String × List String)) :
    (entries.map (cost (marks.insert name mark))).sum ≤ (entries.map (cost marks)).sum :=
  List.sum_le_sum fun entry _ => cost_insert_le hmark marks name entry

/-- Coming to an unvisited name settles what it owes. -/
theorem owed_insert_visiting (hget : map.get? name = some dependencies)
    (hmark : marks.get? name = some .unvisited) :
    owed map (marks.insert name .visiting) + (dependencies.length + 1) ≤ owed map marks := by
  -- The name itself owes nothing any more, and the names on both sides of it no more than before.
  obtain ⟨before, rest, hsplit⟩ := List.append_of_mem ((map.mem_entries _ _).2 hget)
  have hvisiting : Mark.visiting ≠ .unvisited := by simp
  have hbefore := sum_cost_insert_le hvisiting marks name before
  have hrest := sum_cost_insert_le hvisiting marks name rest
  have hpaid : cost (marks.insert name .visiting) (name, dependencies) = 0 := by simp [cost]
  have hcost : cost marks (name, dependencies) = dependencies.length + 1 := by
    simp [cost, hmark]
  unfold owed
  rw [hsplit]
  simp only [List.map_append, List.map_cons, List.sum_append, List.sum_cons, hpaid, hcost]
  omega

/-- Only names of the map are marked as unvisited. -/
def Marked (map : Dependencies) (marks : Dict Mark) : Prop :=
  ∀ name, marks.get? name = some .unvisited → (map.get? name).isSome

/-- Other marks are no matter. -/
theorem Marked.insert (h : Marked map marks) {mark : Mark} (hmark : mark ≠ .unvisited)
    (name : String) : Marked map (marks.insert name mark) := by
  intro other hother
  rw [Dict.get?_insert] at hother
  split at hother
  · cases hother
    exact absurd rfl hmark
  · exact h other hother

/-- Coming to an unvisited name moves what it owes to the stack. -/
theorem weight_enter (walk : Walk) (h : Marked map walk.marks)
    (hmark : walk.marks.get? name = some .unvisited) :
    weight map (walk.enter name) ≤ weight map walk := by
  obtain ⟨dependencies, hget⟩ := Option.isSome_iff_exists.1 (h name hmark)
  have howed := owed_insert_visiting hget hmark
  simp only [weight, enter, List.map_cons, List.sum_cons, left, hget, Option.getD_some]
  omega

/-- Looking at a dependency does not make a walk heavier. -/
theorem weight_look (hlook : walk.look needed = .inl after) (h : Marked map walk.marks) :
    weight map after ≤ weight map walk ∧ Marked map after.marks := by
  unfold look at hlook
  split at hlook
  · cases hlook
    exact ⟨Nat.le_refl _, h⟩
  · cases hlook
  · next hmark =>
    cases hlook
    have hunvisited : walk.marks.get? needed = some .unvisited := by
      cases hget : walk.marks.get? needed with
      | none => simp [hget] at hmark
      | some mark => simpa [hget] using hmark
    exact ⟨weight_enter walk h hunvisited, h.insert (by simp) needed⟩

/-- Each step makes a walk lighter. -/
theorem weight_step (h : Marked map walk.marks) (hstep : walk.step map = .inl after) :
    weight map after < weight map walk ∧ Marked map after.marks := by
  obtain ⟨marks, roots, waiting, order⟩ := walk
  cases waiting with
  | nil =>
    cases roots with
    | nil => cases hstep
    | cons root roots =>
      -- The root itself costs a step, whether the walk starts from it or not.
      have hlighter : weight map ⟨marks, roots, [], order⟩
          < weight map ⟨marks, root :: roots, [], order⟩ := by
        simp [weight]
      simp only [step] at hstep
      split at hstep
      · next hmark =>
        cases hstep
        have henter := weight_enter ⟨marks, roots, [], order⟩ h hmark
        exact ⟨by omega, h.insert (by simp) root⟩
      · cases hstep
        exact ⟨hlighter, h⟩
  | cons head outer =>
    obtain ⟨name, cursor⟩ := head
    simp only [step] at hstep
    split at hstep
    · -- The name is done. Its mark was paid for when the walk came to it.
      cases hstep
      have howed : owed map (marks.insert name .visited) ≤ owed map marks :=
        sum_cost_insert_le (by simp) marks name map.entries
      refine ⟨?_, h.insert (by simp) name⟩
      simp only [weight, List.map_cons, List.sum_cons, left]
      omega
    · next needed hneeded =>
      -- There is such a dependency, so the cursor was not at its end.
      obtain ⟨dependencies, hget, hcursor⟩ := Option.bind_eq_some_iff.1 hneeded
      obtain ⟨hlt, -⟩ := List.getElem?_eq_some_iff.1 hcursor
      obtain ⟨hle, hmarked⟩ := weight_look hstep h
      refine ⟨Nat.lt_of_le_of_lt hle ?_, hmarked⟩
      simp only [weight, List.map_cons, List.sum_cons, left, hget, Option.getD_some]
      omega

/-- A walk that has ended stays so. -/
theorem iterate_next_inr (steps : Nat) : (next map)^[steps] (.inr result) = .inr result :=
  Function.iterate_fixed rfl steps

/-- A walk ends within as many steps as it has weight, and one more. -/
theorem exists_iterate_next (h : Marked map walk.marks) (hsteps : weight map walk < steps) :
    ∃ result, (next map)^[steps] (.inl walk) = .inr result := by
  induction steps generalizing walk with
  | zero => omega
  | succ steps ih =>
    rw [Function.iterate_succ_apply]
    show ∃ result, (next map)^[steps] (walk.step map) = .inr result
    cases hstep : walk.step map with
    | inr result => exact ⟨result, iterate_next_inr steps⟩
    | inl after =>
      obtain ⟨hlighter, hmarked⟩ := weight_step h hstep
      exact ih hmarked (by omega)

/-- At its beginning a walk has marked the names of the map and no others. -/
theorem marked_start (map : Dependencies) : Marked map (start map).marks := by
  intro name hmark
  rw [start, Dict.get?_mapWithKey] at hmark
  cases hget : map.get? name with
  | none => simp [hget] at hmark
  | some => rfl

/-- At its beginning a walk can cost two steps for each name and one for each dependency. -/
theorem weight_start (map : Dependencies) :
    weight map (start map) = (map.entries.map fun entry => entry.2.length + 2).sum := by
  have hcost : ∀ entry ∈ map.entries, cost (start map).marks entry = entry.2.length + 1 := by
    intro entry hentry
    have hget := (map.mem_entries entry.1 entry.2).1 hentry
    simp [cost, start, Dict.get?_mapWithKey, hget]
  have howed : owed map (start map).marks
      = (map.entries.map fun entry => entry.2.length + 1).sum :=
    congrArg List.sum (List.map_congr_left hcost)
  have hkeys : (start map).roots.length = (map.entries.map fun _ => 1).sum := by
    simp [start, Dict.keys]
  have hwaiting : ((start map).waiting.map (left map)).sum = 0 := rfl
  rw [weight, howed, hkeys, hwaiting, Nat.add_zero, ← List.sum_map_add]
  exact congrArg List.sum (List.map_congr_left fun entry _ => by omega)

/-! ### The walk beside the recursion -/

/-- Some steps lead from one stage to the other. -/
def Leads (map : Dependencies) (stage last : Stage) : Prop :=
  ∃ steps, (next map)^[steps] stage = last

/-- No step leads from a stage to itself. -/
theorem Leads.refl (map : Dependencies) (stage : Stage) : Leads map stage stage :=
  ⟨0, rfl⟩

/-- Steps to a stage and steps from it lead on. -/
theorem Leads.trans (h : Leads map stage middle) (h' : Leads map middle last) :
    Leads map stage last := by
  obtain ⟨first, rfl⟩ := h
  obtain ⟨second, rfl⟩ := h'
  exact ⟨second + first, Function.iterate_add_apply _ _ _ _⟩

/-- A step is taken before the others. -/
theorem Leads.head (h : Leads map (walk.step map) last) : Leads map (.inl walk) last := by
  obtain ⟨steps, rfl⟩ := h
  exact ⟨steps + 1, Function.iterate_succ_apply _ _ _⟩

/-- The marks, the stack and the order of a walk belong together. -/
structure Consistent (map : Dependencies) (walk : Walk) : Prop where
  /-- The order is the work that is done while the names on the stack wait. -/
  pending : Pending map walk.path walk.order
  /-- The names on the stack depend on each other in turn. -/
  trail : Trail map walk.path
  /-- The names of the map are marked, and the mark says where a name is. -/
  marks : ∀ name, walk.marks.get? name = (map.get? name).map fun _ =>
    if name ∈ walk.order then .visited else if name ∈ walk.path then .visiting else .unvisited

/-- At its beginning a walk has no order and nothing waits, so nothing can be at odds. -/
theorem consistent_start (map : Dependencies) : Consistent map (start map) :=
  ⟨⟨.nil, by simp [start], by simp [start]⟩, .nil, fun name => by
    simp [start, path, Dict.get?_mapWithKey]⟩

/-- A name that nothing is known of can be entered. -/
theorem Consistent.enter (h : Consistent map walk) (hknown : (map.get? name).isSome)
    (hdone : name ∉ walk.order) (hfresh : name ∉ walk.path)
    (hnext : (walk.path ++ [name]).IsChain (DependsOn map)) :
    Consistent map (walk.enter name) := by
  have hpath : (walk.enter name).path = walk.path ++ [name] := by simp [path, Walk.enter]
  refine ⟨?_, ?_, fun other => ?_⟩
  · rw [hpath]
    exact h.pending.concat hdone
  · rw [hpath]
    exact h.trail.concat hknown hfresh hnext
  · rw [hpath]
    show (walk.marks.insert name .visiting).get? other = _
    rw [Dict.get?_insert, h.marks other]
    by_cases hother : other = name
    · subst hother
      obtain ⟨dependencies, hget⟩ := Option.isSome_iff_exists.1 hknown
      simp [hget, hdone, Walk.enter]
    · simp [hother, Walk.enter]

/-- Dropping as many names as stand before a name is dropping up to the name. -/
theorem close_eq (hmem : name ∈ walk.path) :
    walk.close name = .cycle (walk.path.dropWhile (· ≠ name) ++ [name]) := by
  unfold close
  generalize walk.path = path at hmem
  induction path with
  | nil => cases hmem
  | cons first rest ih =>
    by_cases h : first = name
    · simp [h, List.findIdx?_cons]
    · have hrest : name ∈ rest := by
        rcases List.mem_cons.1 hmem with hfirst | hrest
        · exact absurd hfirst.symm h
        · exact hrest
      obtain ⟨position, hposition⟩ :
          ∃ position, rest.findIdx? (fun other => decide (other = name)) = some position := by
        rw [← Option.isSome_iff_exists, List.findIdx?_isSome]
        exact List.any_eq_true.2 ⟨name, hrest, by simp⟩
      have hsame := ih hrest
      simp [hposition] at hsame
      simp [h, List.findIdx?_cons, hposition, hsame]

/-- What the marks say of a name to be looked at. -/
theorem Consistent.look_eq (h : Consistent map walk) (needed : String) :
    walk.look needed
      = if (map.get? needed).isSome ∧ needed ∉ walk.order then
          if needed ∈ walk.path then
            .inr (.error (.cycle (walk.path.dropWhile (· ≠ needed) ++ [needed])))
          else .inl (walk.enter needed)
        else .inl walk := by
  unfold look
  rw [h.marks needed]
  cases map.get? needed with
  | none => simp
  | some dependencies =>
    by_cases hdone : needed ∈ walk.order
    · simp [hdone]
    · by_cases hmem : needed ∈ walk.path
      · simp [hdone, hmem, close_eq hmem]
      · simp [hdone, hmem]

/-- From a stage the walk comes back to a stack with the order that it is given, or it ends with
the fault. -/
def Answers (map : Dependencies) (roots : List String) (waiting : List Waiting) (stage : Stage) :
    Except LoadFault (List String) → Prop
  | .ok out => ∃ marks, Consistent map ⟨marks, roots, waiting, out⟩
      ∧ Leads map stage (.inl ⟨marks, roots, waiting, out⟩)
  | .error fault => Leads map stage (.inr (.error fault))

/-- What leads to a stage gives the same answers. -/
theorem Answers.of_leads (hleads : Leads map stage middle)
    (h : Answers map roots waiting middle result) : Answers map roots waiting stage result := by
  cases result with
  | ok out =>
    obtain ⟨marks, hconsistent, hlast⟩ := h
    exact ⟨marks, hconsistent, hleads.trans hlast⟩
  | error fault => exact hleads.trans h

/-- The last waiting name looks at what is left of its dependencies, if looking at each of them
gives the answer that a visit has. -/
theorem answers_foldlM {visits : List String → String → Except LoadFault (List String)}
    (hget : map.get? name = some (front ++ names))
    (hlook : ∀ marks cursor order needed, needed ∈ names →
      Consistent map ⟨marks, roots, ⟨name, cursor⟩ :: outer, order⟩ →
      Answers map roots (⟨name, cursor⟩ :: outer)
        (look ⟨marks, roots, ⟨name, cursor⟩ :: outer, order⟩ needed) (visits order needed))
    (h : Consistent map ⟨marks, roots, ⟨name, front.length⟩ :: outer, order⟩) :
    Answers map roots (⟨name, (front ++ names).length⟩ :: outer)
      (.inl ⟨marks, roots, ⟨name, front.length⟩ :: outer, order⟩)
      (names.foldlM visits order) := by
  induction names generalizing front marks order with
  | nil =>
    rw [List.append_nil]
    exact ⟨marks, h, .refl map _⟩
  | cons needed rest ih =>
    have hstep : step map ⟨marks, roots, ⟨name, front.length⟩ :: outer, order⟩
        = look ⟨marks, roots, ⟨name, front.length + 1⟩ :: outer, order⟩ needed := by
      simp [step, hget]
    -- The cursor is no part of the invariant.
    have hpassed : Consistent map ⟨marks, roots, ⟨name, front.length + 1⟩ :: outer, order⟩ :=
      ⟨h.pending, h.trail, h.marks⟩
    have hanswers := hlook marks (front.length + 1) order needed List.mem_cons_self hpassed
    rw [List.foldlM_cons]
    cases hvisit : visits order needed with
    | error fault =>
      rw [hvisit] at hanswers
      exact Leads.head (hstep ▸ hanswers)
    | ok out =>
      rw [hvisit] at hanswers
      obtain ⟨marks', hconsistent, hleads⟩ := hanswers
      have hsplit : front ++ needed :: rest = front ++ [needed] ++ rest := by simp
      have hcursor : front.length + 1 = (front ++ [needed]).length := by simp
      rw [hcursor] at hleads hconsistent hstep
      rw [hsplit] at hget ⊢
      have hrest := ih hget (fun marks cursor order other hother =>
        hlook marks cursor order other (List.mem_cons_of_mem _ hother)) hconsistent
      exact hrest.of_leads (Leads.head (hstep ▸ hleads))

/-- A name that has passed all its dependencies is done. -/
theorem Consistent.leave
    (h : Consistent map ⟨marks, roots, ⟨name, cursor⟩ :: outer, order⟩)
    (hpending : Pending map (path ⟨marks, roots, outer, order⟩) (order ++ [name])) :
    Consistent map ⟨marks.insert name .visited, roots, outer, order ++ [name]⟩ := by
  have hpath : path ⟨marks, roots, ⟨name, cursor⟩ :: outer, order⟩
      = path ⟨marks, roots, outer, order⟩ ++ [name] := by simp [path]
  have htrail := h.trail
  rw [hpath] at htrail
  refine ⟨hpending, htrail.left_of_append, fun other => ?_⟩
  have hmark := h.marks other
  rw [hpath] at hmark
  show (marks.insert name .visited).get? other = _
  rw [Dict.get?_insert]
  -- Only the finished name has moved, from the stack to the order.
  by_cases hother : other = name
  · subst hother
    obtain ⟨dependencies, hget⟩ := Option.isSome_iff_exists.1 (htrail.known other (by simp))
    simp [hget]
  · rw [if_neg hother]
    refine hmark.trans ?_
    simp [hother, path]

/-- A name that waits is done once its dependencies are looked at, if looking at each of them
gives the answer that a visit has. -/
theorem answers_enter (h : Consistent map walk) (hget : map.get? name = some dependencies)
    (hdone : name ∉ walk.order) (hfresh : name ∉ walk.path)
    (hnext : (walk.path ++ [name]).IsChain (DependsOn map))
    (hlook : ∀ marks cursor order needed, needed ∈ dependencies →
      Consistent map ⟨marks, walk.roots, ⟨name, cursor⟩ :: walk.waiting, order⟩ →
      Answers map walk.roots (⟨name, cursor⟩ :: walk.waiting)
        (look ⟨marks, walk.roots, ⟨name, cursor⟩ :: walk.waiting, order⟩ needed)
        (visit map bound (walk.path ++ [name]) order needed)) :
    Answers map walk.roots walk.waiting (.inl (walk.enter name))
      (visit map (bound + 1) walk.path walk.order name) := by
  have henter := h.enter (by simp [hget]) hdone hfresh hnext
  have hall : map.get? name = some ([] ++ dependencies) := hget
  have hanswers : Answers map walk.roots (⟨name, dependencies.length⟩ :: walk.waiting)
      (.inl (walk.enter name))
      (dependencies.foldlM (visit map bound (walk.path ++ [name])) walk.order) :=
    answers_foldlM hall hlook henter
  have hvisit : visit map (bound + 1) walk.path walk.order name
      = (dependencies.foldlM (visit map bound (walk.path ++ [name])) walk.order
        >>= fun order => pure (order ++ [name])) := by
    simp only [visit, hget, hdone, hfresh, if_false]
  cases hmid : dependencies.foldlM (visit map bound (walk.path ++ [name])) walk.order with
  | error fault =>
    rw [hmid] at hanswers hvisit
    rw [hvisit]
    exact hanswers
  | ok mid =>
    rw [hmid] at hanswers hvisit
    obtain ⟨marks, hconsistent, hleads⟩ := hanswers
    have hpending := (visit_eq_ok h.pending hvisit).1
    have hstep : step map
          ⟨marks, walk.roots, ⟨name, dependencies.length⟩ :: walk.waiting, mid⟩
        = .inl ⟨marks.insert name .visited, walk.roots, walk.waiting, mid ++ [name]⟩ := by
      simp [step, hget]
    rw [hvisit]
    exact ⟨_, hconsistent.leave hpending, hleads.trans (Leads.head (hstep ▸ .refl map _))⟩

/-- Looking at a name gives the answer that a visit of it has. -/
theorem answers_look (h : Consistent map walk)
    (hnext : (map.get? needed).isSome → (walk.path ++ [needed]).IsChain (DependsOn map))
    (hbound : map.size < walk.path.length + bound) :
    Answers map walk.roots walk.waiting (walk.look needed)
      (visit map bound walk.path walk.order needed) := by
  -- The stack and the bound together are longer than the map has names.
  induction bound generalizing walk needed with
  | zero =>
    have hshort := h.trail.length_le_size
    omega
  | succ bound ih =>
    rw [h.look_eq]
    cases hget : map.get? needed with
    | none =>
      simp only [visit, hget]
      exact ⟨walk.marks, h, .refl map _⟩
    | some dependencies =>
      by_cases hdone : needed ∈ walk.order
      · simp only [visit, hget, hdone]
        exact ⟨walk.marks, h, .refl map _⟩
      · by_cases hmem : needed ∈ walk.path
        · simp only [visit, hget, hdone, hmem]
          exact .refl map _
        · have hchain := hnext (by simp [hget])
          simp only [hdone, hmem]
          refine answers_enter h hget hdone hmem hchain ?_
          intro marks cursor order other hother hconsistent
          have hpath : path ⟨marks, walk.roots, ⟨needed, cursor⟩ :: walk.waiting, order⟩
              = walk.path ++ [needed] := by simp [path]
          have htrail := hconsistent.trail
          rw [hpath] at htrail
          have hlonger : (walk.path ++ [needed]).length = walk.path.length + 1 := by simp
          have hchain' := htrail.isChain_concat hget hother
          rw [← hpath] at hlonger hchain' ⊢
          exact ih hconsistent hchain' (by omega)

/-- The walk goes on from the names that are left like the recursion. -/
theorem leads_foldlM (h : Consistent map ⟨marks, roots, [], order⟩) :
    Leads map (.inl ⟨marks, roots, [], order⟩)
      (.inr (roots.foldlM (visit map (map.size + 1) []) order)) := by
  induction roots generalizing marks order with
  | nil => exact Leads.head (.refl map _)
  | cons root rest ih =>
    have hrest : Consistent map ⟨marks, rest, [], order⟩ := ⟨h.pending, h.trail, h.marks⟩
    have hstep : step map ⟨marks, root :: rest, [], order⟩
        = look ⟨marks, rest, [], order⟩ root := by
      -- No name waits, so no mark says that one is visiting.
      rw [hrest.look_eq]
      simp only [step, h.marks root]
      cases map.get? root with
      | none => simp
      | some dependencies =>
        by_cases hdone : root ∈ order
        · simp [hdone]
        · simp [hdone, path]
    have hanswers : Answers map rest [] (look ⟨marks, rest, [], order⟩ root)
        (visit map (map.size + 1) [] order root) :=
      answers_look hrest (fun _ => List.isChain_singleton _) (by omega)
    rw [List.foldlM_cons]
    cases hvisit : visit map (map.size + 1) [] order root with
    | error fault =>
      rw [hvisit] at hanswers
      exact Leads.head (hstep ▸ hanswers)
    | ok out =>
      rw [hvisit] at hanswers
      obtain ⟨marks', hconsistent, hleads⟩ := hanswers
      exact (Leads.head (hstep ▸ hleads)).trans (ih hconsistent)

/-- The walk ends with what the recursion gives. -/
theorem leads_dependencyOrder (map : Dependencies) :
    Leads map (.inl (start map)) (.inr (dependencyOrder map)) :=
  leads_foldlM (consistent_start map)

/-- After enough steps the walk has ended with what the recursion gives. -/
theorem iterate_next_start (hsteps : weight map (start map) < steps) :
    (next map)^[steps] (.inl (start map)) = .inr (dependencyOrder map) := by
  obtain ⟨result, hend⟩ := exists_iterate_next (marked_start map) hsteps
  obtain ⟨enough, henough⟩ := leads_dependencyOrder map
  rw [hend]
  -- Both ends stay, so they are the same after the longer of the two times.
  rcases Nat.le_total enough steps with hle | hle
  · obtain ⟨more, rfl⟩ := Nat.exists_eq_add_of_le' hle
    rw [Function.iterate_add_apply, henough, iterate_next_inr] at hend
    exact hend.symm
  · obtain ⟨more, rfl⟩ := Nat.exists_eq_add_of_le' hle
    rw [Function.iterate_add_apply, hend, iterate_next_inr] at henough
    exact henough

end Walk

/-- The message about a cycle lists its names in order. -/
theorem LoadFault.message_cycle (path : List String) :
    (LoadFault.cycle path).message
      = "dependency cycle between states: " ++ " -> ".intercalate path := by
  unfold message
  rfl

/-- A fault of loading says so in front of its cause. -/
theorem Fault.message_load (cause : LoadFault) :
    (Fault.load cause).message = "Structure loading error: " ++ cause.message := by
  rfl

/-- Take any dependency map, whatever its dependencies are: repeated ones, a name itself, or no
names of the map. The walk has ended after two steps for each name and one for each dependency,
and one more. It gives an order exactly if no name depends on itself over any number of names.
The order then holds each name of the map once, behind its dependencies. Otherwise the fault
reports a cycle of the map. -/
theorem dependencyOrder_law (map : Dependencies) :
    (∀ steps, (map.entries.map fun entry => entry.2.length + 2).sum < steps →
        (Walk.next map)^[steps] (.inl (Walk.start map)) = .inr (dependencyOrder map))
      ∧ ((∃ order, dependencyOrder map = .ok order)
        ↔ ∀ name, ¬ Relation.TransGen (DependsOn map) name name)
      ∧ (∀ order, dependencyOrder map = .ok order →
        Ordered (DependsOn map) order ∧ ∀ name, name ∈ order ↔ (map.get? name).isSome)
      ∧ ∀ fault, (dependencyOrder map).mapError Fault.load = .error fault →
        ∃ cycle, Cycle map cycle ∧ fault = .load (.cycle cycle) ∧ fault.kind = .load
          ∧ fault.message = "Structure loading error: " ++ ("dependency cycle between states: "
            ++ " -> ".intercalate cycle) := by
  refine ⟨fun steps hsteps => ?_, exists_dependencyOrder_iff,
    fun order horder => dependencyOrder_eq_ok horder, fun fault hfault => ?_⟩
  · rw [← Walk.weight_start] at hsteps
    exact Walk.iterate_next_start hsteps
  · cases horder : dependencyOrder map with
    | ok order =>
      rw [horder] at hfault
      cases hfault
    | error cause =>
      obtain ⟨cycle, rfl, hcycle⟩ := dependencyOrder_eq_error horder
      have hload : fault = .load (.cycle cycle) := by
        rw [horder] at hfault
        exact (Except.error.inj hfault).symm
      refine ⟨cycle, hcycle, hload, ?_, ?_⟩
      · rw [hload]
        rfl
      · rw [hload, Fault.message_load, LoadFault.message_cycle]

/-- The walk comes to the cycle from a name outside it, and passes a name that the map has not. -/
example : dependencyOrder (Dict.ofList [("a", ["x", "b"]), ("b", ["c"]), ("c", ["b"])])
    = .error (.cycle ["b", "c", "b"]) := by
  decide

end Statechart
