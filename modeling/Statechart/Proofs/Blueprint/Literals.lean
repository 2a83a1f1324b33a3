import Statechart.Proofs.Blueprint.Compile
import Statechart.Proofs.Machine.DistinctLiterals

/-!
# `Statechart.Proofs.Blueprint.Literals`: literals of parameters and of guards

A literal of a blueprint can be a parameter of an action, and it can be what a guard compares a
variable with. The two are compiled apart: a parameter becomes the value that `Value.ofJson` gives,
and a guard takes the literal only if it is a scalar.

* A truth value, a number or a string that an action stores opens the guard that is declared with
  the same literal, also from within further scopes that do not have the variable
  (`Guard.opens_of_scalar`).
* Null, arrays and objects are stored whole, as payloads. No guard can be declared with them. A
  guard that expects a truth value or a string is closed for a payload, and one that expects a
  number fails (`Guard.fails_of_payload`).

`literal_law` puts the two paths together. For numbers it takes for granted that the literal is
read as no NaN; any other float is equal to itself (`Value.float_beq_self`).
-/

set_option autoImplicit false

namespace Statechart

variable {registry : Registry} {name key state transition : String} {script : Script}
  {literal : Json} {value expected : Value} {frame : Frame} {inner rest : List Frame}

/-- A declared action with one parameter. -/
def ActionPlan.storing (name key : String) (literal : Json) : ActionPlan :=
  .packaged name (Dict.empty.insert key literal)

/-- A declared guard that compares a variable with a literal. -/
def GuardPlan.comparing (key : String) (literal : Json) : GuardPlan :=
  { kind := "context", key := some key, value := some literal }

/-- If a literal is read as a number, then it is read as no NaN. -/
def Json.NotNaN (literal : Json) : Prop :=
  ∀ x, (Value.scalar? literal).bind Value.toFloat? = some x → x.isNaN = false

/-- A script succeeds on a stack and writes nothing. -/
def Script.Quiet (script : Script) (stack : ScopeStack) : Prop :=
  ∃ notes, script.run stack = (stack, ⟨notes, .ok ()⟩)

/-! ### Values -/

/-- A float that is no NaN is equal to itself. -/
theorem Value.float_beq_self {x : Float} (h : x.isNaN = false) : (x == x) = true := by
  show x.toModel.unpack.beq x.toModel.unpack = true
  have hunpacked : x.toModel.unpack.isNaN = false := h
  generalize x.toModel.unpack = unpacked at hunpacked ⊢
  -- Any other number compares with itself by its sign, its exponent and its mantissa.
  cases unpacked with
  | notANumber => cases hunpacked
  | infinity sign => cases sign <;> rfl
  | zero sign => rfl
  | finite sign mantissa exponent hpos =>
    have hsame : (compare exponent exponent).then (compare mantissa mantissa) = .eq := by
      rw [Std.ReflOrd.compare_self, Std.ReflOrd.compare_self]
      rfl
    cases sign with
    | positive =>
      show (some ((compare exponent exponent).then (compare mantissa mantissa)) == some .eq) = true
      rw [hsame]
      rfl
    | negative =>
      show (some ((compare exponent exponent).then (compare mantissa mantissa)).swap == some .eq)
        = true
      rw [hsame]
      rfl

/-- The value of a scalar is no payload. -/
theorem Value.type_ne_payload_of_scalar? (h : scalar? literal = some value) :
    value.type ≠ .payload := by
  intro hpayload
  cases literal with
  | int n =>
    by_cases hfits : n < intBound
    · rw [scalar?, if_pos hfits] at h
      cases h
      cases hpayload
    · rw [scalar?, if_neg hfits] at h
      cases h
      cases hpayload
  | bool | float | str =>
    cases h
    cases hpayload
  | null | arr | obj => cases h

/-- A scalar is stored as the value that guards compare with. -/
theorem Value.ofJson_of_scalar? (h : scalar? literal = some value) (identity : Identity) :
    ofJson identity literal = value := by
  rw [ofJson, h, Option.getD_some]

/-- What is no scalar is stored whole. -/
theorem Value.ofJson_of_not_scalar (h : scalar? literal = none) (identity : Identity) :
    ofJson identity literal = .payload ⟨identity, .literal literal⟩ := by
  rw [ofJson, h, Option.getD_none]

/-! ### Guards -/

namespace Guard

variable {view : View}

/-- A variable is equal to the value that it shows, if this is no payload and no NaN. -/
theorem opens_of_scalar (hview : view key = some value) (htype : value.type ≠ .payload)
    (hnumber : ∀ x, value.toFloat? = some x → x.isNaN = false) :
    ((contextEquals key value).check view).result = .ok true := by
  -- Truth values and strings are compared as they are, and numbers as floats.
  have hdiscrete : value.Discrete → ((contextEquals key value).check view).result = .ok true := by
    intro h
    rw [check_of_shown hview h, (Value.beq_iff_eq_of_discrete h).2 rfl]
  have hnumeric : ∀ x, value.isNumeric = true → value.toFloat? = some x →
      ((contextEquals key value).check view).result = .ok true := by
    intro x hvalue hx
    have hsame : (some x == some x) = true := Value.float_beq_self (hnumber x hx)
    have hcompare : compare view key value = .ok (some x == some x) := by
      simp only [compare, View.raw, hview, hvalue, if_true, bind, Except.bind, hx]
      rfl
    simp only [check, hcompare, hsame]
    rfl
  cases value with
  | bool => exact hdiscrete (Or.inl rfl)
  | str => exact hdiscrete (Or.inr rfl)
  | int n => exact hnumeric _ rfl rfl
  | float x => exact hnumeric _ rfl rfl
  | payload => exact absurd rfl htype

/-- A payload is no truth value and no string. -/
theorem closed_of_payload {payload : Payload} (hview : view key = some (.payload payload))
    (hexpected : expected.Discrete) :
    ((contextEquals key expected).check view).result = .ok false := by
  have hne : ((.payload payload : Value) == expected) = false := by
    rw [Bool.eq_false_iff]
    intro heq
    rw [← (Value.beq_iff_eq_of_discrete hexpected).1 heq] at hexpected
    simp [Value.Discrete, Value.type] at hexpected
  rw [check_of_shown hview hexpected, hne]

/-- A payload cannot be compared with a number. -/
theorem fails_of_payload {payload : Payload} (hview : view key = some (.payload payload))
    (hexpected : expected.isNumeric = true) :
    ((contextEquals key expected).check view).result
      = .error (.fault (.runtime (.notNumeric key .payload))) := by
  have hcompare : compare view key expected = .error (.runtime (.notNumeric key .payload)) := by
    simp only [compare, View.raw, hview, hexpected]
    rfl
  simp only [check, hcompare]
  rfl

end Guard

/-! ### Compiling -/

/-- A guard that compares a variable with a literal compiles if the literal is a scalar, and else
the fault shows the literal. -/
theorem GuardPlan.compile_comparing (hkey : key ≠ "") :
    (comparing key literal).compile
      = match Value.scalar? literal with
        | some value => .ok (.contextEquals key value)
        | none => .error (.guardLiteral key literal.compact) := by
  have hnamed : nonEmpty? (some key) = some key := nonEmpty?_eq_some_iff.2 ⟨rfl, hkey⟩
  simp only [compile, comparing, hnamed]
  rfl

/-- An action with a name that is registered is compiled with its parameter. An empty name names no
action, even if it is registered. -/
theorem ActionPlan.compile_storing (hregistered : registry.get? name = some script) :
    (storing name key literal).compile registry state transition
      = .ok (if name = "" then none
          else some ⟨Dict.empty.insert key
            (Value.ofJson (.parameter state transition key) literal), script⟩) := by
  have hplanned : (storing name key literal).name = name := rfl
  unfold compile
  rw [hplanned]
  by_cases hname : name = ""
  · rw [if_pos hname, if_pos hname]
  · rw [if_neg hname, if_neg hname, hregistered]
    rfl

/-! ### Running -/

/-- An action stores its parameter in the innermost scope and then does its work. -/
theorem Action.run_storing (key : String) (value : Value) (script : Script) (frame : Frame)
    (rest : List Frame) :
    Action.run ⟨Dict.empty.insert key value, script⟩ (⟨frame :: rest⟩ : ScopeStack)
      = script.run (⟨frame.put key value :: rest⟩ : ScopeStack) :=
  rfl

/-- A variable of the innermost scope is seen from within further scopes that do not have it. -/
theorem ScopeStack.view_storing (hinner : ∀ frame ∈ inner, frame.scope.get? key = none) :
    (ScopeStack.mk (inner ++ frame.put key value :: rest)).view key = some value := by
  -- The further scopes show nothing, so the variable is looked up behind them.
  have hnone : (ScopeStack.mk inner).view key = none := List.findSome?_eq_none_iff.2 hinner
  rw [view_append, hnone, Option.none_or, view_cons]
  show ((frame.scope.insert key value).get? key).or _ = _
  rw [Dict.get?_insert_self, Option.some_or]

/-! ### The law -/

/-- A guard can be declared with the literal, and it is open. -/
def Json.OpensGuard (literal : Json) (key : String) (view : View) : Prop :=
  ∃ guard, (GuardPlan.comparing key literal).compile = .ok guard
    ∧ (guard.check view).result = .ok true

/-- The literal is no scalar, and the variable shows it. -/
structure Json.StaysWhole (literal : Json) (key : String) (view : View) : Prop where
  /-- No guard can be declared with the literal. -/
  refused : ∃ cause, (GuardPlan.comparing key literal).compile = .error cause
    ∧ (Fault.load cause).kind = .load
  /-- Nor can one be declared without a literal, which is how null is read. -/
  incomplete : ∃ cause, GuardPlan.compile { kind := "context", key := some key } = .error cause
    ∧ (Fault.load cause).kind = .load
  /-- The variable is a payload that holds the literal. -/
  stored : ∃ identity, view key = some (.payload ⟨identity, .literal literal⟩)
  /-- It is no truth value and no string. -/
  closed : ∀ expected : Value, expected.Discrete →
    ((Guard.contextEquals key expected).check view).result = .ok false
  /-- It cannot be compared with a number. -/
  fails : ∀ expected : Value, expected.isNumeric = true →
    ((Guard.contextEquals key expected).check view).result
      = .error (.fault (.runtime (.notNumeric key .payload)))

/-- Take an action that is declared with a registered name and one parameter, and a stack with at
least one scope. The action is compiled, unless its name is empty. It runs to its end if its script
succeeds and writes nothing once the parameter is stored. Then take any further scopes that do not
have the variable. A scalar opens the guard that is declared with the same literal. Null, an array
or an object is refused by such a guard, and is a payload to all others. -/
theorem literal_law (state transition : String) (hkey : key ≠ "")
    (hregistered : registry.get? name = some script) (hnumber : literal.NotNaN)
    (hquiet : script.Quiet
      ⟨frame.put key (Value.ofJson (.parameter state transition key) literal) :: rest⟩) :
    ∃ action, (ActionPlan.storing name key literal).compile registry state transition
        = .ok (if name = "" then none else some action)
      ∧ ∃ after notes,
          action.run (⟨frame :: rest⟩ : ScopeStack) = (after, ⟨notes, .ok ()⟩)
          ∧ ∀ inner, (∀ frame ∈ inner, frame.scope.get? key = none) →
              (literal.IsScalar →
                literal.OpensGuard key (ScopeStack.view ⟨inner ++ after.frames⟩))
              ∧ (¬ literal.IsScalar →
                literal.StaysWhole key (ScopeStack.view ⟨inner ++ after.frames⟩)) := by
  obtain ⟨notes, hrun⟩ := hquiet
  refine ⟨_, ActionPlan.compile_storing hregistered, _, notes,
    (Action.run_storing _ _ _ _ _).trans hrun,
    fun inner hinner => ⟨fun hscalar => ?_, fun hnot => ?_⟩⟩
  · -- A scalar is stored as the value that the guard is compiled with.
    obtain ⟨value, hvalue⟩ :=
      Option.isSome_iff_exists.1 ((Value.isSome_scalar?_iff literal).2 hscalar)
    have hview : (ScopeStack.mk (inner ++ frame.put key value :: rest)).view key = some value :=
      ScopeStack.view_storing hinner
    have hnumbers : ∀ x, value.toFloat? = some x → x.isNaN = false := by
      intro x hx
      exact hnumber x (by rw [hvalue, Option.bind_some, hx])
    rw [Value.ofJson_of_scalar? hvalue]
    refine ⟨.contextEquals key value, ?_, ?_⟩
    · rw [GuardPlan.compile_comparing hkey, hvalue]
    · exact Guard.opens_of_scalar hview (Value.type_ne_payload_of_scalar? hvalue) hnumbers
  · -- Anything else is stored as a payload, and no guard is compiled with it.
    have hvalue : Value.scalar? literal = none := by
      rw [← Option.not_isSome_iff_eq_none, Value.isSome_scalar?_iff]
      exact hnot
    rw [Value.ofJson_of_not_scalar hvalue]
    have hview : (ScopeStack.mk (inner ++ frame.put key
        (.payload ⟨.parameter state transition key, .literal literal⟩) :: rest)).view key
          = some (.payload ⟨.parameter state transition key, .literal literal⟩) :=
      ScopeStack.view_storing hinner
    refine ⟨⟨.guardLiteral key literal.compact, ?_, rfl⟩, ⟨.guardIncomplete, ?_, rfl⟩, ⟨_, hview⟩,
      fun expected h => ?_, fun expected h => ?_⟩
    · rw [GuardPlan.compile_comparing hkey, hvalue]
    · simp [GuardPlan.compile]
    · exact Guard.closed_of_payload hview h
    · exact Guard.fails_of_payload hview h

/-- A registry with one action, which leaves a note. -/
def noting : Registry :=
  Registry.empty.insert "note" (.note "noted" .done)

/-- A fraction that is stored opens a guard from within a further scope, and a list does not. -/
theorem noting_literals :
    (∃ action, (ActionPlan.storing "note" "level" (.float 2.5)).compile noting "a" "go"
        = .ok (some action)
      ∧ Json.OpensGuard (.float 2.5) "level" (ScopeStack.view
          ⟨[⟨"b", Dict.empty⟩] ++ (action.run (⟨[⟨"a", Dict.empty⟩]⟩ : ScopeStack)).1.frames⟩))
      ∧ ∃ action, (ActionPlan.storing "note" "level" (.arr [.null])).compile noting "a" "go"
          = .ok (some action)
        ∧ Json.StaysWhole (.arr [.null]) "level" (ScopeStack.view
            ⟨[⟨"b", Dict.empty⟩]
              ++ (action.run (⟨[⟨"a", Dict.empty⟩]⟩ : ScopeStack)).1.frames⟩) := by
  have hinner : ∀ frame ∈ [(⟨"b", Dict.empty⟩ : Frame)], frame.scope.get? "level" = none := by
    intro frame hframe
    rw [List.mem_singleton.1 hframe]
    rfl
  have hfraction : Json.NotNaN (.float 2.5) := by
    intro x hx
    cases hx
    decide
  constructor
  · obtain ⟨action, hcompile, after, notes, hrun, hscopes⟩ :=
      @literal_law noting "note" "level" (.note "noted" .done) (.float 2.5) ⟨"a", Dict.empty⟩ []
        "a" "go" (by decide) rfl hfraction ⟨["noted"], rfl⟩
    refine ⟨action, hcompile, ?_⟩
    rw [hrun]
    exact (hscopes _ hinner).1 trivial
  · obtain ⟨action, hcompile, after, notes, hrun, hscopes⟩ :=
      @literal_law noting "note" "level" (.note "noted" .done) (.arr [.null]) ⟨"a", Dict.empty⟩ []
        "a" "go" (by decide) rfl nofun ⟨["noted"], rfl⟩
    refine ⟨action, hcompile, ?_⟩
    rw [hrun]
    exact (hscopes _ hinner).2 id

end Statechart
