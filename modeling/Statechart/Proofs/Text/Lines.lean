import Mathlib.Data.Nat.Basic
import Statechart.Text.Outline
import Statechart.Value

/-!
# `Statechart.Proofs.Text.Lines`: lines of a text

A line ends with a line break, and a text is `OneLine` if it has none. `indentLines` puts a tab in
front of every line of a text, whatever the text is.

An outline is rendered line by line. If none of its lines has a line break of its own, then these
are the lines of the text, so that rendering it one level deeper is to indent the text
(`Outline.render_succ`). The values of variables are always written in one line
(`Value.oneLine_display`): strings are quoted, with their line breaks escaped, and numbers are
digits, signs and points.
-/

set_option autoImplicit false

namespace Statechart

/-- A text without line breaks. -/
def OneLine (text : String) : Prop :=
  '\n' ∉ text.toList

instance (text : String) : Decidable (OneLine text) :=
  inferInstanceAs (Decidable (_ ∉ _))

/-- Characters with a tab in front of every line. The truth value says whether a line begins
here. -/
def tabbed : Bool → List Char → List Char
  | _, [] => []
  | true, c :: rest => '\t' :: c :: tabbed (c = '\n') rest
  | false, c :: rest => c :: tabbed (c = '\n') rest

/-- A text with a tab in front of every line. -/
def indentLines (text : String) : String :=
  String.ofList (tabbed true text.toList)

/-! ### Texts in one line -/

/-- Two texts in a row are one line if each of them is. -/
@[simp] theorem oneLine_append {first second : String} :
    OneLine (first ++ second) ↔ OneLine first ∧ OneLine second := by
  simp [OneLine, String.toList_append]

/-- A text made of characters is one line if none of them is a line break. -/
@[simp] theorem oneLine_ofList {chars : List Char} :
    OneLine (String.ofList chars) ↔ '\n' ∉ chars := by
  simp [OneLine]

/-- Texts without line breaks have none when they are joined. -/
theorem oneLine_join {texts : List String} (h : ∀ text ∈ texts, OneLine text) :
    OneLine (String.join texts) := by
  unfold OneLine
  rw [String.toList_join, List.mem_flatMap]
  rintro ⟨text, hmem, hbreak⟩
  exact h text hmem hbreak

/-- A digit is no line break, up to the digits of base 16. -/
theorem newline_ne_digitChar {digit : Nat} (h : digit < 16) : '\n' ≠ Nat.digitChar digit := by
  have hall : ∀ digit : Fin 16, '\n' ≠ Nat.digitChar digit := by decide
  exact hall ⟨digit, h⟩

/-- No digit of a number is a line break, up to the base 16, which covers the digits of numbers and
those of escaped characters. -/
theorem newline_not_mem_toDigits {base : Nat} (hpos : 0 < base) (hbase : base ≤ 16) (n : Nat) :
    '\n' ∉ Nat.toDigits base n := by
  -- The digits are put in front of those that are there already.
  have hcore : ∀ (fuel n : Nat) (digits : List Char), '\n' ∉ digits →
      '\n' ∉ Nat.toDigitsCore base fuel n digits := by
    intro fuel
    induction fuel with
    | zero => exact fun _ _ h => h
    | succ fuel ih =>
      intro n digits hdigits
      have hdigit : '\n' ≠ Nat.digitChar (n % base) :=
        newline_ne_digitChar (Nat.lt_of_lt_of_le (Nat.mod_lt n hpos) hbase)
      have hmore : '\n' ∉ Nat.digitChar (n % base) :: digits :=
        List.not_mem_cons_of_ne_of_not_mem hdigit hdigits
      rw [Nat.toDigitsCore]
      split
      · exact hmore
      · exact ih _ _ hmore
  exact hcore (n + 1) n [] List.not_mem_nil

/-- A natural number is written in one line. -/
theorem oneLine_repr (n : Nat) : OneLine n.repr :=
  oneLine_ofList.2 (newline_not_mem_toDigits (by decide) (by decide) n)

/-- An integer is written in one line, a sign in front of it or not. -/
theorem oneLine_repr_int (n : Int) : OneLine n.repr := by
  cases n with
  | ofNat n => exact oneLine_repr n
  | negSucc n => exact oneLine_append.2 ⟨by decide, oneLine_repr n.succ⟩

/-! ### Values in one line -/

/-- A character of a quoted text is escaped if it is a line break. -/
theorem newline_not_mem_escapeChar (c : Char) : '\n' ∉ escapeChar c := by
  unfold escapeChar
  split_ifs with hquote hbackslash htab hreturn hnewline hzero hunprintable
  · decide
  · decide
  · decide
  · decide
  · decide
  · decide
  · have hdigits := newline_not_mem_toDigits (by decide : 0 < 16) (by decide) c.toNat
    simp [hdigits]
  · simpa [eq_comm] using hnewline

/-- A quoted text is one line whatever the text is, because its line breaks are escaped. -/
theorem oneLine_quote (text : String) : OneLine (quote text) := by
  have hchars : '\n' ∉ text.toList.flatMap escapeChar := by
    rw [List.mem_flatMap]
    rintro ⟨c, -, hbreak⟩
    exact newline_not_mem_escapeChar c hbreak
  exact oneLine_ofList.2 (by simp [hchars])

/-- A coefficient with a power of ten is written in one line. There are four ways to write it: with
an exponent, with zeros behind the digits, with a point between them, or with zeros in front. -/
theorem NumberStyle.oneLine_unsigned (style : NumberStyle) (coefficient : Nat) (power : Int) :
    OneLine (style.unsigned coefficient power) := by
  have hdigits : ∀ n, '\n' ∉ Nat.toDigits 10 n :=
    newline_not_mem_toDigits (by decide) (by decide)
  have htake : ∀ n k, '\n' ∉ (Nat.toDigits 10 n).take k :=
    fun n _ h => hdigits n (List.mem_of_mem_take h)
  have hdrop : ∀ n k, '\n' ∉ (Nat.toDigits 10 n).drop k :=
    fun n _ h => hdigits n (List.mem_of_mem_drop h)
  unfold unsigned
  extract_lets digits leading fraction sign whole
  -- An exponent, zeros behind the digits, a point between them, or zeros in front of them.
  split
  · have hfraction : '\n' ∉ fraction := by
      unfold fraction
      split
      · exact List.not_mem_nil
      · simpa using hdrop coefficient 1
    have hsign : '\n' ∉ sign := by
      unfold sign
      split_ifs <;> decide
    exact oneLine_ofList.2 (by simp [htake, hdigits, hfraction, hsign, digits])
  · split
    · have hmark : '\n' ∉ (if style.marksWhole then ['.', '0'] else []) := by
        split <;> decide
      exact oneLine_ofList.2 (by simp [hdigits, hmark, digits, List.mem_replicate])
    · split
      · exact oneLine_ofList.2 (by simp [htake, hdrop, digits])
      · exact oneLine_ofList.2 (by simp [hdigits, digits, List.mem_replicate])

/-- A floating-point number is written in one line: as a word if it is infinite or not a number,
and otherwise with digits. A sign may stand in front. -/
theorem NumberStyle.oneLine_format (style : NumberStyle) (x : Float) :
    OneLine (style.format x) := by
  have hsigned : ∀ (negative : Bool) (text : String), OneLine text →
      OneLine (if negative then "-" ++ text else text) := by
    intro negative text htext
    cases negative with
    | false => exact htext
    | true => exact oneLine_append.2 ⟨by decide, htext⟩
  unfold format
  simp only
  split
  · decide
  · exact hsigned _ _ (by decide)
  · exact hsigned _ _ (by split <;> decide)
  · exact hsigned _ _ (oneLine_unsigned _ _ _)

/-- The text of a value is one line. -/
theorem Value.oneLine_display (value : Value) : OneLine value.display := by
  cases value with
  | bool value => cases value <;> decide
  | int value => exact oneLine_repr_int value.toInt
  | float value => exact NumberStyle.oneLine_format _ value
  | str value => exact oneLine_quote value
  | payload => exact (by decide : OneLine "<opaque>")

/-! ### Indentation -/

/-- Up to the first line break the characters stay what they are, if no line begins with them.
Behind it a line begins. -/
theorem tabbed_append_newline {chars : List Char} (h : '\n' ∉ chars) (rest : List Char) :
    tabbed false (chars ++ '\n' :: rest) = chars ++ '\n' :: tabbed true rest := by
  induction chars with
  | nil => simp [tabbed]
  | cons c chars ih =>
    obtain ⟨hc, hchars⟩ := not_or.1 (mt List.mem_cons.2 h)
    have hcontinues : decide (c = '\n') = false := by simpa [eq_comm] using hc
    rw [List.cons_append, tabbed, hcontinues, ih hchars, List.cons_append]

/-- A line gets one tab. -/
theorem tabbed_line {chars : List Char} (h : '\n' ∉ chars) (rest : List Char) :
    tabbed true (chars ++ '\n' :: rest) = '\t' :: chars ++ '\n' :: tabbed true rest := by
  cases chars with
  | nil => simp [tabbed]
  | cons c chars =>
    obtain ⟨hc, hchars⟩ := not_or.1 (mt List.mem_cons.2 h)
    have hcontinues : decide (c = '\n') = false := by simpa [eq_comm] using hc
    rw [List.cons_append, tabbed, hcontinues, tabbed_append_newline hchars]
    rfl

/-- The indentation at a level. -/
def indentation (level : Nat) : String :=
  String.ofList (List.replicate level '\t')

/-- Tabs are no line breaks. -/
theorem oneLine_indentation (level : Nat) : OneLine (indentation level) := by
  simp [indentation, List.mem_replicate]

/-- The indentation one level deeper has one tab more, in front of the others. -/
theorem toList_indentation_succ (level : Nat) :
    (indentation (level + 1)).toList = '\t' :: (indentation level).toList := by
  simp [indentation, List.replicate_succ]

namespace Outline

/-- No line has a line break of its own. -/
def Lined (outline : Outline) : Prop :=
  ∀ line ∈ outline, OneLine line.text

/-- Two outlines one below the other have no line breaks in their lines if each of them has
none. -/
theorem Lined.append {first second : Outline} (hfirst : first.Lined) (hsecond : second.Lined) :
    Lined (first ++ second) := by
  intro line hline
  rcases List.mem_append.1 hline with hline | hline
  · exact hfirst line hline
  · exact hsecond line hline

/-- An outline keeps its lines when it is nested; only their depth changes. -/
theorem Lined.nested {outline : Outline} (h : outline.Lined) : outline.nested.Lined := by
  intro line hline
  obtain ⟨inner, hinner, rfl⟩ := List.mem_map.1 hline
  exact h inner hinner

/-- An outline without lines is the empty text. -/
@[simp] theorem render_nil (level : Nat) : render level [] = "" :=
  rfl

/-- An outline is rendered line by line. -/
theorem render_cons (level : Nat) (line : Line) (rest : Outline) :
    render level (line :: rest)
      = indentation (level + line.depth) ++ line.text ++ "\n" ++ render level rest := by
  unfold render
  rw [List.map_cons, String.join_cons]
  rfl

/-- The characters of an outline are those of its first line, indented, then the line break, then
the rest. This is the form in which `tabbed` goes through them. -/
theorem toList_render_cons (level : Nat) (line : Line) (rest : Outline) :
    (render level (line :: rest)).toList
      = ((indentation (level + line.depth)).toList ++ line.text.toList)
        ++ '\n' :: (render level rest).toList := by
  simp [render_cons]

/-- Two outlines one below the other are rendered one behind the other. -/
theorem render_append (level : Nat) (first second : Outline) :
    render level (first ++ second) = render level first ++ render level second := by
  unfold render
  rw [List.map_append, String.join_append]

/-- The outlines of the members of a list are rendered one behind the other. -/
theorem render_flatMap {α : Type} (level : Nat) (xs : List α) (outline : α → Outline) :
    render level (xs.flatMap outline) = String.join (xs.map fun x => render level (outline x)) := by
  induction xs with
  | nil => rfl
  | cons x xs ih => rw [List.flatMap_cons, render_append, ih, List.map_cons, String.join_cons]

/-- Nesting an outline is to render it one level deeper. -/
theorem render_nested (level : Nat) (outline : Outline) :
    render level outline.nested = render (level + 1) outline := by
  unfold render nested
  rw [List.map_map]
  refine congrArg String.join (List.map_congr_left fun line _ => ?_)
  simp [Line.render, Nat.add_assoc, Nat.add_comm 1]

/-- Rendering an outline one level deeper is to indent every line of its text. -/
theorem render_succ {outline : Outline} (h : outline.Lined) (level : Nat) :
    render (level + 1) outline = indentLines (render level outline) := by
  refine String.toList_inj.1 ?_
  unfold indentLines
  rw [String.toList_ofList]
  induction outline with
  | nil => rfl
  | cons line rest ih =>
    have hrest : Lined rest := fun other hother => h other (List.mem_cons_of_mem _ hother)
    have hline : '\n' ∉ (indentation (level + line.depth)).toList ++ line.text.toList := by
      rw [List.mem_append, not_or]
      exact ⟨oneLine_indentation _, h line List.mem_cons_self⟩
    -- The first line takes its new tab from the indentation, the others by induction.
    have hdeeper : level + 1 + line.depth = level + line.depth + 1 := by omega
    rw [toList_render_cons, toList_render_cons, tabbed_line hline, ih hrest, hdeeper,
      toList_indentation_succ, List.cons_append]

/-- A text that is rendered from at least one line ends with a line break. -/
theorem getLast?_render {outline : Outline} (h : outline ≠ []) (level : Nat) :
    (render level outline).toList.getLast? = some '\n' := by
  obtain ⟨lines, last, rfl⟩ := (List.eq_nil_or_concat outline).resolve_left h
  simp [render, Line.render, String.toList_join]

end Outline

end Statechart
