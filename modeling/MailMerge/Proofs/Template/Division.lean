/-
# The division of a template

A template divides into references and characters between them in exactly one way,
when no reference may begin at a character that is left between. Reading from left to
right finds this division. Filling a template in replaces each of its references on
its own, so that what is filled in is never read again.
-/

import Mathlib.Data.List.Forall2
import MailMerge.Proofs.Template.Lookup
import MailMerge.Proofs.Template.Token
import MailMerge.Template.Substitution

namespace MailMerge.Template

open MailMerge.Json MailMerge.Text

/-- A piece as it is spelled. -/
def Piece.spelling : Piece → List Char
  | .literal c => [c]
  | .reference found => found.spelling

/-- The text that pieces spell. -/
def spelled (division : List Piece) : List Char :=
  division.flatMap Piece.spelling

/-- A row of references with characters between them, at none of which a reference begins. -/
structure IsDivision (markup : Markup) (division : List Piece) : Prop where
  tokens : ∀ reference, .reference reference ∈ division → IsToken markup reference
  leftmost : ∀ before c after, division = before ++ .literal c :: after →
    ∀ reference, IsToken markup reference →
      ¬ reference.spelling <+: spelled (.literal c :: after)

/-- The text of a value in a template: nothing for null, a string as it is, and the JSON text of
every other value. -/
inductive Renders : Value → List Char → Prop where
  | null : Renders .null []
  | string (text : String) : Renders (.string text) text.toList
  | json {value : Value} (given : value ≠ .null) (other : ∀ text, value ≠ .string text) :
      Renders value value.write

/-- What stands in place of a piece: the value that a reference leads to, unless this is reserved,
and every other piece as it is spelled. -/
inductive Piece.Becomes (markup : Markup) (values : Values) : Piece → List Char → Prop where
  | literal (c : Char) : Becomes markup values (.literal c) [c]
  | filled {reference : Reference} {target : Value} {text : List Char}
      (leads : Leads values markup reference.name target)
      (free : ¬ IsReserved markup reference.name) (renders : Renders target text) :
      Becomes markup values (.reference reference) text
  | kept {reference : Reference}
      (stays : IsReserved markup reference.name ∨
        ∀ target, ¬ Leads values markup reference.name target) :
      Becomes markup values (.reference reference) reference.spelling

/-! ## Divisions -/

section Divisions

variable {markup : Markup} {division : List Piece}

theorem spelled_cons (piece : Piece) (division : List Piece) :
    spelled (piece :: division) = piece.spelling ++ spelled division :=
  List.flatMap_cons

theorem spelled_append (first second : List Piece) :
    spelled (first ++ second) = spelled first ++ spelled second :=
  List.flatMap_append

/-- A stretch of a division is a division: what begins in the stretch begins in the whole. -/
theorem IsDivision.of_infix {stretch : List Piece} (divided : IsDivision markup division)
    (inside : stretch <:+: division) : IsDivision markup stretch := by
  refine ⟨fun reference hmem => divided.tokens reference (inside.subset hmem), ?_⟩
  intro before c after heq reference token hfront
  obtain ⟨front, back, hdivision⟩ := inside
  have hwhole : division = (front ++ before) ++ .literal c :: (after ++ back) := by
    rw [← hdivision, heq]
    simp only [List.append_assoc, List.cons_append]
  refine divided.leftmost _ c _ hwhole reference token (hfront.trans ?_)
  rw [← List.cons_append, spelled_append]
  exact List.prefix_append ..

/-- A character before a division makes a division when no reference begins with it. -/
theorem IsDivision.cons_literal (divided : IsDivision markup division) {c : Char}
    (free : ∀ reference, IsToken markup reference →
      ¬ reference.spelling <+: spelled (.literal c :: division)) :
    IsDivision markup (.literal c :: division) := by
  refine ⟨fun reference hmem => divided.tokens reference (by simpa using hmem), ?_⟩
  intro before d after heq
  cases before with
  | nil =>
      cases heq
      exact free
  | cons piece before => exact divided.leftmost before d after (List.cons.inj heq).2

/-- A reference before a division makes a division. -/
theorem IsDivision.cons_reference (divided : IsDivision markup division) {reference : Reference}
    (token : IsToken markup reference) : IsDivision markup (.reference reference :: division) := by
  constructor
  · intro other hmem
    rcases List.mem_cons.1 hmem with heq | hmem
    · cases heq
      exact token
    · exact divided.tokens other hmem
  · intro before c after heq
    cases before with
    | nil => cases heq
    | cons piece before => exact divided.leftmost before c after (List.cons.inj heq).2

theorem spelled_pieces (markup : Markup) (text : List Char) :
    spelled (pieces markup text) = text := by
  fun_induction pieces markup text with
  | case1 => rfl
  | case2 c rest reference after found _ ih =>
      obtain ⟨-, heq⟩ := scan_eq_some_iff.1 found
      rw [spelled_cons, ih, heq]
      rfl
  | case3 c rest absent ih =>
      rw [spelled_cons, ih]
      rfl

theorem isDivision_pieces (markup : Markup) (text : List Char) :
    IsDivision markup (pieces markup text) := by
  fun_induction pieces markup text with
  | case1 => exact ⟨by simp, fun before c after heq => by simp at heq⟩
  | case2 c rest reference after found _ ih =>
      exact ih.cons_reference (scan_eq_some_iff.1 found).1
  | case3 c rest absent ih =>
      apply ih.cons_literal
      rw [spelled_cons, spelled_pieces]
      exact scan_eq_none_iff.1 absent

/-- Reading the text of a division from left to right finds the division again. -/
theorem pieces_spelled (divided : IsDivision markup division) :
    pieces markup (spelled division) = division := by
  induction division with
  | nil => rw [spelled, List.flatMap_nil, pieces]
  | cons piece division ih =>
      have hrest := ih (divided.of_infix (List.infix_cons (List.infix_refl _)))
      cases piece with
      | literal c =>
          have absent : markup.scan (c :: spelled division) = none :=
            scan_eq_none_iff.2 (divided.leftmost [] c division rfl)
          rw [spelled_cons, Piece.spelling, List.singleton_append, pieces_cons_of_scan absent,
            hrest]
      | reference found =>
          have token := divided.tokens found (by simp)
          rw [spelled_cons, Piece.spelling, pieces_of_scan (scan_eq_some_iff.2 ⟨token, rfl⟩), hrest]

/-- A text has one division. -/
theorem isDivision_and_spelled_eq_iff {text : List Char} :
    IsDivision markup division ∧ spelled division = text ↔ division = pieces markup text := by
  constructor
  · rintro ⟨divided, rfl⟩
    exact (pieces_spelled divided).symm
  · rintro rfl
    exact ⟨isDivision_pieces markup text, spelled_pieces markup text⟩

end Divisions

/-! ## Filling in -/

/-- A value has one text. -/
theorem renders_iff {value : Value} {text : List Char} :
    Renders value text ↔ text = rendering value := by
  constructor
  · rintro (_ | text | ⟨given, other⟩)
    · rfl
    · rfl
    · cases value with
      | null => exact absurd rfl given
      | string text => exact absurd rfl (other text)
      | bool | number | array | object => rfl
  · rintro rfl
    cases value with
    | null => exact .null
    | string text => exact .string text
    | bool | number | array | object => exact .json nofun nofun

section Filling

variable {markup : Markup} {values : Values}

/-- A reference that leads to a value outside the reserved entry is filled in with its text. -/
theorem Reference.fill_of_leads {found : Reference} {target : Value}
    (leads : Leads values markup found.name target) (free : ¬ IsReserved markup found.name) :
    found.fill markup values = rendering target := by
  rw [Reference.fill, atPath?_path_eq_some_iff.2 leads]
  exact if_neg fun reserved => free (isReserved_iff.1 reserved)

/-- Every other reference stays as it is spelled. -/
theorem Reference.fill_of_stays {found : Reference}
    (stays : IsReserved markup found.name ∨
      ∀ target, ¬ Leads values markup found.name target) :
    found.fill markup values = found.spelling := by
  unfold Reference.fill
  split
  · next target hfound =>
    have leads := atPath?_path_eq_some_iff.1 hfound
    have reserved := stays.resolve_right fun lost => lost target leads
    exact if_pos (isReserved_iff.2 reserved)
  · rfl

/-- Filling in a piece gives what stands in its place, and nothing else stands there. -/
theorem becomes_iff {piece : Piece} {text : List Char} :
    piece.Becomes markup values text ↔ text = piece.fill markup values := by
  constructor
  · rintro (_ | ⟨leads, free, renders⟩ | stays)
    · rfl
    · rw [renders_iff.1 renders, Piece.fill, Reference.fill_of_leads leads free]
    · rw [Piece.fill, Reference.fill_of_stays stays]
  · rintro rfl
    cases piece with
    | literal c => exact .literal c
    | reference found =>
        rw [Piece.fill]
        by_cases stays : IsReserved markup found.name ∨
          ∀ target, ¬ Leads values markup found.name target
        · rw [Reference.fill_of_stays stays]
          exact .kept stays
        · simp only [not_or, not_forall, not_not] at stays
          obtain ⟨free, target, leads⟩ := stays
          rw [Reference.fill_of_leads leads free]
          exact .filled leads free (renders_iff.2 rfl)

theorem forall₂_becomes_iff {division : List Piece} {texts : List (List Char)} :
    List.Forall₂ (Piece.Becomes markup values) division texts ↔
      texts = division.map (Piece.fill markup values) := by
  have hrelation : Piece.Becomes markup values = fun piece text =>
      text = piece.fill markup values := by
    ext piece text
    exact becomes_iff
  rw [hrelation]
  induction division generalizing texts with
  | nil => simp
  | cons piece division ih => cases texts <;> simp [ih]

/-- A text that pieces divide is filled in piece by piece. -/
theorem substitute_spelled_of_isDivision {division : List Piece}
    (divided : IsDivision markup division) (values : Values) :
    substitute markup (String.ofList (spelled division)) values =
      String.ofList (division.flatMap (Piece.fill markup values)) := by
  rw [substitute, String.toList_ofList, pieces_spelled divided]

/-- Without any values a piece stays as it is spelled. -/
theorem fill_empty (markup : Markup) (piece : Piece) :
    piece.fill markup Values.empty = piece.spelling := by
  cases piece with
  | literal c => rfl
  | reference found =>
      have hnone (path : List (List Char)) : Values.empty.atPath? path = none := by
        cases path <;> rfl
      rw [Piece.fill, Reference.fill, hnone]
      rfl

end Filling

/-- A text divides into references and characters in exactly one way, and filling it in replaces
each piece of this division by what stands in its place, in order and without reading it again.
Without values it stays as it is. -/
theorem substitute_division (markup : Markup) (text : String) :
    ∃ division : List Piece,
      (∀ other, IsDivision markup other ∧ spelled other = text.toList ↔ other = division) ∧
      (∀ values, ∃ texts,
        (∀ others, List.Forall₂ (Piece.Becomes markup values) division others ↔
          others = texts) ∧
        (substitute markup text values).toList = texts.flatten) ∧
      substitute markup text Values.empty = text := by
  refine ⟨pieces markup text.toList, fun other => isDivision_and_spelled_eq_iff,
    fun values => ⟨_, fun others => forall₂_becomes_iff, ?_⟩, ?_⟩
  · rw [substitute, String.toList_ofList, List.flatMap_def]
  · have hfill : Piece.fill markup Values.empty = Piece.spelling :=
      funext (fill_empty markup)
    have hspelled := spelled_pieces markup text.toList
    rw [substitute, hfill, ← spelled, hspelled, String.ofList_toList]

end MailMerge.Template
