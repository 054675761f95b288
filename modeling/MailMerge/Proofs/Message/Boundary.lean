/-
# Where the header block ends

Values that stay on one line and are not empty cannot move the line at which the
headers of a template end. Such a template can be filled in line by line: the lines of
the rendered template are those of the template, each filled in on its own, and no
line becomes empty or stops being so. What composition takes for header block and body
are therefore the header block and the body of the template, filled in.
-/

import MailMerge.Message.Composition
import MailMerge.Proofs.Json.Printer
import MailMerge.Proofs.Template.Lines

namespace MailMerge.Template

open MailMerge.Json MailMerge.Text

/-- A value that fills its place on a line: it is not null, and a string among such values holds
something and no line break. -/
def FillsPlace : Value → Prop
  | .null => False
  | .string s => s.toList ≠ [] ∧ Unbroken s.toList
  | _ => True

/-- A template whose references keep its lines: no placeholder is spelled over a line end, and
every value that stands in place of a reference fills its place. -/
structure KeepsLines (markup : Markup) (values : Values) (text : String) : Prop where
  spelledInLine : markup = .placeholder →
    ∀ reference, .reference reference ∈ pieces markup text.toList → Unbroken reference.spelling
  filledInLine : ∀ reference, .reference reference ∈ pieces markup text.toList →
    ¬ IsReserved markup reference.name →
      ∀ target, Leads values markup reference.name target → FillsPlace target

instance (value : Value) : Decidable (FillsPlace value) :=
  match value with
  | .null => inferInstanceAs (Decidable False)
  | .string s => inferInstanceAs (Decidable (s.toList ≠ [] ∧ Unbroken s.toList))
  | .bool _ | .number _ | .array _ | .object _ => inferInstanceAs (Decidable True)

/-- The test for one piece of such a template. -/
def Piece.keepsLine (markup : Markup) (values : Values) : Piece → Bool
  | .literal _ => true
  | .reference found =>
      (markup != .placeholder || decide (Unbroken found.spelling)) &&
        (decide (IsReserved markup found.name) ||
          (values.atPath? (markup.path found.name)).all fun target => decide (FillsPlace target))

/-- A text with its references filled in, as characters. -/
def filledIn (markup : Markup) (values : Values) (text : List Char) : List Char :=
  (substitute markup (String.ofList text) values).toList

variable {markup : Markup} {values : Values} {text : String}

theorem keepsLines_iff : KeepsLines markup values text ↔
    (pieces markup text.toList).all (Piece.keepsLine markup values) := by
  rw [List.all_eq_true]
  refine ⟨fun keeps piece hmem => ?_, fun keeps => ⟨?_, ?_⟩⟩
  · cases piece with
    | literal c => rfl
    | reference reference =>
        rw [Piece.keepsLine, Bool.and_eq_true, Bool.or_eq_true, Bool.or_eq_true, bne_iff_ne,
          decide_eq_true_iff, decide_eq_true_iff, Option.all_eq_true]
        refine ⟨?_, ?_⟩
        · exact Decidable.not_or_of_imp (keeps.spelledInLine · reference hmem)
        · refine Decidable.or_iff_not_imp_left.2 fun free target leads => ?_
          exact decide_eq_true (keeps.filledInLine reference hmem free target
            (atPath?_path_eq_some_iff.1 leads))
  · intro hmarkup reference hmem
    have hpiece := keeps _ hmem
    simp_all [Piece.keepsLine]
  · intro reference hmem free target leads
    have hpiece := keeps _ hmem
    simp_all [Piece.keepsLine, ← atPath?_path_eq_some_iff]

instance (markup : Markup) (values : Values) (text : String) :
    Decidable (KeepsLines markup values text) :=
  decidable_of_iff _ keepsLines_iff.symm

/-- A value that fills its place has a text that does. -/
theorem FillsPlace.of_renders {value : Value} {text : List Char} (fills : FillsPlace value)
    (renders : Renders value text) : text ≠ [] ∧ Unbroken text := by
  cases renders with
  | null => cases fills
  | string text => exact fills
  | json => exact ⟨Value.write_ne_nil _, Value.unbroken_write _⟩

/-- A reference in brackets holds no line break. -/
theorem IsToken.unbroken_spelling {reference : Reference} (token : IsToken .bracket reference) :
    Unbroken reference.spelling := by
  obtain ⟨before, behind, hbefore, hbehind, run, hspelling⟩ := isToken_iff.1 token
  have hpadding {padding : List Char} (inside : ∀ c ∈ padding, Markup.bracket.isPadding c) :
      Unbroken padding :=
    unbroken_of_forall ⟨rfl, rfl⟩ inside
  rw [hspelling]
  simp only [unbroken_append]
  exact ⟨⟨⟨⟨by decide, hpadding hbefore⟩, unbroken_of_forall (by decide) run.chars⟩,
    hpadding hbehind⟩, by decide⟩

namespace KeepsLines

theorem unbroken_spelling (keeps : KeepsLines markup values text) {reference : Reference}
    (hmem : .reference reference ∈ pieces markup text.toList) : Unbroken reference.spelling := by
  cases markup with
  | placeholder => exact keeps.spelledInLine rfl reference hmem
  | bracket => exact ((isDivision_pieces _ _).tokens reference hmem).unbroken_spelling

theorem spelling (keeps : KeepsLines markup values text) :
    WritesInLine Piece.spelling (pieces markup text.toList) :=
  (isDivision_pieces markup text.toList).writesInLine fun _ hmem => keeps.unbroken_spelling hmem

/-- What stands in place of a reference is a filled value or the reference as it is spelled. -/
theorem fill (keeps : KeepsLines markup values text) :
    WritesInLine (Piece.fill markup values) (pieces markup text.toList) := by
  have hreference {reference : Reference}
      (hmem : .reference reference ∈ pieces markup text.toList) :
      Piece.fill markup values (.reference reference) ≠ [] ∧
        Unbroken (Piece.fill markup values (.reference reference)) := by
    have becomes : (Piece.reference reference).Becomes markup values
        (Piece.fill markup values (.reference reference)) := becomes_iff.2 rfl
    generalize Piece.fill markup values (.reference reference) = filled at becomes ⊢
    cases becomes with
    | filled leads free renders =>
        exact (keeps.filledInLine reference hmem free _ leads).of_renders renders
    | kept => exact ⟨keeps.spelling.filled reference hmem, keeps.unbroken_spelling hmem⟩
  exact ⟨fun c => rfl, fun reference hmem => (hreference hmem).1,
    fun reference hmem => (hreference hmem).2⟩

end KeepsLines

theorem filledIn_eq (markup : Markup) (values : Values) (text : List Char) :
    filledIn markup values text = (pieces markup text).flatMap (Piece.fill markup values) := by
  simp only [filledIn, substitute, String.toList_ofList]

/-! ## Filling in line by line -/

/-- The pieces of a text that keep their lines, both as they are spelled and filled in. -/
structure LineDivision (markup : Markup) (values : Values) (division : List Piece) : Prop where
  divided : IsDivision markup division
  spelling : WritesInLine Piece.spelling division
  filling : WritesInLine (Piece.fill markup values) division

/-- A template that keeps its lines is such a text once its line endings are unified. What is
rendered is this text with its pieces filled in. -/
theorem KeepsLines.exists_lineDivision (keeps : KeepsLines markup values text) :
    ∃ division, LineDivision markup values division ∧
      (normalizeLineEndings text).toList = spelled division ∧
      (render markup text (some values)).toList =
        division.flatMap (Piece.fill markup values) := by
  refine ⟨unifyPieces (pieces markup text.toList), ⟨?_, ?_, ?_⟩, ?_, ?_⟩
  · exact (isDivision_pieces markup text.toList).unifyPieces fun _ hmem =>
      keeps.unbroken_spelling hmem
  · exact keeps.spelling.unifyPieces
  · exact keeps.fill.unifyPieces
  · rw [normalizeLineEndings, String.toList_ofList, spelled,
      ← keeps.spelling.unifyLineEndings_flatMap]
    exact congrArg unifyLineEndings (spelled_pieces markup text.toList).symm
  · rw [render, normalizeLineEndings, String.toList_ofList, substitute, String.toList_ofList,
      keeps.fill.unifyLineEndings_flatMap]

namespace LineDivision

variable {division : List Piece}

theorem of_infix (kept : LineDivision markup values division) {stretch : List Piece}
    (inside : stretch <:+: division) : LineDivision markup values stretch where
  divided := kept.divided.of_infix inside
  spelling := kept.spelling.of_subset inside.subset
  filling := kept.filling.of_subset inside.subset

/-- The pieces are filled in where their text is. -/
theorem filledIn_spelled (kept : LineDivision markup values division) :
    filledIn markup values (spelled division) =
      division.flatMap (Piece.fill markup values) := by
  rw [filledIn_eq, pieces_spelled kept.divided]

/-- Each line is filled in on its own. -/
theorem partsAt_filledIn (kept : LineDivision markup values division) :
    partsAt '\n' (filledIn markup values (spelled division)) =
      (partsAt '\n' (spelled division)).map (filledIn markup values) := by
  rw [kept.filledIn_spelled, kept.filling.partsAt_flatMap, spelled,
    kept.spelling.partsAt_flatMap, List.map_map]
  apply List.map_congr_left
  intro line hline
  exact (kept.of_infix (infix_of_mem_pieceLines hline)).filledIn_spelled.symm

/-- The same lines are empty. -/
theorem filledIn_eq_nil_iff (kept : LineDivision markup values division) {line : List Char}
    (hline : line ∈ partsAt '\n' (spelled division)) :
    filledIn markup values line = [] ↔ line = [] := by
  rw [spelled, kept.spelling.partsAt_flatMap] at hline
  obtain ⟨line, hmem, rfl⟩ := List.mem_map.1 hline
  have keptLine := kept.of_infix (infix_of_mem_pieceLines hmem)
  rw [← spelled, keptLine.filledIn_spelled, keptLine.filling.flatMap_eq_nil_iff, spelled,
    keptLine.spelling.flatMap_eq_nil_iff]

/-- The first empty line behind another one divides the text into stretches of its pieces. -/
theorem exists_of_splitAtEmptyLine (kept : LineDivision markup values division)
    {block body : List Char} (hsplit : splitAtEmptyLine (spelled division) = some (block, body)) :
    ∃ before after, splitPieces division = some (before, after) ∧
      spelled before = block ∧ spelled after = body ∧
      LineDivision markup values before ∧ LineDivision markup values after := by
  rw [spelled, kept.spelling.splitAtEmptyLine_flatMap] at hsplit
  obtain ⟨⟨before, after⟩, hsides, heq⟩ := Option.map_eq_some_iff.1 hsplit
  obtain ⟨hblock, hbody⟩ := Prod.mk.inj heq
  have hdivision := eq_append_of_splitPieces hsides
  refine ⟨before, after, hsides, hblock, hbody, kept.of_infix ?_, kept.of_infix ?_⟩
  · rw [hdivision]
    exact (List.prefix_append ..).isInfix
  · rw [hdivision]
    exact ⟨before ++ [.literal '\n', .literal '\n'], [], by simp⟩

/-- The first empty line stays where it is, and both sides are filled in on their own. -/
theorem splitAtEmptyLine_filledIn (kept : LineDivision markup values division) :
    splitAtEmptyLine (filledIn markup values (spelled division)) =
      (splitAtEmptyLine (spelled division)).map fun (block, body) =>
        (filledIn markup values block, filledIn markup values body) := by
  rw [kept.filledIn_spelled, kept.filling.splitAtEmptyLine_flatMap]
  cases hsplit : splitAtEmptyLine (spelled division) with
  | none =>
      rw [spelled, kept.spelling.splitAtEmptyLine_flatMap, Option.map_eq_none_iff] at hsplit
      rw [hsplit]
      rfl
  | some sides =>
      obtain ⟨block, body⟩ := sides
      obtain ⟨before, after, hsides, rfl, rfl, keptBefore, keptAfter⟩ :=
        kept.exists_of_splitAtEmptyLine hsplit
      simp only [hsides, Option.map_some, keptBefore.filledIn_spelled,
        keptAfter.filledIn_spelled]

end LineDivision

end MailMerge.Template

namespace MailMerge.Message

open MailMerge.Json MailMerge.Template MailMerge.Text

variable {markup : Markup} {values : Values} {text : String}

/-- A template that keeps its lines is rendered line by line, with the same lines empty. Its first
empty line behind another line stays where it is, so that header block and body are filled in
apart from each other. -/
theorem render_of_keepsLines (keeps : KeepsLines markup values text)
    {given rendered : List Char} (hgiven : (normalizeLineEndings text).toList = given)
    (hrendered : (render markup text (some values)).toList = rendered) :
    partsAt '\n' rendered = (partsAt '\n' given).map (filledIn markup values) ∧
      (∀ line ∈ partsAt '\n' given, filledIn markup values line = [] ↔ line = []) ∧
      splitAtEmptyLine rendered = (splitAtEmptyLine given).map (fun (block, body) =>
        (filledIn markup values block, filledIn markup values body)) ∧
      (∀ block body, splitAtEmptyLine given = some (block, body) →
        partsAt '\n' (filledIn markup values block) =
          (partsAt '\n' block).map (filledIn markup values)) ∧
      divide rendered =
        (filledIn markup values (divide given).1, filledIn markup values (divide given).2) := by
  obtain ⟨division, kept, hspelled, hfilled⟩ := keeps.exists_lineDivision
  obtain rfl : given = spelled division := hgiven.symm.trans hspelled
  obtain rfl : rendered = filledIn markup values (spelled division) := by
    rw [← hrendered, hfilled, kept.filledIn_spelled]
  refine ⟨kept.partsAt_filledIn, fun line hline => kept.filledIn_eq_nil_iff hline,
    kept.splitAtEmptyLine_filledIn, ?_, ?_⟩
  · intro block body hsplit
    obtain ⟨before, after, -, rfl, -, keptBefore, -⟩ := kept.exists_of_splitAtEmptyLine hsplit
    exact keptBefore.partsAt_filledIn
  · have hempty : filledIn markup values [] = [] := by
      rw [filledIn_eq, pieces]
      rfl
    rw [divide, divide, kept.splitAtEmptyLine_filledIn]
    cases splitAtEmptyLine (spelled division) with
    | none => rw [Option.map_none, Option.getD_none, Option.getD_none, hempty]
    | some sides => rfl

/-- A template in which line endings of all kinds stand next to references. -/
def bulletinTemplate : String :=
  "To: [to]\r\nFrom: b@x.com\rSubject: [issue]\n\n[/tags/0]\r\n\r\n[tags]\r"

/-- Values for this template that keep its lines. -/
def bulletinValues : Values :=
  ⟨[("to", .string "a@x.com"), ("issue", .number (.integer ⟨7, by decide⟩)),
    ("tags", .array [.string "new", .string "\r\n"])]⟩

theorem render_of_keepsLines_bulletin :
    KeepsLines .bracket bulletinValues bulletinTemplate ∧
      divide (render .bracket bulletinTemplate (some bulletinValues)).toList =
        ("To: a@x.com\nFrom: b@x.com\nSubject: 7".toList,
          "new\n\n[\"new\",\"\\r\\n\"]\n".toList) := by
  have keeps : KeepsLines .bracket bulletinValues bulletinTemplate := by decide +kernel
  refine ⟨keeps, ?_⟩
  rw [(render_of_keepsLines keeps rfl rfl).2.2.2.2]
  decide +kernel

end MailMerge.Message
