/-
# Templates in several line styles

How a template is filled in does not depend on the characters that end its lines:
the same references are found, with the same names, and only their spelling follows
the style. A filled-in template is therefore a text of variable line style, in which
the line ends of the template vary and the values stay as they are.
-/

import MailMerge.Proofs.Template.Token
import MailMerge.Proofs.Text.LineStyle
import MailMerge.Template.Substitution

namespace MailMerge.Text

/-- A way to end lines: line breaks and nothing else. -/
structure IsEnding (ending : List Char) : Prop where
  nonempty : ending ≠ []
  breaks : ∀ c ∈ ending, c = '\r' ∨ c = '\n'

variable {ending : List Char}

theorem withLineEnding_append (ending first second : List Char) :
    withLineEnding ending (first ++ second) =
      withLineEnding ending first ++ withLineEnding ending second :=
  List.flatMap_append

theorem withLineEnding_feed_cons (ending rest : List Char) :
    withLineEnding ending ('\n' :: rest) = ending ++ withLineEnding ending rest := rfl

theorem withLineEnding_cons {c : Char} (plain : c ≠ '\n') (ending rest : List Char) :
    withLineEnding ending (c :: rest) = c :: withLineEnding ending rest := by
  simp [withLineEnding, plain]

theorem withLineEnding_eq_self {text : List Char} (single : '\n' ∉ text) :
    withLineEnding ending text = text := by
  induction text with
  | nil => rfl
  | cons c rest ih =>
      rw [List.mem_cons, not_or] at single
      rw [withLineEnding_cons (Ne.symm single.1), ih single.2]

/-- A text in the style that ends lines with a line feed is the text itself. -/
theorem withLineEnding_feed (text : List Char) : withLineEnding ['\n'] text = text := by
  induction text with
  | nil => rfl
  | cons c rest ih =>
      by_cases hc : c = '\n'
      · subst hc
        rw [withLineEnding_feed_cons, ih, List.singleton_append]
      · rw [withLineEnding_cons hc, ih]

/-- A run of characters goes as far in every style, when both line breaks belong to it or
neither does. -/
theorem takeWhile_withLineEnding (proper : IsEnding ending) {p : Char → Bool}
    (uniform : p '\r' = p '\n') (text : List Char) :
    (withLineEnding ending text).takeWhile p = withLineEnding ending (text.takeWhile p) ∧
      (withLineEnding ending text).dropWhile p = withLineEnding ending (text.dropWhile p) := by
  have hbreak : ∀ c ∈ ending, p c = p '\n' := fun c hc => by
    rcases proper.breaks c hc with rfl | rfl
    · exact uniform
    · rfl
  induction text with
  | nil => exact ⟨rfl, rfl⟩
  | cons c rest ih =>
      by_cases hc : c = '\n'
      · subst hc
        rw [withLineEnding_feed_cons]
        cases hp : p '\n' with
        | true =>
            have hall : ∀ c ∈ ending, p c := fun c hc => (hbreak c hc).trans hp
            rw [List.takeWhile_append_of_pos hall, List.dropWhile_append_of_pos hall,
              List.takeWhile_cons_of_pos hp, List.dropWhile_cons_of_pos hp,
              withLineEnding_feed_cons]
            exact ⟨congrArg (ending ++ ·) ih.1, ih.2⟩
        | false =>
            obtain ⟨first, others, rfl⟩ := List.exists_cons_of_ne_nil proper.nonempty
            have hfirst : p first = false := (hbreak first (by simp)).trans hp
            simp [hp, hfirst, withLineEnding]
      · rw [withLineEnding_cons hc]
        cases hp : p c with
        | true =>
            rw [List.takeWhile_cons_of_pos hp, List.dropWhile_cons_of_pos hp,
              List.takeWhile_cons_of_pos hp, List.dropWhile_cons_of_pos hp,
              withLineEnding_cons hc]
            exact ⟨congrArg (c :: ·) ih.1, ih.2⟩
        | false => simp [hp, withLineEnding, hc]

end MailMerge.Text

namespace MailMerge.Template

open MailMerge.Json MailMerge.Text

variable {ending : List Char} {markup : Markup}

/-! ## References -/

/-- A reference spelled in the style that ends lines with `ending`. -/
def Reference.withLineEnding (ending : List Char) (reference : Reference) : Reference :=
  { reference with spelling := Text.withLineEnding ending reference.spelling }

/-- A mark without line breaks stands before the same text in every style. -/
theorem afterMark?_withLineEnding (proper : IsEnding ending) {mark : List Char}
    (plain : '\r' ∉ mark) (single : '\n' ∉ mark) (text : List Char) :
    afterMark? mark (withLineEnding ending text) =
      (afterMark? mark text).map (withLineEnding ending) := by
  fun_induction afterMark? mark text with
  | case1 text => rw [afterMark?, Option.map_some]
  | case2 => rfl
  | case3 mark c text ih =>
      rw [List.mem_cons, not_or] at plain single
      rw [withLineEnding_cons (Ne.symm single.1), afterMark?, if_pos rfl, ih plain.2 single.2]
  | case4 m mark c text hne =>
      rw [List.mem_cons, not_or] at plain single
      by_cases hc : c = '\n'
      · subst hc
        obtain ⟨first, others, rfl⟩ := List.exists_cons_of_ne_nil proper.nonempty
        have hfirst : m ≠ first := by
          rintro rfl
          rcases proper.breaks m (by simp) with rfl | rfl
          · exact plain.1 rfl
          · exact single.1 rfl
        rw [withLineEnding_feed_cons, List.cons_append, afterMark?, if_neg hfirst]
        rfl
      · rw [withLineEnding_cons hc, afterMark?, if_neg hne]
        rfl

/-- The same reference is found at the front of a text in every style. -/
theorem scan_withLineEnding (markup : Markup) (proper : IsEnding ending) (text : List Char) :
    markup.scan (withLineEnding ending text) =
      (markup.scan text).map fun (reference, rest) =>
        (reference.withLineEnding ending, withLineEnding ending rest) := by
  have hopening : '\r' ∉ markup.opening ∧ '\n' ∉ markup.opening := by cases markup <;> decide
  have hclosing : '\r' ∉ markup.closing ∧ '\n' ∉ markup.closing := by cases markup <;> decide
  have hpadding : markup.isPadding '\r' = markup.isPadding '\n' := by cases markup <;> decide
  have hname : markup.isNameChar '\r' = false ∧ markup.isNameChar '\n' = false := by
    cases markup <;> decide
  have huniform : markup.isNameChar '\r' = markup.isNameChar '\n' := hname.1.trans hname.2.symm
  have hplainName (inside : List Char) : '\n' ∉ inside.takeWhile markup.isNameChar := fun hmem => by
    have hmem := List.all_eq_true.1 List.all_takeWhile '\n' hmem
    rw [hname.2] at hmem
    cases hmem
  unfold Markup.scan
  rw [afterMark?_withLineEnding proper hopening.1 hopening.2]
  cases afterMark? markup.opening text with
  | none => rfl
  | some inside =>
      simp only [Option.map_some, Option.bind_eq_bind, Option.bind_some,
        (takeWhile_withLineEnding proper hpadding _).1,
        (takeWhile_withLineEnding proper hpadding _).2,
        (takeWhile_withLineEnding proper huniform _).1,
        (takeWhile_withLineEnding proper huniform _).2,
        afterMark?_withLineEnding proper hclosing.1 hclosing.2,
        withLineEnding_eq_self (hplainName _)]
      cases afterMark? markup.closing (((inside.dropWhile markup.isPadding).dropWhile
          markup.isNameChar).dropWhile markup.isPadding) with
      | none => rfl
      | some rest =>
          simp only [Option.map_some, Option.bind_some]
          split
          · simp only [Option.map_some, Reference.withLineEnding, withLineEnding_append,
              withLineEnding_eq_self hopening.2, withLineEnding_eq_self hclosing.2,
              withLineEnding_eq_self (hplainName _)]
          · rfl

/-! ## Pieces -/

/-- A piece in the style that ends lines with `ending`. -/
def Piece.withLineEnding (ending : List Char) : Piece → List Piece
  | .literal c => (Text.withLineEnding ending [c]).map .literal
  | .reference found => [.reference (found.withLineEnding ending)]

/-- No reference begins with a line break. -/
theorem pieces_append_of_breaks (breaks : ∀ c ∈ ending, c = '\r' ∨ c = '\n') (rest : List Char) :
    pieces markup (ending ++ rest) = ending.map .literal ++ pieces markup rest := by
  induction ending with
  | nil => rfl
  | cons c others ih =>
      have absent : markup.scan (c :: (others ++ rest)) = none := by
        rcases breaks c (by simp) with rfl | rfl <;> cases markup <;>
          simp [Markup.scan, Markup.opening, afterMark?]
      rw [List.cons_append, pieces_cons_of_scan absent,
        ih fun d hd => breaks d (List.mem_cons_of_mem _ hd)]
      rfl

/-- A text has the same pieces in every style, each in that style. -/
theorem pieces_withLineEnding (proper : IsEnding ending) (text : List Char) :
    pieces markup (withLineEnding ending text) =
      (pieces markup text).flatMap (Piece.withLineEnding ending) := by
  fun_induction pieces markup text with
  | case1 => rw [withLineEnding, List.flatMap_nil, pieces, List.flatMap_nil]
  | case2 c rest reference after found _ ih =>
      have hfound := scan_withLineEnding markup proper (c :: rest)
      rw [found, Option.map_some] at hfound
      rw [pieces_of_scan hfound, ih, List.flatMap_cons]
      rfl
  | case3 c rest absent ih =>
      rw [List.flatMap_cons, Piece.withLineEnding, ← ih]
      by_cases hc : c = '\n'
      · subst hc
        rw [withLineEnding_feed_cons, pieces_append_of_breaks proper.breaks,
          withLineEnding_feed_cons]
        simp [withLineEnding]
      · have habsent := scan_withLineEnding markup proper (c :: rest)
        rw [absent, Option.map_none, withLineEnding_cons hc] at habsent
        rw [withLineEnding_cons hc, pieces_cons_of_scan habsent, withLineEnding_cons hc]
        rfl

/-! ## Filled-in templates -/

/-- The glyph of a character of the template. -/
def templateGlyph (c : Char) : Glyph :=
  if c = '\n' then .lineEnd else .char c

/-- What stands in place of a reference, in variable line style: the value is the same in every
style, and a reference that stays is spelled in the style of the template. -/
def Reference.glyphs (markup : Markup) (values : Values) (reference : Reference) : List Glyph :=
  match values.atPath? (markup.path reference.name) with
  | some value =>
    if markup.isReserved reference.name then reference.spelling.map templateGlyph
    else (rendering value).map .char
  | none => reference.spelling.map templateGlyph

/-- What stands in place of a piece, in variable line style. -/
def Piece.glyphs (markup : Markup) (values : Values) : Piece → List Glyph
  | .literal c => [templateGlyph c]
  | .reference found => found.glyphs markup values

/-- A filled-in template in variable line style. -/
def templateGlyphs (markup : Markup) (values : Option Values) (text : List Char) : List Glyph :=
  match values with
  | some values => (pieces markup text).flatMap (Piece.glyphs markup values)
  | none => text.map templateGlyph

theorem writeGlyphs_map_templateGlyph (ending text : List Char) :
    writeGlyphs ending (text.map templateGlyph) = withLineEnding ending text := by
  rw [writeGlyphs, List.flatMap_map, withLineEnding]
  apply List.flatMap_congr
  intro c _
  unfold templateGlyph
  split <;> rfl

theorem writeGlyphs_map_char (ending text : List Char) :
    writeGlyphs ending (text.map .char) = text := by
  rw [writeGlyphs, List.flatMap_map]
  exact List.flatMap_singleton' text

theorem writeGlyphs_referenceGlyphs (values : Values) (reference : Reference) :
    writeGlyphs ending (reference.glyphs markup values) =
      (reference.withLineEnding ending).fill markup values := by
  obtain ⟨spelling, name⟩ := reference
  unfold Reference.glyphs Reference.fill Reference.withLineEnding
  dsimp only
  cases values.atPath? (markup.path name) with
  | none => exact writeGlyphs_map_templateGlyph ..
  | some value =>
      by_cases hreserved : markup.isReserved name
      · simp only [if_pos hreserved]
        exact writeGlyphs_map_templateGlyph ..
      · simp only [if_neg hreserved]
        exact writeGlyphs_map_char ..

theorem writeGlyphs_pieceGlyphs (values : Values) (piece : Piece) :
    writeGlyphs ending (piece.glyphs markup values) =
      (piece.withLineEnding ending).flatMap (Piece.fill markup values) := by
  cases piece with
  | literal c =>
      rw [Piece.withLineEnding, List.flatMap_map]
      have hfill : (Text.withLineEnding ending [c]).flatMap
          (fun c => Piece.fill markup values (.literal c)) = Text.withLineEnding ending [c] :=
        List.flatMap_singleton' _
      rw [hfill]
      exact writeGlyphs_map_templateGlyph ending [c]
  | reference found =>
      rw [Piece.withLineEnding, List.flatMap_singleton]
      exact writeGlyphs_referenceGlyphs values found

/-- Rendering a template in some style unifies the filled-in template in that style. -/
theorem toList_render_withLineEnding (proper : IsEnding ending) (text : List Char)
    (values : Option Values) :
    (render markup (String.ofList (withLineEnding ending text)) values).toList =
      unifyLineEndings (writeGlyphs ending (templateGlyphs markup values text)) := by
  cases values with
  | none =>
      simp only [render, normalizeLineEndings, String.toList_ofList, templateGlyphs,
        writeGlyphs_map_templateGlyph]
  | some values =>
      simp only [render, normalizeLineEndings, substitute, String.toList_ofList, templateGlyphs,
        pieces_withLineEnding proper]
      congr 1
      rw [writeGlyphs, List.flatMap_assoc, List.flatMap_assoc]
      apply List.flatMap_congr
      intro piece _
      exact (writeGlyphs_pieceGlyphs values piece).symm

end MailMerge.Template
