/-
# Lines of a template

Pieces that are written without line breaks and never as nothing keep the lines of a
template: unifying the line endings, dividing into lines and dividing at the first
empty line can all be done on the pieces, however these are written. What comes out of
a division this way is again one, so that its pieces are found in its text again.
-/

import MailMerge.Proofs.Template.Division

namespace MailMerge.Template

open MailMerge.Json MailMerge.Text

/-! ## Lines of pieces -/

/-- Pieces with every line ending between references written as a line feed. -/
def unifyPieces : List Piece → List Piece
  | [] => []
  | .literal '\r' :: .literal '\n' :: rest => .literal '\n' :: unifyPieces rest
  | .literal '\r' :: rest => .literal '\n' :: unifyPieces rest
  | piece :: rest => piece :: unifyPieces rest

/-- Pieces divided at every line feed. -/
def pieceLines : List Piece → List (List Piece)
  | [] => [[]]
  | piece :: rest =>
    if piece = .literal '\n' then [] :: pieceLines rest
    else (pieceLines rest).modifyHead (piece :: ·)

/-- Pieces divided at the first two line feeds in a row. -/
def splitPieces : List Piece → Option (List Piece × List Piece)
  | [] => none
  | .literal '\n' :: .literal '\n' :: rest => some ([], rest)
  | piece :: rest => (splitPieces rest).map fun (before, after) => (piece :: before, after)

/-- A way to write pieces that keeps the characters, and writes every reference as a text without
line breaks that is not empty. -/
structure WritesInLine (write : Piece → List Char) (division : List Piece) : Prop where
  literal : ∀ c, write (.literal c) = [c]
  filled : ∀ reference, .reference reference ∈ division → write (.reference reference) ≠ []
  unbroken : ∀ reference, .reference reference ∈ division →
    Unbroken (write (.reference reference))

namespace WritesInLine

variable {write : Piece → List Char} {division : List Piece}

theorem of_subset (inLine : WritesInLine write division) {others : List Piece}
    (subset : others ⊆ division) : WritesInLine write others where
  literal := inLine.literal
  filled reference hmem := inLine.filled reference (subset hmem)
  unbroken reference hmem := inLine.unbroken reference (subset hmem)

theorem tail {piece : Piece} (inLine : WritesInLine write (piece :: division)) :
    WritesInLine write division :=
  inLine.of_subset (List.subset_cons_self ..)

/-- Nothing is written only for no pieces. -/
theorem flatMap_eq_nil_iff (inLine : WritesInLine write division) :
    division.flatMap write = [] ↔ division = [] := by
  cases division with
  | nil => simp
  | cons piece division =>
      have hpiece : write piece ≠ [] := by
        cases piece with
        | literal c => simp [inLine.literal]
        | reference found => exact inLine.filled found (by simp)
      simp [hpiece]

/-- Only a line feed is written with a line feed in front. -/
theorem head?_eq (inLine : WritesInLine write division)
    (hhead : (division.flatMap write).head? = some '\n') :
    ∃ rest, division = .literal '\n' :: rest := by
  cases division with
  | nil => cases hhead
  | cons piece rest =>
      cases piece with
      | literal c =>
          rw [List.flatMap_cons, inLine.literal] at hhead
          cases hhead
          exact ⟨rest, rfl⟩
      | reference found =>
          obtain ⟨c, others, heq⟩ := List.exists_cons_of_ne_nil (inLine.filled found (by simp))
          have hplain := inLine.unbroken found (by simp)
          rw [List.flatMap_cons, heq] at hhead
          rw [heq, unbroken_cons] at hplain
          exact absurd (Option.some.inj hhead) hplain.1.2

theorem unifyLineEndings_flatMap (inLine : WritesInLine write division) :
    unifyLineEndings (division.flatMap write) = (unifyPieces division).flatMap write := by
  fun_induction unifyPieces division with
  | case1 => rfl
  | case2 rest ih =>
      rw [List.flatMap_cons, List.flatMap_cons, List.flatMap_cons, inLine.literal,
        inLine.literal, ← ih inLine.tail.tail]
      exact unifyLineEndings.eq_2 _
  | case3 rest alone ih =>
      rw [List.flatMap_cons, List.flatMap_cons, inLine.literal, inLine.literal, ← ih inLine.tail]
      apply unifyLineEndings_return_cons
      intro hhead
      obtain ⟨others, rfl⟩ := inLine.tail.head?_eq hhead
      exact alone others rfl
  | case4 piece rest _ plain ih =>
      rw [List.flatMap_cons, List.flatMap_cons, ← ih inLine.tail]
      apply unifyLineEndings_append
      cases piece with
      | literal c =>
          rw [inLine.literal, List.mem_singleton]
          rintro rfl
          exact plain rfl
      | reference found => exact (inLine.unbroken found (by simp)).1

theorem partsAt_flatMap (inLine : WritesInLine write division) :
    partsAt '\n' (division.flatMap write) =
      (pieceLines division).map fun line => line.flatMap write := by
  fun_induction pieceLines division with
  | case1 => rfl
  | case2 rest ih =>
      rw [List.flatMap_cons, inLine.literal, List.singleton_append, partsAt, if_pos rfl,
        ih inLine.tail]
      rfl
  | case3 piece rest hpiece ih =>
      have hplain : '\n' ∉ write piece := by
        cases piece with
        | literal c =>
            rw [inLine.literal, List.mem_singleton]
            rintro rfl
            exact hpiece rfl
        | reference found => exact (inLine.unbroken found (by simp)).2
      rw [List.flatMap_cons, partsAt_append hplain, ih inLine.tail]
      cases pieceLines rest <;> simp

theorem splitAtEmptyLine_flatMap (inLine : WritesInLine write division) :
    splitAtEmptyLine (division.flatMap write) =
      (splitPieces division).map fun sides =>
        (sides.1.flatMap write, sides.2.flatMap write) := by
  fun_induction splitPieces division with
  | case1 => rfl
  | case2 rest =>
      rw [List.flatMap_cons, List.flatMap_cons, inLine.literal]
      exact splitAtEmptyLine.eq_2 _
  | case3 piece rest apart ih =>
      rw [List.flatMap_cons, Option.map_map]
      have hcons : splitAtEmptyLine (write piece ++ rest.flatMap write) =
          (splitAtEmptyLine (rest.flatMap write)).map fun sides =>
            (write piece ++ sides.1, sides.2) := by
        cases piece with
        | literal c =>
            rw [inLine.literal, List.singleton_append]
            apply splitAtEmptyLine_cons
            rintro rfl hhead
            obtain ⟨others, rfl⟩ := inLine.tail.head?_eq hhead
            exact apart others rfl rfl
        | reference found =>
            exact splitAtEmptyLine_append (inLine.unbroken found (by simp)).2 _
      rw [hcons, ih inLine.tail, Option.map_map]
      rfl

end WritesInLine

/-! ## Stretches -/

theorem exists_cons_pieceLines (division : List Piece) :
    ∃ first others, pieceLines division = first :: others ∧ first <+: division ∧
      ∀ line ∈ others, line <:+: division := by
  fun_induction pieceLines division with
  | case1 => exact ⟨[], [], rfl, List.prefix_refl _, by simp⟩
  | case2 rest ih =>
      obtain ⟨first, others, heq, hfirst, hothers⟩ := ih
      refine ⟨[], pieceLines rest, rfl, List.nil_prefix, fun line hline => ?_⟩
      rw [heq] at hline
      apply List.infix_cons
      rcases List.mem_cons.1 hline with rfl | hline
      · exact hfirst.isInfix
      · exact hothers line hline
  | case3 piece rest _ ih =>
      obtain ⟨first, others, heq, hfirst, hothers⟩ := ih
      refine ⟨piece :: first, others, by rw [heq, List.modifyHead_cons], ?_, ?_⟩
      · exact (List.prefix_cons_inj piece).2 hfirst
      · exact fun line hline => List.infix_cons (hothers line hline)

/-- A line is a stretch of the pieces. -/
theorem infix_of_mem_pieceLines {division line : List Piece} (hline : line ∈ pieceLines division) :
    line <:+: division := by
  obtain ⟨first, others, heq, hfirst, hothers⟩ := exists_cons_pieceLines division
  rw [heq] at hline
  rcases List.mem_cons.1 hline with rfl | hline
  · exact hfirst.isInfix
  · exact hothers line hline

theorem eq_append_of_splitPieces {division before after : List Piece}
    (hsplit : splitPieces division = some (before, after)) :
    division = before ++ .literal '\n' :: .literal '\n' :: after := by
  fun_induction splitPieces division generalizing before after with
  | case1 => cases hsplit
  | case2 rest =>
      cases hsplit
      rfl
  | case3 piece rest _ ih =>
      obtain ⟨⟨first, second⟩, hrest, heq⟩ := Option.map_eq_some_iff.1 hsplit
      cases heq
      rw [ih hrest, List.cons_append]

theorem reference_mem_unifyPieces {division : List Piece} {reference : Reference}
    (hmem : .reference reference ∈ unifyPieces division) : .reference reference ∈ division := by
  fun_induction unifyPieces division with
  | case1 => exact hmem
  | case2 rest ih => simpa using ih (by simpa using hmem)
  | case3 rest _ ih => simpa using ih (by simpa using hmem)
  | case4 piece rest _ _ ih =>
      rcases List.mem_cons.1 hmem with heq | hmem
      · exact heq ▸ List.mem_cons_self ..
      · exact List.mem_cons_of_mem _ (ih hmem)

theorem WritesInLine.unifyPieces {write : Piece → List Char} {division : List Piece}
    (inLine : WritesInLine write division) : WritesInLine write (unifyPieces division) where
  literal := inLine.literal
  filled reference hmem := inLine.filled reference (reference_mem_unifyPieces hmem)
  unbroken reference hmem := inLine.unbroken reference (reference_mem_unifyPieces hmem)

/-! ## References after the line endings are unified -/

section

variable {markup : Markup}

/-- Where a reference begins after the line endings were unified, one begins before. -/
theorem IsToken.exists_of_prefix_unifyLineEndings {reference : Reference} {text : List Char}
    (token : IsToken markup reference)
    (hfront : reference.spelling <+: unifyLineEndings text) :
    ∃ other, IsToken markup other ∧ other.spelling <+: text := by
  obtain ⟨before, behind, hbefore, hbehind, run, hspelling⟩ := isToken_iff.1 token
  obtain ⟨rest, hrest⟩ := hfront
  have huniform : markup.isPadding '\r' = markup.isPadding '\n' := by cases markup <;> decide
  -- Marks and names hold no line endings, and blanks stay blanks.
  have hmark {text mark : List Char} (heq : unifyLineEndings text = mark)
      (plain : '\n' ∉ mark) : text = mark := by
    rw [← heq] at plain
    rw [← heq, unifyLineEndings_eq_self_of_not_mem plain]
  have hpadding {text padding : List Char} (heq : unifyLineEndings text = padding)
      (inside : ∀ c ∈ padding, markup.isPadding c) : ∀ c ∈ text, markup.isPadding c := by
    intro c hc
    rw [← heq] at inside
    rcases mem_unifyLineEndings hc with hkept | ⟨rfl, hfeed⟩
    · exact inside c hkept
    · exact huniform.trans (inside _ hfeed)
  have hname : '\n' ∉ reference.name := fun hmem => by
    have hchar := run.chars _ hmem
    cases markup <;> exact absurd hchar (by decide)
  rw [hspelling] at hrest
  simp only [List.append_assoc] at hrest
  obtain ⟨opening, text, rfl, hopening, htext⟩ := exists_append_of_unifyLineEndings hrest.symm
  obtain ⟨newBefore, text, rfl, hnewBefore, htext⟩ := exists_append_of_unifyLineEndings htext
  obtain ⟨name, text, rfl, hnewName, htext⟩ := exists_append_of_unifyLineEndings htext
  obtain ⟨newBehind, text, rfl, hnewBehind, htext⟩ := exists_append_of_unifyLineEndings htext
  obtain ⟨closing, text, rfl, hclosing, -⟩ := exists_append_of_unifyLineEndings htext
  rw [hmark hopening (by cases markup <;> decide), hmark hclosing (by cases markup <;> decide),
    hmark hnewName hname]
  refine ⟨⟨markup.opening ++ newBefore ++ reference.name ++ newBehind ++ markup.closing,
    reference.name⟩, isToken_iff.2 ⟨newBefore, newBehind, hpadding hnewBefore hbefore,
      hpadding hnewBehind hbehind, run, rfl⟩, text, ?_⟩
  simp only [List.append_assoc]

/-- No reference begins with a line feed. -/
theorem IsToken.head?_ne {reference : Reference} {text : List Char}
    (token : IsToken markup reference) : ¬ reference.spelling <+: '\n' :: text := by
  obtain ⟨before, behind, -, -, -, hspelling⟩ := isToken_iff.1 token
  rintro ⟨rest, hrest⟩
  rw [hspelling] at hrest
  cases markup <;> simp [Markup.opening] at hrest

/-- The spelling of pieces keeps lines when no reference holds a line break. -/
theorem IsDivision.writesInLine {division : List Piece} (divided : IsDivision markup division)
    (unbroken : ∀ reference, .reference reference ∈ division → Unbroken reference.spelling) :
    WritesInLine Piece.spelling division where
  literal _ := rfl
  filled reference hmem := by
    obtain ⟨before, behind, -, -, -, hspelling⟩ := isToken_iff.1 (divided.tokens reference hmem)
    rw [Piece.spelling, hspelling]
    cases markup <;> simp [Markup.opening]
  unbroken := unbroken

/-- Unifying the line endings between references makes a division of a division. -/
theorem IsDivision.unifyPieces {division : List Piece} (divided : IsDivision markup division)
    (unbroken : ∀ reference, .reference reference ∈ division → Unbroken reference.spelling) :
    IsDivision markup (unifyPieces division) := by
  have hfeed {rest : List Piece} (hrest : IsDivision markup rest) :
      IsDivision markup (.literal '\n' :: rest) := by
    apply hrest.cons_literal
    intro reference token
    exact token.head?_ne
  fun_induction Template.unifyPieces division with
  | case1 => exact divided
  | case2 rest ih =>
      refine hfeed (ih (divided.of_infix ⟨[.literal '\r', .literal '\n'], [], by simp⟩) ?_)
      exact fun reference hmem => unbroken reference (by simp [hmem])
  | case3 rest _ ih =>
      refine hfeed (ih (divided.of_infix (List.infix_cons (List.infix_refl _))) ?_)
      exact fun reference hmem => unbroken reference (by simp [hmem])
  | case4 piece rest _ plain ih =>
      have hrest := divided.of_infix (List.infix_cons (List.infix_refl rest))
      have hunbroken : ∀ reference, .reference reference ∈ rest → Unbroken reference.spelling :=
        fun reference hmem => unbroken reference (by simp [hmem])
      have hunified := ih hrest hunbroken
      cases piece with
      | reference found => exact hunified.cons_reference (divided.tokens found (by simp))
      | literal c =>
          have hc : c ≠ '\r' := by
            rintro rfl
            exact plain rfl
          apply hunified.cons_literal
          intro reference token hfront
          have hspelled : spelled (.literal c :: Template.unifyPieces rest) =
              unifyLineEndings (spelled (.literal c :: rest)) := by
            rw [spelled_cons, spelled_cons, Piece.spelling, List.singleton_append,
              List.singleton_append, unifyLineEndings_cons hc, spelled, spelled,
              (hrest.writesInLine hunbroken).unifyLineEndings_flatMap]
          rw [hspelled] at hfront
          obtain ⟨other, tokenOther, hother⟩ := token.exists_of_prefix_unifyLineEndings hfront
          exact divided.leftmost [] c rest rfl other tokenOther hother

end

end MailMerge.Template
