/-
# The grammar of references

What a reference is, told without the scanner that looks for one: marks around a row
of segments, with nothing but blanks between the marks and a dotted name. The scanner
finds a reference exactly where a text begins with one, and it finds that one: a
reference shows by itself where it ends.
-/

import MailMerge.Proofs.Text.Blank
import MailMerge.Proofs.Text.Lines
import MailMerge.Template.Token

namespace MailMerge.Template

open MailMerge.Text

/-! ## References -/

/-- A row of segments made of certain characters; there is one at least, and none is empty. -/
structure IsPath (allowed : Char → Bool) (segments : List (List Char)) : Prop where
  nonempty : segments ≠ []
  filled : ∀ segment ∈ segments, segment ≠ []
  chars : ∀ segment ∈ segments, ∀ c ∈ segment, allowed c

/-- A character of a segment between slashes, where a dot divides nothing. -/
def isSlashPathChar (c : Char) : Bool :=
  isSegmentChar c || c == '.'

/-- The references of a markup, each with the name between its marks. -/
inductive IsToken : Markup → Reference → Prop where
  /-- A dotted name in double braces, which blanks may keep away from it. -/
  | placeholder {before after : List Char} {segments : List (List Char)}
      (blankBefore : ∀ c ∈ before, isBlank c) (path : IsPath isSegmentChar segments)
      (blankAfter : ∀ c ∈ after, isBlank c) :
      IsToken .placeholder
        { spelling := ['\x7b', '\x7b'] ++ before ++ joinWith ['.'] segments ++ after ++
            ['\x7d', '\x7d']
          name := joinWith ['.'] segments }
  /-- A path with slashes in brackets, which may begin with one more slash. -/
  | bracket {root : List Char} {segments : List (List Char)}
      (rooted : root = [] ∨ root = ['/']) (path : IsPath isSlashPathChar segments) :
      IsToken .bracket
        { spelling := ['['] ++ root ++ joinWith ['/'] segments ++ [']']
          name := root ++ joinWith ['/'] segments }

/-! ## Names -/

section Segments

variable {allowed : Char → Bool} {separator : Char} (outside : allowed separator = false)

include outside

/-- No segment holds the separator, so the parts of a joined path are its segments. -/
theorem IsPath.partsAt_joinWith {segments : List (List Char)} (path : IsPath allowed segments) :
    partsAt separator (joinWith [separator] segments) = segments := by
  apply Text.partsAt_joinWith path.nonempty
  intro segment hsegment hmem
  exact absurd (path.chars segment hsegment separator hmem) (by simp [outside])

/-- A text is a joined path when none of its parts is empty and its characters are those of
segments and separators. -/
theorem isPath_partsAt_iff {text : List Char} :
    IsPath allowed (partsAt separator text) ↔
      (∀ c ∈ text, allowed c || c == separator) ∧ ∀ part ∈ partsAt separator text, part ≠ [] := by
  constructor
  · intro path
    refine ⟨fun c hc => ?_, path.filled⟩
    rcases exists_mem_partsAt separator hc with rfl | ⟨part, hpart, hc⟩
    · simp
    · simp [path.chars part hpart c hc]
  · rintro ⟨chars, filled⟩
    refine ⟨partsAt_ne_nil separator text, filled, fun part hpart c hc => ?_⟩
    have hchar := chars c (mem_of_mem_partsAt hpart hc)
    rw [Bool.or_eq_true, beq_iff_eq] at hchar
    exact hchar.resolve_right fun heq => not_mem_of_mem_partsAt hpart (heq ▸ hc)

end Segments

/-- A joined path begins with a character of its first segment. -/
theorem IsPath.exists_cons {allowed : Char → Bool} {segments : List (List Char)}
    (path : IsPath allowed segments) (separator : List Char) :
    ∃ c rest, joinWith separator segments = c :: rest ∧ allowed c := by
  obtain ⟨segment, others, rfl⟩ := List.exists_cons_of_ne_nil path.nonempty
  obtain ⟨c, segment, rfl⟩ := List.exists_cons_of_ne_nil (path.filled segment (by simp))
  exact ⟨c, _, joinWith_cons_cons .., path.chars (c :: segment) (by simp) c (by simp)⟩

/-- A run that the scanner takes for a name. -/
structure Markup.IsNameRun (markup : Markup) (name : List Char) : Prop where
  chars : ∀ c ∈ name, markup.isNameChar c
  named : markup.isName name

namespace Markup

theorem isName_iff {markup : Markup} {name : List Char} :
    markup.isName name ↔ ∀ part ∈ markup.parts name, part ≠ [] := by
  simp [isName]

theorem isNameRun_placeholder_iff {name : List Char} :
    Markup.placeholder.IsNameRun name ↔
      ∃ segments, IsPath isSegmentChar segments ∧ name = joinWith ['.'] segments := by
  have outside : isSegmentChar '.' = false := by decide
  constructor
  · rintro ⟨chars, named⟩
    exact ⟨partsAt '.' name, (isPath_partsAt_iff outside).2 ⟨chars, isName_iff.1 named⟩,
      (joinWith_partsAt ..).symm⟩
  · rintro ⟨segments, path, rfl⟩
    rw [← path.partsAt_joinWith outside, isPath_partsAt_iff outside] at path
    exact ⟨path.1, isName_iff.2 path.2⟩

/-- Without the slash that makes it a path from the top, a name is its segments. -/
theorem withoutRoot_append {root : List Char} {segments : List (List Char)}
    (rooted : root = [] ∨ root = ['/']) (path : IsPath isSlashPathChar segments) :
    Markup.bracket.withoutRoot (root ++ joinWith ['/'] segments) = joinWith ['/'] segments := by
  have outside : isSlashPathChar '/' = false := by decide
  rcases rooted with rfl | rfl
  · obtain ⟨c, rest, hjoin, hc⟩ := path.exists_cons ['/']
    have hne : c ≠ '/' := by
      rintro rfl
      simp [outside] at hc
    rw [List.nil_append, hjoin, withoutRoot]
    rintro - rest' ⟨rfl⟩
    exact hne rfl
  · rfl

theorem isNameRun_bracket_iff {name : List Char} :
    Markup.bracket.IsNameRun name ↔
      ∃ root segments, (root = [] ∨ root = ['/']) ∧ IsPath isSlashPathChar segments ∧
        name = root ++ joinWith ['/'] segments := by
  have outside : isSlashPathChar '/' = false := by decide
  constructor
  · rintro ⟨chars, named⟩
    have hroot : ∃ root, (root = [] ∨ root = ['/']) ∧
        name = root ++ Markup.bracket.withoutRoot name := by
      by_cases hname : ∃ rest, name = '/' :: rest
      · obtain ⟨rest, rfl⟩ := hname
        exact ⟨['/'], .inr rfl, rfl⟩
      · refine ⟨[], .inl rfl, ?_⟩
        rw [List.nil_append, withoutRoot]
        exact fun rest _ heq => hname ⟨rest, heq⟩
    obtain ⟨root, rooted, heq⟩ := hroot
    refine ⟨root, partsAt '/' (Markup.bracket.withoutRoot name), rooted, ?_, ?_⟩
    · refine (isPath_partsAt_iff outside).2 ⟨fun c hc => chars c ?_, isName_iff.1 named⟩
      rw [heq]
      exact List.mem_append_right _ hc
    · rw [joinWith_partsAt]
      exact heq
  · rintro ⟨root, segments, rooted, path, rfl⟩
    have hroot : Markup.bracket.parts (root ++ joinWith ['/'] segments) =
        partsAt '/' (joinWith ['/'] segments) := by
      rw [parts, withoutRoot_append rooted path, separator]
    rw [← path.partsAt_joinWith outside, isPath_partsAt_iff outside] at path
    refine ⟨fun c hc => ?_, isName_iff.2 (hroot ▸ path.2)⟩
    rcases List.mem_append.1 hc with hc | hc
    · rcases rooted with rfl | rfl
      · exact absurd hc List.not_mem_nil
      · rw [List.mem_singleton.1 hc]
        decide
    · exact path.1 c hc

/-- A name is not empty. -/
theorem IsNameRun.ne_nil {markup : Markup} {name : List Char} (run : markup.IsNameRun name) :
    name ≠ [] := by
  rintro rfl
  cases markup <;> exact absurd run.named (by decide)

theorem isNameChar_of_isPadding {markup : Markup} {c : Char} (padding : markup.isPadding c) :
    markup.isNameChar c = false := by
  cases markup with
  | placeholder => exact eq_false_of_isBlank (by decide) padding
  | bracket => cases padding

end Markup

/-- A reference in the terms of the scanner: its marks, blanks that may stand there, and a name. -/
theorem isToken_iff {markup : Markup} {reference : Reference} :
    IsToken markup reference ↔
      ∃ before behind, (∀ c ∈ before, markup.isPadding c) ∧ (∀ c ∈ behind, markup.isPadding c) ∧
        markup.IsNameRun reference.name ∧
        reference.spelling =
          markup.opening ++ before ++ reference.name ++ behind ++ markup.closing := by
  obtain ⟨spelling, name⟩ := reference
  constructor
  · rintro (⟨blankBefore, path, blankAfter⟩ | ⟨rooted, path⟩)
    · exact ⟨_, _, blankBefore, blankAfter,
        Markup.isNameRun_placeholder_iff.2 ⟨_, path, rfl⟩, rfl⟩
    · refine ⟨[], [], by simp, by simp,
        Markup.isNameRun_bracket_iff.2 ⟨_, _, rooted, path, rfl⟩, ?_⟩
      simp [Markup.opening, Markup.closing]
  · rintro ⟨before, behind, hbefore, hbehind, run, hspelling⟩
    dsimp only at hspelling run
    subst hspelling
    cases markup with
    | placeholder =>
        obtain ⟨segments, path, rfl⟩ := Markup.isNameRun_placeholder_iff.1 run
        exact .placeholder hbefore path hbehind
    | bracket =>
        obtain ⟨root, segments, rooted, path, rfl⟩ := Markup.isNameRun_bracket_iff.1 run
        have hnone {text : List Char} (htext : ∀ c ∈ text, Markup.bracket.isPadding c) :
            text = [] :=
          List.eq_nil_iff_forall_not_mem.2 fun c hc => Bool.false_ne_true (htext c hc)
        rw [hnone hbefore, hnone hbehind]
        have token := IsToken.bracket rooted path
        simpa [Markup.opening, Markup.closing] using token

/-! ## The scanner -/

theorem afterMark?_eq_some_iff {mark text rest : List Char} :
    afterMark? mark text = some rest ↔ text = mark ++ rest := by
  fun_induction afterMark? mark text with
  | case1 text => simp
  | case2 m mark => simp
  | case3 m mark text ih => simpa using ih
  | case4 m mark c text hne => simp [Ne.symm hne]

/-- The scanner finds a reference exactly at the front of a text that begins with one. -/
theorem scan_eq_some_iff {markup : Markup} {text rest : List Char} {reference : Reference} :
    markup.scan text = some (reference, rest) ↔
      IsToken markup reference ∧ text = reference.spelling ++ rest := by
  rw [isToken_iff]
  simp only [Markup.scan, Option.bind_eq_bind, Option.bind_eq_some_iff, afterMark?_eq_some_iff]
  constructor
  · rintro ⟨inside, rfl, behind, hclosing, hname⟩
    split at hname
    · next named =>
      cases hname
      refine ⟨⟨_, _, fun c hc => List.all_eq_true.1 List.all_takeWhile c hc,
        fun c hc => List.all_eq_true.1 List.all_takeWhile c hc,
        ⟨fun c hc => List.all_eq_true.1 List.all_takeWhile c hc, named⟩, rfl⟩, ?_⟩
      simp only [List.append_assoc, ← hclosing, List.takeWhile_append_dropWhile]
    · cases hname
  · rintro ⟨⟨before, behind, hbefore, hbehind, run, hspelling⟩, rfl⟩
    have hopen : ∀ c ∈ (reference.name ++ (behind ++ markup.closing ++ rest)).head?,
        markup.isPadding c = false := by
      obtain ⟨c, name, hname⟩ := List.exists_cons_of_ne_nil run.ne_nil
      rw [hname]
      rintro _ ⟨rfl⟩
      rw [Bool.eq_false_iff]
      intro hpadding
      have hchar := run.chars c (by simp [hname])
      rw [Markup.isNameChar_of_isPadding hpadding] at hchar
      cases hchar
    have hclose : ∀ d ∈ (behind ++ markup.closing ++ rest).head?, markup.isNameChar d = false := by
      cases behind with
      | nil => cases markup <;> simp [Markup.closing] <;> decide
      | cons d behind =>
          rintro _ ⟨rfl⟩
          exact Markup.isNameChar_of_isPadding (hbehind d (by simp))
    have hend : ∀ d ∈ (markup.closing ++ rest).head?, markup.isPadding d = false := by
      cases markup <;> simp [Markup.closing] <;> decide
    have hfirst := span_append hbefore hopen
    have hsecond := span_append run.chars hclose
    have hthird := span_append hbehind hend
    refine ⟨before ++ (reference.name ++ (behind ++ (markup.closing ++ rest))), ?_, rest, ?_, ?_⟩
    · simp [hspelling]
    · simp only [List.append_assoc] at hfirst hsecond hthird ⊢
      rw [hfirst.2, hsecond.2, hthird.2]
    · simp only [List.append_assoc] at hfirst hsecond hthird ⊢
      rw [hfirst.1, hfirst.2, hsecond.1, hsecond.2, hthird.1, if_pos run.named]
      simp only [← List.append_assoc, ← hspelling]

/-- The scanner finds nothing exactly where no reference begins. -/
theorem scan_eq_none_iff {markup : Markup} {text : List Char} :
    markup.scan text = none ↔ ∀ reference, IsToken markup reference →
      ¬ reference.spelling <+: text := by
  rw [Option.eq_none_iff_forall_ne_some]
  constructor
  · rintro none reference token ⟨rest, rfl⟩
    exact none (reference, rest) (scan_eq_some_iff.2 ⟨token, rfl⟩)
  · rintro none ⟨reference, rest⟩ found
    obtain ⟨token, rfl⟩ := scan_eq_some_iff.1 found
    exact none reference token (List.prefix_append ..)

/-! ## Pieces -/

section Pieces

variable {markup : Markup}

theorem pieces_of_scan {text rest : List Char} {reference : Reference}
    (found : markup.scan text = some (reference, rest)) :
    pieces markup text = .reference reference :: pieces markup rest := by
  cases text with
  | nil => cases markup <;> simp [Markup.scan, Markup.opening, afterMark?] at found
  | cons c text =>
      rw [pieces]
      split
      · next reference' rest' heq =>
        rw [found] at heq
        cases heq
        rfl
      · next heq =>
        rw [found] at heq
        cases heq

theorem pieces_cons_of_scan {c : Char} {rest : List Char}
    (absent : markup.scan (c :: rest) = none) :
    pieces markup (c :: rest) = .literal c :: pieces markup rest := by
  rw [pieces]
  split
  · next heq =>
    rw [absent] at heq
    cases heq
  · rfl

end Pieces

end MailMerge.Template
