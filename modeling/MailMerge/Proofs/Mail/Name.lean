/-
# Reading shown names

Words and names as the grammar of mailboxes reads them. A name holds neither NUL nor
a line end, and where such a name is shown, behind quotes or not, a name is read up
to the angle bracket of the address.
-/

import Mathlib.Data.List.TakeWhile
import MailMerge.Proofs.Mail.Address
import MailMerge.Proofs.Stage

namespace MailMerge.Text

theorem trim_isPrefix (text : List Char) : trim text <+: text.dropWhile isBlank := by
  have hsuffix := List.dropWhile_suffix isBlank (l := (text.dropWhile isBlank).reverse)
  rw [← List.reverse_prefix, List.reverse_reverse] at hsuffix
  exact hsuffix

theorem trim_subset (text : List Char) : trim text ⊆ text :=
  List.Subset.trans (trim_isPrefix text).subset (List.dropWhile_sublist isBlank).subset

/-- A trimmed text does not begin with a blank. -/
theorem isBlank_of_mem_head?_trim {text : List Char} {c : Char} (hc : c ∈ (trim text).head?) :
    isBlank c = false := by
  obtain ⟨rest, hrest⟩ := List.head?_eq_some_iff.1 hc
  obtain ⟨behind, hbehind⟩ := trim_isPrefix text
  rw [hrest, List.cons_append] at hbehind
  have hhead := List.head?_dropWhile_not isBlank text
  rw [← hbehind] at hhead
  simpa using hhead

end MailMerge.Text

namespace MailMerge.Mail

open MailMerge.Stage MailMerge.Text

/-! ## Runs that end at a stop -/

theorem takeWhile_append_stop {p : Char → Bool} {stop : Char} (hstop : p stop = false)
    (run rest : List Char) : (run ++ stop :: rest).takeWhile p = run.takeWhile p := by
  induction run with
  | nil => simp [hstop]
  | cons c run ih => rw [List.cons_append, List.takeWhile_cons, List.takeWhile_cons, ih]

theorem dropWhile_append_stop {p : Char → Bool} {stop : Char} (hstop : p stop = false)
    (run rest : List Char) :
    (run ++ stop :: rest).dropWhile p = run.dropWhile p ++ stop :: rest := by
  induction run with
  | nil => simp [hstop]
  | cons c run ih =>
      rw [List.cons_append, List.dropWhile_cons, List.dropWhile_cons, ih]
      split <;> rfl

theorem readGap_snd (text : List Char) : (readGap text).2 = text.dropWhile isGap := by
  fun_cases readGap text with
  | case1 c rest hc => rw [List.dropWhile_cons_of_pos hc]
  | case2 c rest hc => rw [List.dropWhile_cons_of_neg hc]
  | case3 => rfl

/-- A character that belongs to no word and to no gap between words. -/
structure IsStop (c : Char) : Prop where
  gap : isGap c = false
  atom : isAtomChar c = false
  dot : c ≠ '.'
  quote : c ≠ '"'

/-- A run of words without quotes. It may hold dots or gaps, not both. -/
structure IsPlainRun (run : List Char) : Prop where
  inside : ∀ c ∈ run, isGap c ∨ isAtomChar c ∨ c = '.'
  single : '.' ∉ run ∨ ∀ c ∈ run, isGap c = false

theorem IsPlainRun.of_suffix {run rest : List Char} (plain : IsPlainRun run)
    (hsuffix : rest <:+ run) : IsPlainRun rest := by
  constructor
  · exact fun c hc => plain.inside c (hsuffix.subset hc)
  · rcases plain.single with hdot | hgap
    · exact .inl fun hmem => hdot (hsuffix.subset hmem)
    · exact .inr fun c hc => hgap c (hsuffix.subset hc)

theorem readQuotedText_eq_none {text : List Char} (plain : text.head? ≠ some '"') :
    readQuotedText text = none := by
  rw [readQuotedText]
  rintro rest rfl
  exact plain rfl

variable {run : List Char} {stop : Char}

theorem head?_append_ne_quote (plain : IsPlainRun run) (hstop : IsStop stop)
    (rest : List Char) :
    (run ++ stop :: rest).head? ≠ some '"' := by
  cases run with
  | nil => simpa using hstop.quote
  | cons c run =>
      rintro ⟨rfl⟩
      rcases plain.inside '"' (by simp) with hgap | hatom | hdot
      · exact absurd hgap (by decide)
      · exact absurd hatom (by decide)
      · exact absurd hdot (by decide)

/-- From a run that begins with an atom the atom is read. -/
theorem readAtom_append (hstop : IsStop stop) {c : Char} {others : List Char}
    (hdrop : run.dropWhile isGap = c :: others) (hc : isAtomChar c) (rest : List Char) :
    ∃ atom behind, readAtom (run ++ stop :: rest) = some (atom, behind ++ stop :: rest) ∧
      behind <:+ run := by
  have hrest := readGap_snd (run ++ stop :: rest)
  rw [dropWhile_append_stop hstop.gap, hdrop] at hrest
  refine ⟨(readGap (run ++ stop :: rest)).1 ++ (c :: others).takeWhile isAtomChar,
    (c :: others).dropWhile isAtomChar, ?_, ?_⟩
  · unfold readAtom
    simp only [hrest, takeWhile_append_stop hstop.atom, dropWhile_append_stop hstop.atom]
    rw [List.takeWhile_cons_of_pos hc]
    rfl
  · exact (List.dropWhile_suffix isAtomChar).trans (hdrop ▸ List.dropWhile_suffix isGap)

/-- From a plain run a word or a dot is read, unless only gaps are left. -/
theorem readWordOrDot_append (hstop : IsStop stop) (plain : IsPlainRun run) (rest : List Char) :
    (∃ piece behind, readWordOrDot (run ++ stop :: rest) = some (piece, behind ++ stop :: rest) ∧
      behind <:+ run) ∨
    (readWordOrDot (run ++ stop :: rest) = none ∧ ∀ c ∈ run, isGap c) := by
  have hquote := readQuotedText_eq_none (head?_append_ne_quote plain hstop rest)
  rw [readWordOrDot, readWord, hquote, Option.none_or]
  cases hdrop : run.dropWhile isGap with
  | nil =>
      right
      have hgaps := List.dropWhile_eq_nil_iff.1 hdrop
      refine ⟨?_, hgaps⟩
      have hatom : readAtom (run ++ stop :: rest) = none := by
        unfold readAtom
        simp only [readGap_snd, dropWhile_append_stop hstop.gap, hdrop, List.nil_append]
        rw [List.takeWhile_cons_of_neg (by simp [hstop.atom])]
        rfl
      rw [hatom, Option.none_or, readDot]
      intro others heq
      cases run with
      | nil => exact hstop.dot (List.cons.inj heq).1
      | cons c run =>
          have hc := hgaps c (by simp)
          rw [(List.cons.inj heq).1] at hc
          exact absurd hc (by decide)
  | cons c others =>
      left
      have hsuffix : c :: others <:+ run := hdrop ▸ List.dropWhile_suffix isGap
      have hgap : isGap c = false := by
        have hhead := List.head?_dropWhile_not isGap run
        rw [hdrop] at hhead
        simpa using hhead
      rcases plain.inside c (hsuffix.subset (by simp)) with hc | hc | rfl
      · rw [hgap] at hc
        cases hc
      · obtain ⟨atom, behind, hatom, hbehind⟩ := readAtom_append hstop hdrop hc rest
        exact ⟨atom, behind, by rw [hatom, Option.some_or], hbehind⟩
      · -- A dot stands right at the front, since a run with dots has no gaps.
        have hall : run = '.' :: others := by
          rcases plain.single with hdot | hnone
          · exact absurd (hsuffix.subset (List.mem_cons_self ..)) hdot
          · rw [← hdrop]
            cases run with
            | nil => rfl
            | cons d run => rw [List.dropWhile_cons_of_neg (by simp [hnone d])]
        subst hall
        refine ⟨['.'], others, ?_, List.suffix_cons '.' others⟩
        rfl

/-- Of a plain run nothing but gaps is left. -/
theorem readMoreWords_append (hstop : IsStop stop) (plain : IsPlainRun run) (rest : List Char) :
    ∃ words gaps, readMoreWords (run ++ stop :: rest) = (words, gaps ++ stop :: rest) ∧
      ∀ c ∈ gaps, isGap c := by
  -- Each word leaves a shorter run, which ends at the same stop.
  induction hlength : run.length using Nat.strongRecOn generalizing run with
  | ind n ih =>
      rcases readWordOrDot_append hstop plain rest with
        ⟨piece, behind, hpiece, hsuffix⟩ | ⟨hnone, hgaps⟩
      · have hshorter := readWordOrDot_length hpiece
        simp only [List.length_append, List.length_cons] at hshorter
        obtain ⟨words, gaps, hwords, hgaps⟩ :=
          ih behind.length (by omega) (plain.of_suffix hsuffix) rfl
        refine ⟨piece ++ words, gaps, ?_, hgaps⟩
        rw [readMoreWords]
        split
        · next heq =>
          rw [hpiece] at heq
          cases heq
          rw [hwords]
        · next heq =>
          rw [hpiece] at heq
          cases heq
      · refine ⟨[], run, ?_, hgaps⟩
        rw [readMoreWords]
        split
        · next heq =>
          rw [hnone] at heq
          cases heq
        · rfl

/-! ## Names -/

theorem isGap_iff {c : Char} : isGap c ↔ c.toNat = 32 ∨ c.toNat = 9 := by
  rw [isGap, Bool.or_eq_true, beq_iff_eq, beq_iff_eq, ← Char.toNat_inj, ← Char.toNat_inj]
  rfl

/-- Behind a word, words and dots are read as far as they go. -/
theorem readName_of_readWord {text word rest : List Char} (hstop : IsStop stop)
    (plain : IsPlainRun run) (hword : readWord text = some (word, run ++ stop :: rest)) :
    ∃ name gaps, readName text = some (name, gaps ++ stop :: rest) ∧ ∀ c ∈ gaps, isGap c := by
  obtain ⟨words, gaps, hwords, hgaps⟩ := readMoreWords_append hstop plain rest
  refine ⟨word ++ words, gaps, ?_, hgaps⟩
  rw [readName, hword]
  simp only [Option.bind_eq_bind, Option.bind_some, hwords]
  rfl

/-- A run that begins with an atom is read as a name. -/
theorem readName_append (hstop : IsStop stop) {c : Char} {others : List Char}
    (hc : isAtomChar c) (plain : IsPlainRun (c :: others)) (rest : List Char) :
    ∃ name gaps, readName (c :: others ++ stop :: rest) = some (name, gaps ++ stop :: rest) ∧
      ∀ c ∈ gaps, isGap c := by
  have hdrop : (c :: others).dropWhile isGap = c :: others := by
    rw [List.dropWhile_cons_of_neg (by simp [isGap_of_isAtomChar hc])]
  obtain ⟨atom, behind, hatom, hsuffix⟩ := readAtom_append hstop hdrop hc rest
  apply readName_of_readWord hstop (plain.of_suffix hsuffix)
  rw [readWord, readQuotedText_eq_none (head?_append_ne_quote plain hstop _), Option.none_or, hatom]

/-- A character that a name may hold. -/
def IsNameContent (c : Char) : Prop :=
  isQuotable c ∨ 128 ≤ c.toNat

theorem isNameContent_iff {c : Char} :
    IsNameContent c ↔ c.toNat ≠ 0 ∧ c.toNat ≠ 10 ∧ c.toNat ≠ 13 := by
  simp only [IsNameContent, isQuotable, Bool.and_eq_true, decide_eq_true_eq, bne_iff_ne]
  omega

theorem isGap_or_isQuotedText_of_isNameContent {c : Char} (content : IsNameContent c)
    (bare : ¬ (c = '"' ∨ c = '\\')) : isGap c ∨ isQuotedText c := by
  rw [not_or, ← Char.toNat_inj, ← Char.toNat_inj] at bare
  have hquote : ('"').toNat = 34 := rfl
  have hescape : ('\\').toNat = 92 := rfl
  rw [isNameContent_iff] at content
  rw [isGap_iff]
  simp only [isQuotedText, isPlainControl, Bool.or_eq_true, Bool.and_eq_true, beq_iff_eq,
    decide_eq_true_eq]
  omega

/-- The shown content of a name is read up to the closing quote. -/
theorem readQuoted_escapeQuotes {name : List Char} (content : ∀ c ∈ name, IsNameContent c)
    (gap rest : List Char) :
    ∃ read, readQuoted gap (escapeQuotes name ++ '"' :: rest) = (read, '"' :: rest) := by
  induction name generalizing gap with
  | nil => exact ⟨[], readQuoted_quote gap rest⟩
  | cons c name ih =>
      have hrest := ih fun d hd => content d (List.mem_cons_of_mem _ hd)
      have hcons : escapeQuotes (c :: name) =
          (if c = '"' ∨ c = '\\' then ['\\', c] else [c]) ++ escapeQuotes name :=
        List.flatMap_cons
      rw [hcons]
      by_cases hescape : c = '"' ∨ c = '\\'
      · obtain ⟨read, hread⟩ := hrest []
        have quotable : isQuotable c := by
          rcases hescape with rfl | rfl <;> decide
        refine ⟨gap ++ c :: read, ?_⟩
        rw [if_pos hescape, List.append_assoc, List.cons_append, List.singleton_append,
          readQuoted_escape quotable, hread]
      · rw [if_neg hescape, List.append_assoc, List.singleton_append]
        cases hgap : isGap c with
        | true =>
            obtain ⟨read, hread⟩ := hrest (if gap.isEmpty then [c] else gap)
            exact ⟨read, by rw [readQuoted_gap hgap, hread]⟩
        | false =>
            obtain ⟨read, hread⟩ := hrest []
            have plain : isQuotedText c := by
              simpa [hgap] using
                isGap_or_isQuotedText_of_isNameContent (content c (by simp)) hescape
            exact ⟨gap ++ c :: read, by rw [readQuoted_plain hgap plain, hread]⟩

theorem isGap_or_isAtomChar_of_isWordChar {c : Char} (word : isWordChar c) :
    isGap c ∨ isAtomChar c := by
  simp only [isWordChar, Bool.or_eq_true, Bool.and_eq_true, beq_iff_eq,
    decide_eq_true_eq] at word
  simp only [isGap, isAtomChar, isAsciiAlphanumeric, isAsciiDigit, Bool.or_eq_true,
    Bool.and_eq_true, beq_iff_eq, decide_eq_true_eq]
  rcases word with ((((htab | hspace) | hletter) | ⟨hlow, hhigh⟩) | hmark) | hlarge
  · exact .inl (.inr htab)
  · exact .inl (.inl hspace)
  · exact .inr (.inl (.inl (.inl hletter)))
  · exact .inr (.inl (.inl (.inr ⟨hlow, Char.le_trans hhigh (by decide)⟩)))
  · exact .inr (.inl (.inr hmark))
  · exact .inr (.inr hlarge)

theorem isPlainRun_of_isWordChar {name : List Char} (words : ∀ c ∈ name, isWordChar c) :
    IsPlainRun name := by
  constructor
  · intro c hc
    rcases isGap_or_isAtomChar_of_isWordChar (words c hc) with hgap | hatom
    · exact .inl hgap
    · exact .inr (.inl hatom)
  · exact .inl fun hdot => absurd (words '.' hdot) (by decide)

theorem isStop_openingBracket : IsStop '<' :=
  ⟨by decide, by decide, by decide, by decide⟩

/-- Where a name is shown before an angle bracket, a name is read up to the bracket. -/
theorem readName_showName {name : List Char} (filled : name ≠ [])
    (front : ∀ c ∈ name.head?, isBlank c = false) (content : ∀ c ∈ name, IsNameContent c)
    (rest : List Char) :
    ∃ read gaps, readName (showName name ++ ' ' :: '<' :: rest) = some (read, gaps ++ '<' :: rest) ∧
      ∀ c ∈ gaps, isGap c := by
  have hspace : IsPlainRun [' '] := isPlainRun_of_isWordChar (by simp; decide)
  rw [showName]
  split
  · next hwords =>
    obtain ⟨c, others, rfl⟩ := List.exists_cons_of_ne_nil filled
    have words := List.all_eq_true.1 hwords
    have hatom : isAtomChar c := by
      rcases isGap_or_isAtomChar_of_isWordChar (words c (by simp)) with hgap | hatom
      · have hblank := front c rfl
        rcases eq_of_isGap hgap with rfl | rfl
        · exact absurd hblank (by decide)
        · exact absurd hblank (by decide)
      · exact hatom
    have plain : IsPlainRun (c :: (others ++ [' '])) := by
      apply isPlainRun_of_isWordChar
      intro d hd
      rw [← List.cons_append, List.mem_append, List.mem_singleton] at hd
      rcases hd with hd | rfl
      · exact words d hd
      · decide
    have hread := readName_append isStop_openingBracket hatom plain rest
    rwa [List.cons_append, List.append_assoc, List.singleton_append] at hread
  · obtain ⟨read, hread⟩ := readQuoted_escapeQuotes content [] (' ' :: '<' :: rest)
    have hdrop : ('"' :: ' ' :: '<' :: rest).dropWhile isBlank = '"' :: ' ' :: '<' :: rest := by
      rw [List.dropWhile_cons_of_neg (by decide)]
    apply readName_of_readWord isStop_openingBracket hspace
    rw [List.cons_append, List.cons_append, List.append_assoc, List.singleton_append, readWord,
      readQuotedText, hread]
    simp only [hdrop, Option.some_or]
    rfl

/-! ## What a name holds -/

theorem isNameContent_of_isGap {c : Char} (hc : isGap c) : IsNameContent c := by
  rw [isGap_iff] at hc
  rw [isNameContent_iff]
  omega

theorem isNameContent_of_isQuotedText {c : Char} (hc : isQuotedText c) : IsNameContent c := by
  simp only [isQuotedText, isPlainControl, Bool.or_eq_true, Bool.and_eq_true, beq_iff_eq,
    decide_eq_true_eq] at hc
  rw [isNameContent_iff]
  omega

theorem isNameContent_of_isAtomChar {c : Char} (hc : isAtomChar c) : IsNameContent c := by
  rw [isNameContent_iff]
  refine ⟨?_, ?_, ?_⟩
  · intro hcode
    have hnul : c = '\x00' := Char.toNat_inj.1 hcode
    exact absurd (hnul ▸ hc) (by decide)
  · intro hcode
    have hfeed : c = '\n' := Char.toNat_inj.1 hcode
    exact absurd (hfeed ▸ hc) (by decide)
  · intro hcode
    have hreturn : c = '\r' := Char.toNat_inj.1 hcode
    exact absurd (hreturn ▸ hc) (by decide)

theorem isNameContent_of_mem_readQuoted {gap text : List Char}
    (hgap : ∀ c ∈ gap, IsNameContent c) :
    ∀ c ∈ (readQuoted gap text).1, IsNameContent c := by
  fun_induction readQuoted gap text with
  | case1 => simp
  | case2 gap c rest quotable content behind hread ih =>
      intro d hd
      rw [List.mem_append, List.mem_cons] at hd
      rcases hd with hd | rfl | hd
      · exact hgap d hd
      · exact .inl quotable
      · exact ih (by simp) d (by rwa [hread])
  | case3 => simp
  | case4 gap c rest _ hc ih =>
      apply ih
      split
      · simpa using isNameContent_of_isGap hc
      · exact hgap
  | case5 gap c rest _ _ plain content behind hread ih =>
      intro d hd
      rw [List.mem_append, List.mem_cons] at hd
      rcases hd with hd | rfl | hd
      · exact hgap d hd
      · exact isNameContent_of_isQuotedText plain
      · exact ih (by simp) d (by rwa [hread])
  | case6 => simp

theorem isNameContent_of_readWord {text word rest : List Char}
    (found : readWord text = some (word, rest)) : ∀ c ∈ word, IsNameContent c := by
  rw [readWord, Option.or_eq_some_iff] at found
  rcases found with hquoted | ⟨-, hatom⟩
  · unfold readQuotedText at hquoted
    split at hquoted
    · next inside =>
      simp only at hquoted
      split at hquoted
      · cases hquoted
        exact isNameContent_of_mem_readQuoted (by simp)
      · cases hquoted
    · cases hquoted
  · simp only [readAtom, Option.ite_none_left_eq_some, Option.some.injEq, Prod.mk.injEq] at hatom
    obtain ⟨-, rfl, -⟩ := hatom
    intro c hc
    rcases List.mem_append.1 hc with hc | hc
    · revert hc
      fun_cases readGap text with
      | case1 d others hd =>
          intro hc
          rw [List.mem_singleton] at hc
          exact isNameContent_of_isGap (hc ▸ hd)
      | case2 => simp
      | case3 => simp
    · exact isNameContent_of_isAtomChar (List.all_eq_true.1 List.all_takeWhile c hc)

theorem isNameContent_of_mem_readMoreWords {text : List Char} :
    ∀ c ∈ (readMoreWords text).1, IsNameContent c := by
  fun_induction readMoreWords text with
  | case1 text piece rest found _ more behind hmore ih =>
      intro c hc
      rcases List.mem_append.1 hc with hc | hc
      · rw [readWordOrDot, Option.or_eq_some_iff] at found
        rcases found with hword | ⟨-, hdot⟩
        · exact isNameContent_of_readWord hword c hc
        · unfold readDot at hdot
          split at hdot
          · cases hdot
            rw [List.mem_singleton] at hc
            subst hc
            exact .inl (by decide)
          · cases hdot
      · exact ih c (by rwa [hmore])
  | case2 => simp

theorem isNameContent_of_readName {text name rest : List Char}
    (found : readName text = some (name, rest)) : ∀ c ∈ name, IsNameContent c := by
  simp only [readName, Option.bind_eq_bind, Option.bind_eq_some_iff] at found
  obtain ⟨⟨word, behind⟩, hword, heq⟩ := found
  cases heq
  intro c hc
  rcases List.mem_append.1 hc with hc | hc
  · exact isNameContent_of_readWord hword c hc
  · exact isNameContent_of_mem_readMoreWords c hc

end MailMerge.Mail
