/-
# Reading shown addresses

What the grammar of mailboxes reads where an address is written. A user of plain
atoms is read as it stands, and so is a domain. A quoted user loses its quotes, and
with them at least two characters: what is read is another user.
-/

import MailMerge.Mail.MailboxReader
import MailMerge.Proofs.Text.Blank
import MailMerge.Proofs.Text.Lines

namespace MailMerge.Mail

open MailMerge.Text

/-! ## Characters of an address -/

/-- No blank lies in a range of letters or numbers. -/
theorem blankCodes_outside_ranges :
    ((alphabeticRanges.ranges.toList ++ numberRanges.ranges.toList).all fun range =>
      blankCodes.all fun code => code.blt range.1 || range.2.blt code) = true := by
  decide +kernel

theorem contains_eq_false_of_isBlank {set : CharRanges}
    (hset : set = alphabeticRanges ∨ set = numberRanges) {c : Char} (blank : isBlank c) :
    set.contains c = false := by
  rw [Bool.eq_false_iff]
  intro inside
  rw [CharRanges.contains, ← Array.any_toList, List.any_eq_true] at inside
  obtain ⟨range, hrange, hbounds⟩ := inside
  have hmem : range ∈ alphabeticRanges.ranges.toList ++ numberRanges.ranges.toList := by
    rcases hset with rfl | rfl
    · exact List.mem_append_left _ hrange
    · exact List.mem_append_right _ hrange
  have houtside := List.all_eq_true.1 (List.all_eq_true.1 blankCodes_outside_ranges range hmem)
    c.toNat (mem_blankCodes blank)
  simp only [Bool.and_eq_true, Bool.or_eq_true, decide_eq_true_eq, Nat.blt_eq] at hbounds houtside
  omega

/-- No character of an address is blank. -/
theorem isAddressAtomChar_eq_false_of_isBlank {c : Char} (blank : isBlank c) :
    isAddressAtomChar c = false := by
  have hplain : ∀ code ∈ blankCodes, isAsciiAlphanumeric (Char.ofNat code) = false ∧
      isAtomPunctuation (Char.ofNat code) = false ∧ looksTwoByte (Char.ofNat code) = false := by
    decide +kernel
  obtain ⟨hascii, hmark, htwo⟩ := hplain c.toNat (mem_blankCodes blank)
  rw [Char.ofNat_toNat] at hascii hmark htwo
  have hletter : isAlphanumeric c = false := by
    rw [isAlphanumeric]
    split
    · exact hascii
    · rw [contains_eq_false_of_isBlank (.inl rfl) blank,
        contains_eq_false_of_isBlank (.inr rfl) blank]
      rfl
  rw [isAddressAtomChar, hletter, hmark, htwo]
  rfl

theorem isAtomChar_of_isAddressAtomChar {c : Char} (inside : isAddressAtomChar c) :
    isAtomChar c := by
  simp only [isAddressAtomChar, Bool.or_eq_true, isAlphanumeric] at inside
  simp only [isAtomChar, Bool.or_eq_true, decide_eq_true_eq]
  rcases inside with (hletter | hmark) | htwo
  · split at hletter
    · exact .inl (.inl hletter)
    · next hlarge => exact .inr (Nat.not_lt.1 hlarge)
  · exact .inl (.inr hmark)
  · simp only [looksTwoByte, Bool.and_eq_true, decide_eq_true_eq] at htwo
    exact .inr (by omega)

theorem eq_of_isGap {c : Char} (hc : isGap c) : c = ' ' ∨ c = '\t' := by
  rwa [isGap, Bool.or_eq_true, beq_iff_eq, beq_iff_eq] at hc

theorem isGap_of_isAtomChar {c : Char} (hc : isAtomChar c) : isGap c = false := by
  rw [Bool.eq_false_iff]
  intro hgap
  rcases eq_of_isGap hgap with rfl | rfl
  · exact absurd hc (by decide)
  · exact absurd hc (by decide)

/-! ## Atoms parted by dots -/

/-- Atoms parted by dots. -/
structure IsDotAtom (text : List Char) : Prop where
  chars : ∀ c ∈ text, isAtomChar c || c == '.'
  filled : ∀ part ∈ partsAt '.' text, part ≠ []

theorem IsDotAtom.isAtomChar_or_eq {text : List Char} (dotAtom : IsDotAtom text) {c : Char}
    (hc : c ∈ text) : isAtomChar c ∨ c = '.' := by
  have hchar := dotAtom.chars c hc
  rwa [Bool.or_eq_true, beq_iff_eq] at hchar

theorem IsDotAtom.ne_nil {text : List Char} (dotAtom : IsDotAtom text) : text ≠ [] := by
  rintro rfl
  exact dotAtom.filled [] (by simp [partsAt]) rfl

/-- Atoms parted by dots begin with an atom. -/
theorem IsDotAtom.exists_cons {text : List Char} (dotAtom : IsDotAtom text) :
    ∃ c others, text = c :: others ∧ isAtomChar c := by
  obtain ⟨c, others, rfl⟩ := List.exists_cons_of_ne_nil dotAtom.ne_nil
  refine ⟨c, others, rfl, ?_⟩
  rcases dotAtom.isAtomChar_or_eq (List.mem_cons_self ..) with hatom | rfl
  · exact hatom
  · exact absurd rfl (dotAtom.filled [] (by simp [partsAt]))

theorem isDotAtom_of_readDotAtom {text atoms rest : List Char}
    (found : readDotAtom text = some (atoms, rest)) : IsDotAtom atoms := by
  unfold readDotAtom at found
  simp only at found
  split at found
  · next hfilled =>
    cases found
    refine ⟨fun c hc => List.all_eq_true.1 List.all_takeWhile c hc, fun part hpart => ?_⟩
    simpa using List.all_eq_true.1 hfilled part hpart
  · cases found

/-- Atoms parted by dots are read up to the first character of another kind. -/
theorem readDotAtom_append {atoms rest : List Char} (dotAtom : IsDotAtom atoms)
    (stop : ∀ c ∈ rest.head?, (isAtomChar c || c == '.') = false) :
    readDotAtom (atoms ++ rest) = some (atoms, rest) := by
  obtain ⟨c, others, rfl, hatom⟩ := dotAtom.exists_cons
  have hdrop : (c :: others ++ rest).dropWhile isGap = c :: others ++ rest := by
    rw [List.cons_append, List.dropWhile_cons_of_neg (by simp [isGap_of_isAtomChar hatom])]
  have hspan := span_append dotAtom.chars stop
  unfold readDotAtom
  simp only [hdrop, hspan.1, hspan.2]
  rw [if_pos]
  rw [List.all_eq_true]
  intro part hpart
  simpa using dotAtom.filled part hpart

/-! ## Users -/

/-- The user of the address is written in quotes. -/
def Address.IsQuoted (address : Address) : Prop :=
  address.user.head? = some '"'

instance (address : Address) : Decidable address.IsQuoted :=
  inferInstanceAs (Decidable (address.user.head? = some '"'))

theorem isUser_eq_true_iff {user : List Char} :
    isUser user ↔ (user ≠ [] ∧ encodedLength user ≤ userLimit) ∧
      if user.head? = some '"' ∧ user.getLast? = some '"' then
        2 < user.length ∧ isQuotedContent (user.drop 1).dropLast
      else ∀ part ∈ partsAt '.' user, isAddressAtom part := by
  unfold isUser
  simp only
  split
  · next hquoted =>
    simp only [Bool.and_eq_true, beq_iff_eq] at hquoted
    simp [hquoted, and_assoc]
  · next hplain =>
    simp only [Bool.and_eq_true, beq_iff_eq] at hplain
    simp [hplain, and_assoc]

/-- The characters of a plain user are those of its atoms, and dots. -/
theorem isAddressAtomChar_of_mem_user {user : List Char} {c : Char}
    (atoms : ∀ part ∈ partsAt '.' user, isAddressAtom part) (hc : c ∈ user) :
    isAddressAtomChar c ∨ c = '.' := by
  rcases exists_mem_partsAt '.' hc with rfl | ⟨part, hpart, hc⟩
  · exact .inr rfl
  · have hatom := atoms part hpart
    rw [isAddressAtom, Bool.and_eq_true, List.all_eq_true] at hatom
    exact .inl (hatom.2 c hc)

theorem isDotAtom_of_isUser {user : List Char} (valid : isUser user)
    (plain : user.head? ≠ some '"') : IsDotAtom user := by
  have hatoms := (isUser_eq_true_iff.1 valid).2
  rw [if_neg fun hquoted => plain hquoted.1] at hatoms
  constructor
  · intro c hc
    rcases isAddressAtomChar_of_mem_user hatoms hc with hc | rfl
    · rw [isAtomChar_of_isAddressAtomChar hc, Bool.true_or]
    · rfl
  · rintro _ hpart rfl
    exact absurd (hatoms [] hpart) (by decide)

/-- A user in quotes holds characters that may stand there. -/
theorem exists_isQuotedContent_of_isUser {user : List Char} (valid : isUser user)
    (quoted : user.head? = some '"') :
    ∃ content, user = '"' :: content ++ ['"'] ∧ isQuotedContent content := by
  have hrest := (isUser_eq_true_iff.1 valid).2
  obtain ⟨others, rfl⟩ := List.head?_eq_some_iff.1 quoted
  by_cases hlast : ('"' :: others).getLast? = some '"'
  · rw [if_pos ⟨quoted, hlast⟩] at hrest
    obtain ⟨hlength, hcontent⟩ := hrest
    have hne : others ≠ [] := by
      rintro rfl
      exact absurd hlength (by decide)
    have hend : others.getLast hne = '"' := by
      rw [List.getLast?_cons, List.getLast?_eq_some_getLast hne] at hlast
      exact Option.some.inj hlast
    refine ⟨others.dropLast, ?_, hcontent⟩
    rw [List.cons_append, ← hend, List.dropLast_concat_getLast hne]
  · rw [if_neg fun hquoted => hlast hquoted.2] at hrest
    rcases isAddressAtomChar_of_mem_user hrest (List.mem_cons_self ..) with hmark | hmark
    · exact absurd hmark (by decide +kernel)
    · exact absurd hmark (by decide)

/-! ## Quoted texts -/

theorem readQuoted_quote (gap rest : List Char) :
    readQuoted gap ('"' :: rest) = ([], '"' :: rest) := by
  rw [readQuoted]
  · rfl
  · intro c rest heq
    cases heq

theorem readQuoted_escape {c : Char} (quotable : isQuotable c) (gap rest : List Char) :
    readQuoted gap ('\\' :: c :: rest) =
      (gap ++ c :: (readQuoted [] rest).1, (readQuoted [] rest).2) := by
  rw [readQuoted, if_pos quotable]

theorem readQuoted_gap {c : Char} (hgap : isGap c) (gap rest : List Char) :
    readQuoted gap (c :: rest) = readQuoted (if gap.isEmpty then [c] else gap) rest := by
  rw [readQuoted, if_pos hgap]
  rintro d others rfl
  exact absurd hgap (by decide)

theorem readQuoted_plain {c : Char} (hgap : isGap c = false) (plain : isQuotedText c)
    (gap rest : List Char) :
    readQuoted gap (c :: rest) =
      (gap ++ c :: (readQuoted [] rest).1, (readQuoted [] rest).2) := by
  rw [readQuoted, hgap, if_neg Bool.false_ne_true, if_pos plain]
  rintro d others rfl
  exact absurd plain (by decide)

theorem isGap_or_isQuotedText {c : Char} (plain : isPlainQuotedChar c) :
    isGap c ∨ isQuotedText c := by
  simp only [isPlainQuotedChar, looksTwoByte, isGap, isQuotedText, Bool.or_eq_true,
    Bool.and_eq_true, beq_iff_eq, decide_eq_true_eq] at plain ⊢
  rcases plain with ((((hspace | htab) | hcode) | hcode) | hcode) | hcode
  · exact .inl (.inl hspace)
  · exact .inl (.inr htab)
  · exact .inr (by omega)
  · exact .inr (by omega)
  · exact .inr (by omega)
  · exact .inr (by omega)

/-- The content of a quoted user is read up to the closing quote, and it does not grow. -/
theorem readQuoted_of_isQuotedContent {content : List Char} (valid : isQuotedContent content)
    (gap rest : List Char) :
    ∃ read, readQuoted gap (content ++ '"' :: rest) = (read, '"' :: rest) ∧
      read.length ≤ gap.length + content.length := by
  fun_induction isQuotedContent content generalizing gap with
  | case1 => exact ⟨[], readQuoted_quote gap rest, Nat.zero_le _⟩
  | case2 c content ih =>
      simp only [Bool.and_eq_true, decide_eq_true_eq] at valid
      have quotable : isQuotable c := by
        have hlow := Char.le_def.1 valid.1.1
        have hhigh := Char.le_def.1 valid.1.2
        simp [isQuotable, UInt32.le_iff_toNat_le] at hlow hhigh ⊢
        omega
      obtain ⟨read, hread, hlength⟩ := ih valid.2 []
      refine ⟨gap ++ c :: read, ?_, ?_⟩
      · rw [List.cons_append, List.cons_append, readQuoted_escape quotable, hread]
      · simp only [List.length_append, List.length_cons, List.length_nil] at hlength ⊢
        omega
  | case3 c content _ ih =>
      rw [Bool.and_eq_true] at valid
      rw [List.cons_append]
      cases hgap : isGap c with
      | true =>
          obtain ⟨read, hread, hlength⟩ := ih valid.2 (if gap.isEmpty then [c] else gap)
          refine ⟨read, by rw [readQuoted_gap hgap, hread], ?_⟩
          have hkept : (if gap.isEmpty then [c] else gap).length ≤ gap.length + 1 := by
            split <;> simp
          rw [List.length_cons]
          omega
      | false =>
          have plain : isQuotedText c := by
            simpa [hgap] using isGap_or_isQuotedText valid.1
          obtain ⟨read, hread, hlength⟩ := ih valid.2 []
          refine ⟨gap ++ c :: read, by rw [readQuoted_plain hgap plain, hread], ?_⟩
          simp only [List.length_append, List.length_cons, List.length_nil] at hlength ⊢
          omega

/-! ## Addresses -/

/-- A user in quotes is read without them. -/
theorem readQuotedText_of_isUser {user : List Char} (valid : isUser user)
    (quoted : user.head? = some '"') (rest : List Char) :
    ∃ read, readQuotedText (user ++ rest) = some (read, rest) ∧ read.length < user.length := by
  obtain ⟨content, rfl, hcontent⟩ := exists_isQuotedContent_of_isUser valid quoted
  obtain ⟨read, hread, hlength⟩ := readQuoted_of_isQuotedContent hcontent [] rest
  refine ⟨read, ?_, ?_⟩
  · have hdrop : ('"' :: rest).dropWhile isBlank = '"' :: rest := by
      rw [List.dropWhile_cons_of_neg (by decide)]
    rw [List.cons_append, List.cons_append, List.append_assoc, List.singleton_append,
      readQuotedText, hread]
    simp only [hdrop]
  · simp only [List.length_append, List.length_cons, List.length_nil] at hlength ⊢
    omega

/-- Where an address is written, its domain is read, and its user unless it is in quotes. -/
theorem readAddress_text {address : Address} (valid : isUser address.user)
    (dotAtom : IsDotAtom address.domain) {rest : List Char}
    (stop : ∀ c ∈ rest.head?, (isAtomChar c || c == '.') = false) :
    ∃ user, readAddress (address.text ++ rest) = some ((user, address.domain), rest) ∧
      (¬ address.IsQuoted → user = address.user) ∧
      (address.IsQuoted → user.length < address.user.length) := by
  have htext : address.text ++ rest = address.user ++ '@' :: (address.domain ++ rest) := by
    rw [Address.text, List.append_assoc, List.cons_append]
  have hdomain := readDotAtom_append dotAtom stop
  have finish {user : List Char}
      (huser : (readDotAtom (address.user ++ '@' :: (address.domain ++ rest))).or
        (readQuotedText (address.user ++ '@' :: (address.domain ++ rest))) =
          some (user, '@' :: (address.domain ++ rest))) :
      readAddress (address.text ++ rest) = some ((user, address.domain), rest) := by
    rw [htext, readAddress, huser]
    simp [hdomain]
  by_cases hquoted : address.IsQuoted
  · obtain ⟨user, huser, hlength⟩ :=
      readQuotedText_of_isUser valid hquoted ('@' :: (address.domain ++ rest))
    refine ⟨user, finish ?_, fun hplain => absurd hquoted hplain, fun _ => hlength⟩
    obtain ⟨others, hothers⟩ := List.head?_eq_some_iff.1 hquoted
    have hnone : readDotAtom (address.user ++ '@' :: (address.domain ++ rest)) = none := by
      rw [hothers]
      rfl
    rw [hnone, Option.none_or, huser]
  · have hdot : readDotAtom (address.user ++ '@' :: (address.domain ++ rest)) =
        some (address.user, '@' :: (address.domain ++ rest)) := by
      apply readDotAtom_append (isDotAtom_of_isUser valid hquoted)
      rintro c ⟨rfl⟩
      decide
    exact ⟨address.user, finish (by rw [hdot, Option.some_or]), fun _ => rfl,
      fun hcontra => absurd hcontra hquoted⟩

end MailMerge.Mail
