/-
# Which texts are read back

A text that is written into a field is not always the text that is read there. A readable word that
looks like an encoded word is taken for one, and blanks between two encoded words are taken out. A
text in which neither happens is legible, and it is read back just as it was given; from every other
text something is lost.
-/

import MailMerge.Proofs.Mail.ShownText

namespace MailMerge.Mail

open MailMerge.Text

/-! ## Legible texts -/

/-- What stands before a word, as far as it matters to how the word is read. -/
inductive Foregoing where
  /-- Nothing, or a word that is not encoded. -/
  | plain
  /-- A word that is encoded. -/
  | encoded
  /-- An encoded word with readable blanks behind it. -/
  | gap
  deriving DecidableEq, Repr

/-- What stands before a word behind further blanks. -/
def Foregoing.behindBlanks : Foregoing → Foregoing
  | .plain => .plain
  | .encoded | .gap => .gap

namespace Charsets

/-- No part of a word between blanks is taken for an encoded word. -/
def isPlain (charsets : Charsets) (word : List Char) : Bool :=
  (word.splitOnP isWordGap).all fun part => (charsets.readWord? part).isNone

/-- Words that are read back as they are, by what stands before them. -/
def isLegibleBehind (charsets : Charsets) : Foregoing → List (List Char) → Bool
  | _, [] => true
  | before, word :: words =>
    if word.all FieldWriter.isReadable then
      charsets.isPlain word && charsets.isLegibleBehind
        (if word.all isWordGap then before.behindBlanks else .plain) words
    else before != .gap && charsets.isLegibleBehind .encoded words

/-- A text that is read back as it is. -/
def isLegible (charsets : Charsets) (text : List Char) : Bool :=
  charsets.isLegibleBehind .plain (wordsOf text)

variable {charsets : Charsets}

/-- A stretch of words that are encoded together must not follow blanks behind an encoded word. -/
theorem isLegibleBehind_stretch {stretch : List (List Char)} (filled : stretch ≠ [])
    (unreadable : ∀ word ∈ stretch, word.all FieldWriter.isReadable = false)
    (before : Foregoing) (words : List (List Char)) :
    charsets.isLegibleBehind before (stretch ++ words) =
      (before != .gap && charsets.isLegibleBehind .encoded words) := by
  induction stretch generalizing before with
  | nil => exact absurd rfl filled
  | cons word stretch ih =>
      rw [List.cons_append, isLegibleBehind, unreadable word (by simp),
        if_neg Bool.false_ne_true]
      by_cases hlast : stretch = []
      · rw [hlast, List.nil_append]
      · rw [ih hlast fun other hother => unreadable other (List.mem_cons_of_mem _ hother)]
        rfl

/-- Readable words are read alike behind an encoded word and behind blanks that follow one. -/
theorem isLegibleBehind_encoded {words : List (List Char)}
    (readable : ∀ word ∈ words.head?, word.all FieldWriter.isReadable) :
    charsets.isLegibleBehind .encoded words = charsets.isLegibleBehind .gap words := by
  cases words with
  | nil => rfl
  | cons word words =>
      have hword := readable word rfl
      rw [isLegibleBehind, isLegibleBehind, if_pos hword, if_pos hword]
      rfl

end Charsets

theorem Shows.eq_nil {shown : List Char} (shows : Shows [] shown) : shown = [] := by
  generalize hwords : ([] : List (List Char)) = words at shows
  cases shows with
  | nil => rfl
  | readable => cases hwords
  | encoded filled => exact absurd (List.append_eq_nil_iff.1 hwords.symm).1 filled

/-! ## Words -/

/-- Words of which each but the last ends with a space. -/
inductive IsSpaced : List (List Char) → Prop where
  | nil : IsSpaced []
  | last {word : List Char} (filled : word ≠ []) : IsSpaced [word]
  | cons {word : List Char} {words : List (List Char)} (ends : word.getLast? = some ' ')
      (spaced : IsSpaced words) : IsSpaced (word :: words)

theorem isSpaced_wordsOf (text : List Char) : IsSpaced (wordsOf text) := by
  fun_induction wordsOf text with
  | case1 => exact .nil
  | case2 rest ih => exact .cons rfl ih
  | case3 c rest _ hwords => exact .last (List.cons_ne_nil _ _)
  | case4 c rest _ word words hwords ih =>
      rw [hwords] at ih
      cases ih with
      | last => exact .last (List.cons_ne_nil _ _)
      | cons ends spaced =>
          refine .cons ?_ spaced
          rw [List.getLast?_cons, ends]
          rfl

theorem flatten_wordsOf (text : List Char) : (wordsOf text).flatten = text := by
  fun_induction wordsOf text with
  | case1 => rfl
  | case2 rest ih => rw [List.flatten_cons, ih, List.singleton_append]
  | case3 c rest _ hwords ih =>
      rw [hwords] at ih
      rw [← ih]
      rfl
  | case4 c rest _ word words hwords ih =>
      rw [hwords] at ih
      rw [← ih]
      rfl

namespace IsSpaced

variable {word : List Char} {words stretch : List (List Char)}

theorem filled_head (spaced : IsSpaced (word :: words)) : word ≠ [] := by
  cases spaced with
  | last filled => exact filled
  | cons ends =>
      rintro rfl
      cases ends

theorem tail (spaced : IsSpaced (word :: words)) : IsSpaced words := by
  cases spaced with
  | last => exact .nil
  | cons _ spaced => exact spaced

theorem of_append (spaced : IsSpaced (stretch ++ words)) : IsSpaced words := by
  induction stretch with
  | nil => exact spaced
  | cons first stretch ih => exact ih spaced.tail

/-- A stretch of words before others ends with a space. -/
theorem getLast?_flatten (spaced : IsSpaced (stretch ++ words)) (filled : stretch ≠ [])
    (more : words ≠ []) : stretch.flatten.getLast? = some ' ' := by
  induction stretch with
  | nil => exact absurd rfl filled
  | cons first stretch ih =>
      rw [List.flatten_cons, List.getLast?_append]
      by_cases hlast : stretch = []
      · subst hlast
        cases spaced with
        | last => exact absurd rfl more
        | cons ends => rw [ends]; rfl
      · rw [ih spaced.tail hlast]
        rfl

end IsSpaced

/-! ## Reading -/

namespace TextReader

variable {charsets : Charsets} {r : TextReader}

/-- All that a reader has read or seen. -/
def seen (r : TextReader) : List Char :=
  r.shown ++ r.gap ++ r.word

/-- What stands before the next word. -/
def foregoing (r : TextReader) : Foregoing :=
  if r.afterEncoded then (if r.gap = [] then .encoded else .gap) else .plain

theorem finish_eq_seen (r : TextReader) : r.finish charsets = (r.endWord charsets).seen := by
  rw [finish, seen, word_endWord, List.append_nil]

/-- A word that is not encoded is read as it is. -/
theorem endWord_of_plain (solid : ∀ c ∈ r.word, isWordGap c = false)
    (plain : charsets.readWord? r.word = none) :
    (r.endWord charsets).seen = r.seen ∧
      (r.endWord charsets).afterEncoded = (r.afterEncoded && r.word.all isWordGap) := by
  rw [endWord]
  split
  · next hword => exact ⟨rfl, by rw [hword, List.all_nil, Bool.and_true]⟩
  · next hword =>
    obtain ⟨c, word, heq⟩ := List.exists_cons_of_ne_nil hword
    have hall : r.word.all isWordGap = false := by
      rw [heq, List.all_cons, solid c (by simp [heq]), Bool.false_and]
    rw [plain, hall, Bool.and_false]
    exact ⟨by simp [seen], rfl⟩

/-- The end of a word adds nothing to what was seen, and an encoded word takes something away. -/
theorem length_seen_endWord (charsets : Charsets) (r : TextReader) :
    (r.endWord charsets).seen.length ≤ r.seen.length ∧
      (charsets.readWord? r.word ≠ none →
        (r.endWord charsets).seen.length < r.seen.length) := by
  have hkept : r.keptGap.length ≤ r.gap.length := by
    rw [keptGap]
    split <;> simp
  rw [endWord]
  split
  · next hword =>
    refine ⟨Nat.le_refl _, fun coded => ?_⟩
    rw [hword] at coded
    exact absurd readWord?_nil coded
  · cases hread : charsets.readWord? r.word with
    | none => exact ⟨by simp [seen], fun coded => absurd rfl coded⟩
    | some text =>
        have hlength := length_of_readWord? hread
        have hlt : (r.shown ++ r.keptGap ++ text).length < r.seen.length := by
          simp only [seen, List.length_append]
          omega
        have hseen : seen ⟨r.shown ++ r.keptGap ++ text, true, [], []⟩ =
            r.shown ++ r.keptGap ++ text := by
          simp [seen]
        rw [hseen]
        exact ⟨Nat.le_of_lt hlt, fun _ => hlt⟩

/-! ### Readable words -/

/-- The parts of a text between blanks, with what was seen of the first one. -/
def parts (r : TextReader) (text : List Char) : List (List Char) :=
  (text.splitOnP isWordGap).modifyHead (r.word ++ ·)

theorem parts_nil (r : TextReader) : r.parts [] = [r.word] := by
  rw [parts, List.splitOnP_nil, List.modifyHead_cons, List.append_nil]

theorem parts_of_word_eq_nil (ended : r.word = []) (text : List Char) :
    r.parts text = text.splitOnP isWordGap := by
  rw [parts, ended]
  cases text.splitOnP isWordGap <;> rfl

theorem parts_gap_cons (charsets : Charsets) {c : Char} (gap : isWordGap c) (text : List Char) :
    r.parts (c :: text) = r.word :: (r.read charsets c).parts text := by
  have hread : (r.read charsets c).word = [] := by
    rw [read, if_pos gap]
    exact word_endWord r
  rw [parts_of_word_eq_nil hread, parts, List.splitOnP_cons_eq_if_modifyHead, if_pos gap,
    List.modifyHead_cons, List.append_nil]

theorem parts_solid_cons (charsets : Charsets) {c : Char} (solid : isWordGap c = false)
    (text : List Char) : r.parts (c :: text) = (r.read charsets c).parts text := by
  rw [parts, List.splitOnP_cons_eq_if_modifyHead, solid, if_neg Bool.false_ne_true,
    List.modifyHead_modifyHead, read, solid, if_neg Bool.false_ne_true, parts]
  congr 1
  funext part
  simp

theorem seen_read (r : TextReader) (c : Char) :
    (r.read charsets c).seen =
      (if isWordGap c then (r.endWord charsets).seen else r.seen) ++ [c] := by
  rw [read]
  split
  · simp [seen, word_endWord]
  · simp [seen]

/-- A text of which no part is taken for an encoded word is read as it is. -/
theorem endWord_readText_of_plain {text : List Char} (solid : ∀ c ∈ r.word, isWordGap c = false)
    (plain : ∀ part ∈ r.parts text, charsets.readWord? part = none) :
    ((r.readText charsets text).endWord charsets).seen = r.seen ++ text ∧
      ((r.readText charsets text).endWord charsets).afterEncoded =
        (r.afterEncoded && (r.word ++ text).all isWordGap) := by
  induction text generalizing r with
  | nil =>
      rw [parts_nil, List.forall_mem_singleton] at plain
      rw [List.append_nil, List.append_nil]
      exact endWord_of_plain solid plain
  | cons c text ih =>
      have hread : r.readText charsets (c :: text) =
          (r.read charsets c).readText charsets text := rfl
      rw [hread]
      by_cases gap : isWordGap c
      · rw [parts_gap_cons charsets gap, List.forall_mem_cons] at plain
        obtain ⟨hseen, hafter⟩ := endWord_of_plain solid plain.1
        have hword : (r.read charsets c).word = [] := by
          rw [read, if_pos gap]
          exact word_endWord r
        have hstate : (r.read charsets c).afterEncoded = (r.endWord charsets).afterEncoded := by
          rw [read, if_pos gap]
        obtain ⟨hall, hlast⟩ := ih (by simp [hword]) plain.2
        constructor
        · rw [hall, seen_read, if_pos gap, hseen, List.append_assoc, List.singleton_append]
        · rw [hlast, hstate, hafter, hword, List.nil_append, List.all_append, List.all_cons, gap,
            Bool.true_and, Bool.and_assoc]
      · have hsolid : isWordGap c = false := Bool.eq_false_iff.2 gap
        have hword : (r.read charsets c).word = r.word ++ [c] := by
          rw [read, if_neg gap]
        have hstate : (r.read charsets c).afterEncoded = r.afterEncoded := by
          rw [read, if_neg gap]
        rw [parts_solid_cons charsets hsolid] at plain
        obtain ⟨hall, hlast⟩ := ih
          (by rw [hword]; exact List.forall_mem_append.2 ⟨solid, by simpa using hsolid⟩) plain
        constructor
        · rw [hall, seen_read, if_neg gap, List.append_assoc, List.singleton_append]
        · rw [hlast, hstate, hword, List.append_assoc, List.singleton_append]

/-- Reading a text adds no more to what was seen than the text, and less when some part of it is
taken for an encoded word. -/
theorem length_seen_endWord_readText (charsets : Charsets) (r : TextReader) (text : List Char) :
    ((r.readText charsets text).endWord charsets).seen.length ≤ r.seen.length + text.length ∧
      ((∃ part ∈ r.parts text, charsets.readWord? part ≠ none) →
        ((r.readText charsets text).endWord charsets).seen.length <
          r.seen.length + text.length) := by
  induction text generalizing r with
  | nil =>
      have hread : r.readText charsets [] = r := rfl
      rw [parts_nil, hread]
      simpa using length_seen_endWord charsets r
  | cons c text ih =>
      have hread : r.readText charsets (c :: text) =
          (r.read charsets c).readText charsets text := rfl
      obtain ⟨hle, hlt⟩ := ih (r.read charsets c)
      rw [hread, List.length_cons]
      by_cases gap : isWordGap c
      · obtain ⟨hword, hcoded⟩ := length_seen_endWord charsets r
        rw [seen_read, if_pos gap, List.length_append, List.length_singleton] at hle hlt
        rw [parts_gap_cons charsets gap]
        refine ⟨by omega, ?_⟩
        rintro ⟨part, hpart, coded⟩
        rcases List.mem_cons.1 hpart with rfl | hpart
        · have := hcoded coded
          omega
        · have := hlt ⟨part, hpart, coded⟩
          omega
      · have hsolid : isWordGap c = false := Bool.eq_false_iff.2 gap
        rw [seen_read, if_neg gap, List.length_append, List.length_singleton] at hle hlt
        rw [parts_solid_cons charsets hsolid]
        refine ⟨by omega, fun coded => ?_⟩
        have := hlt coded
        omega

/-! ### Encoded words -/

/-- A reader that has come to an encoded text and to spaces behind it. -/
def behindEncoded (r : TextReader) (text : List Char) (spaces : Nat) : TextReader :=
  ⟨r.shown ++ r.keptGap ++ text, true, List.replicate spaces ' ', []⟩

theorem word_behindEncoded (r : TextReader) (text : List Char) (spaces : Nat) :
    (r.behindEncoded text spaces).word = [] := rfl

theorem seen_behindEncoded (r : TextReader) (text : List Char) (spaces : Nat) :
    (r.behindEncoded text spaces).seen =
      r.shown ++ r.keptGap ++ (text ++ List.replicate spaces ' ') := by
  simp [behindEncoded, seen]

/-- Spaces behind an encoded text are remembered. -/
theorem readText_behindEncoded (r : TextReader) (text : List Char) (spaces : Nat) :
    (r.behindEncoded text 0).readText charsets (List.replicate spaces ' ') =
      r.behindEncoded text spaces :=
  readText_gap rfl fun c hc => by
    rw [List.eq_of_mem_replicate hc]
    decide

/-- The space between two encoded texts is not kept. -/
theorem behindEncoded_behindEncoded (r : TextReader) (first second : List Char)
    (spaces others : Nat) :
    (r.behindEncoded first spaces).behindEncoded second others =
      r.behindEncoded (first ++ second) others := by
  simp [behindEncoded, keptGap]

/-- Words that begin with a readable one are read alike behind an encoded text, with spaces and
without. -/
theorem isLegibleBehind_behindEncoded {words : List (List Char)}
    (readable : ∀ word ∈ words.head?, word.all FieldWriter.isReadable)
    (r : TextReader) (text : List Char) (spaces : Nat) :
    charsets.isLegibleBehind (r.behindEncoded text spaces).foregoing words =
      charsets.isLegibleBehind .encoded words := by
  cases spaces with
  | zero => rfl
  | succ n => exact (Charsets.isLegibleBehind_encoded readable).symm

/-- A single encoded word is read as what it holds. -/
theorem endWord_encodedWord (ended : r.word = []) {chunk : List Char} (fits : FitsWord chunk) :
    (r.readText charsets (encodedWord chunk)).endWord charsets = r.behindEncoded chunk 0 := by
  have hsolid : ∀ c ∈ encodedWord chunk, isWordGap c = false := by
    intro c hc
    rw [Bool.eq_false_iff]
    intro gap
    have hvisible := isVisible_of_mem_encodedWord chunk c hc
    rw [isWordGap, Bool.or_eq_true, beq_iff_eq, beq_iff_eq] at gap
    rcases gap with rfl | rfl <;> exact absurd hvisible (by decide)
  have hfilled : encodedWord chunk ≠ [] := by
    rw [← List.length_pos_iff, length_encodedWord]
    omega
  rw [readText_word hsolid, ended, List.nil_append, endWord, if_neg hfilled]
  dsimp only
  rw [readWord?_encodedWord fits.filled fits.short]
  rfl

/-- Encoded words with single spaces between them are read as the text that they hold together. -/
theorem endWord_readText_of_isEncoding (ended : r.word = []) {text encoding : List Char}
    (encodes : IsEncoding text encoding) :
    (r.readText charsets encoding).endWord charsets = r.behindEncoded text 0 := by
  obtain ⟨first, others, fits, rfl, rfl⟩ := encodes
  induction others generalizing r first with
  | nil =>
      rw [List.flatMap_nil, List.append_nil, List.flatten_nil, List.append_nil]
      exact endWord_encodedWord ended (fits first (by simp))
  | cons second others ih =>
      have hspace : r.readText charsets (encodedWord first ++ [' ']) = r.behindEncoded first 1 := by
        rw [readText_append, readText, List.foldl_cons, List.foldl_nil, read, if_pos (by decide),
          endWord_encodedWord ended (fits first (by simp))]
        rfl
      have hsplit : encodedWord first ++
          ((second :: others).flatMap fun chunk => ' ' :: encodedWord chunk) =
            encodedWord first ++ [' '] ++
              (encodedWord second ++ others.flatMap fun chunk => ' ' :: encodedWord chunk) := by
        simp
      have hrest := ih (word_behindEncoded r first 1) second
        fun chunk hchunk => fits chunk (List.mem_cons_of_mem _ hchunk)
      rw [hsplit, readText_append, hspace, hrest, behindEncoded_behindEncoded, List.flatten_cons]

/-- Behind blanks that follow an encoded word, some blanks will not be kept. -/
theorem length_keptGap_of_foregoing (gap : r.foregoing = .gap) :
    r.keptGap.length < r.gap.length := by
  rw [foregoing] at gap
  split at gap
  · next after =>
    split at gap
    · cases gap
    · next filled =>
      rw [keptGap, if_pos after]
      exact List.length_pos_iff.2 filled
  · cases gap

theorem keptGap_of_foregoing (noGap : r.foregoing ≠ .gap) : r.keptGap = r.gap := by
  rw [keptGap]
  split
  · next after =>
    rw [foregoing, if_pos after] at noGap
    by_contra filled
    rw [if_neg fun hempty => filled hempty.symm] at noGap
    exact noGap rfl
  · rfl

/-! ### Words of a text -/

/-- A word that ends with a space has ended. -/
theorem endWord_readText_of_getLast? {word : List Char} (ends : word.getLast? = some ' ') :
    (r.readText charsets word).endWord charsets = r.readText charsets word := by
  apply endWord_of_word_eq_nil
  obtain ⟨init, rfl⟩ := List.getLast?_eq_some_iff.1 ends
  rw [readText_append, readText, List.foldl_cons, List.foldl_nil, read, if_pos (by decide)]
  exact word_endWord _

end TextReader

/-! ## Reading back -/

/-- What is read is what was given if this was legible, and less than that if not. -/
structure ReadsBack (legible : Prop) (read given : List Char) : Prop where
  exact : legible → read = given
  shorter : ¬ legible → read.length < given.length

namespace ReadsBack

variable {legible : Prop} {read given : List Char}

theorem length_le (back : ReadsBack legible read given) : read.length ≤ given.length := by
  by_cases h : legible
  · rw [back.exact h]
  · exact Nat.le_of_lt (back.shorter h)

theorem eq_iff (back : ReadsBack legible read given) : read = given ↔ legible := by
  refine ⟨fun heq => ?_, back.exact⟩
  by_contra illegible
  have := back.shorter illegible
  rw [heq] at this
  exact Nat.lt_irrefl _ this

end ReadsBack

namespace TextReader

variable {charsets : Charsets} {r : TextReader}

/-- Whatever has been read before, words are read back from what shows them if they are legible
behind it. -/
def BacksWords (charsets : Charsets) (words : List (List Char)) (shown : List Char) : Prop :=
  ∀ r : TextReader, r.word = [] →
    ReadsBack (charsets.isLegibleBehind r.foregoing words)
      ((r.readText charsets shown).finish charsets) (r.seen ++ words.flatten)

theorem foregoing_readText_blank (ended : r.word = []) {word : List Char} (filled : word ≠ [])
    (blank : word.all isWordGap) :
    ((r.readText charsets word).endWord charsets).foregoing = r.foregoing.behindBlanks := by
  rw [readText_gap ended (List.all_eq_true.1 blank), endWord_of_word_eq_nil (by exact ended),
    foregoing, foregoing]
  dsimp only
  rw [if_neg (List.append_ne_nil_of_right_ne_nil _ filled)]
  split
  · split <;> rfl
  · rfl

/-- A readable word is read back unless some part of it is taken for an encoded word. -/
theorem backsWords_readable {word : List Char} {words : List (List Char)} {shown : List Char}
    (readable : word.all FieldWriter.isReadable) (spaced : IsSpaced (word :: words))
    (shows : Shows words shown) (backs : BacksWords charsets words shown) :
    BacksWords charsets (word :: words) (word ++ shown) := by
  intro r ended
  have hfinish : (r.readText charsets (word ++ shown)).finish charsets =
      (((r.readText charsets word).endWord charsets).readText charsets shown).finish charsets := by
    rw [readText_append]
    cases spaced with
    | last => rw [shows.eq_nil, finish_readText_endWord (by simp)]
    | cons ends => rw [endWord_readText_of_getLast? ends]
  have hback := backs ((r.readText charsets word).endWord charsets) (word_endWord _)
  have hparts := parts_of_word_eq_nil ended word
  rw [← hfinish] at hback
  rw [Charsets.isLegibleBehind, if_pos readable, List.flatten_cons, ← List.append_assoc]
  by_cases plain : charsets.isPlain word
  · have hplain : ∀ part ∈ r.parts word, charsets.readWord? part = none := by
      rw [hparts]
      simpa [Charsets.isPlain] using plain
    obtain ⟨hseen, hafter⟩ := endWord_readText_of_plain (by simp [ended]) hplain
    have hforegoing : ((r.readText charsets word).endWord charsets).foregoing =
        if word.all isWordGap then r.foregoing.behindBlanks else .plain := by
      split
      · next blank => exact foregoing_readText_blank ended spaced.filled_head blank
      · next solid =>
        rw [ended, List.nil_append, Bool.eq_false_iff.2 solid, Bool.and_false] at hafter
        rw [foregoing, hafter]
        rfl
    rw [hseen, hforegoing] at hback
    rw [plain, Bool.true_and]
    exact hback
  · obtain ⟨-, hlt⟩ := length_seen_endWord_readText charsets r word
    have hcoded : ∃ part ∈ r.parts word, charsets.readWord? part ≠ none := by
      rw [hparts]
      simpa [Charsets.isPlain, Option.isSome_iff_ne_none] using plain
    have hless := hlt hcoded
    have hle := hback.length_le
    refine ⟨fun legible => ?_, fun _ => ?_⟩
    · rw [Bool.and_eq_true] at legible
      exact absurd legible.1 plain
    · simp only [List.length_append] at hle ⊢
      omega

/-- Behind the encoded words of a stretch comes a blank, if anything does. -/
theorem isWordGap_of_mem_head? {stretch words : List (List Char)} {core shown : List Char}
    {spaces : Nat} (filled : stretch ≠ []) (spaced : IsSpaced (stretch ++ words))
    (text : stretch.flatten = core ++ List.replicate spaces ' ')
    (trimmed : core.getLast? ≠ some ' ') (shows : Shows words shown) :
    ∀ c ∈ (List.replicate spaces ' ' ++ shown).head?, isWordGap c := by
  cases spaces with
  | zero =>
      have hlast : words = [] := by
        by_contra more
        have hends := spaced.getLast?_flatten filled more
        rw [text, List.replicate_zero, List.append_nil] at hends
        exact trimmed hends
      subst hlast
      rw [shows.eq_nil]
      simp
  | succ n =>
      rintro _ ⟨rfl⟩
      decide

/-- A stretch of words that are encoded together is read back unless the blanks before it stand
behind an encoded word. -/
theorem backsWords_stretch {stretch words : List (List Char)} {core encoding shown : List Char}
    {spaces : Nat} (filled : stretch ≠ [])
    (unreadable : ∀ word ∈ stretch, word.all FieldWriter.isReadable = false)
    (complete : ∀ word ∈ words.head?, word.all FieldWriter.isReadable)
    (text : stretch.flatten = core ++ List.replicate spaces ' ')
    (trimmed : core.getLast? ≠ some ' ') (encodes : IsEncoding core encoding)
    (spaced : IsSpaced (stretch ++ words)) (shows : Shows words shown)
    (backs : BacksWords charsets words shown) :
    BacksWords charsets (stretch ++ words)
      (encoding ++ List.replicate spaces ' ' ++ shown) := by
  intro r ended
  have hended := isWordGap_of_mem_head? filled spaced text trimmed shows
  have hfinish : (r.readText charsets (encoding ++ List.replicate spaces ' ' ++ shown)).finish
      charsets = ((r.behindEncoded core spaces).readText charsets shown).finish charsets := by
    rw [List.append_assoc, readText_append, ← finish_readText_endWord hended,
      endWord_readText_of_isEncoding ended encodes, readText_append, readText_behindEncoded]
  have hback := backs (r.behindEncoded core spaces) (word_behindEncoded r core spaces)
  have hseen : (r.behindEncoded core spaces).seen ++ words.flatten =
      r.shown ++ r.keptGap ++ (stretch.flatten ++ words.flatten) := by
    rw [seen_behindEncoded, text, List.append_assoc]
  have hgiven : r.seen ++ (stretch ++ words).flatten =
      r.shown ++ r.gap ++ (stretch.flatten ++ words.flatten) := by
    rw [seen, ended, List.append_nil, List.flatten_append]
  rw [← hfinish, isLegibleBehind_behindEncoded complete, hseen] at hback
  rw [Charsets.isLegibleBehind_stretch filled unreadable, hgiven]
  by_cases gap : r.foregoing = .gap
  · have hless := length_keptGap_of_foregoing gap
    have hle := hback.length_le
    refine ⟨fun legible => ?_, fun _ => ?_⟩
    · rw [gap] at legible
      cases legible
    · simp only [List.length_append] at hle ⊢
      omega
  · rw [keptGap_of_foregoing gap] at hback
    rwa [bne_iff_ne.2 gap, Bool.true_and]

theorem backsWords_of_shows (charsets : Charsets) {words : List (List Char)}
    {shown : List Char} (spaced : IsSpaced words) (shows : Shows words shown) :
    BacksWords charsets words shown := by
  induction shows with
  | nil =>
      intro r ended
      have hread : (r.readText charsets []).finish charsets = r.seen := by
        rw [finish_eq_seen]
        exact congrArg seen (endWord_of_word_eq_nil ended)
      rw [hread, List.flatten_nil, List.append_nil]
      exact ⟨fun _ => rfl, fun illegible => absurd rfl illegible⟩
  | readable readable shows ih =>
      exact backsWords_readable readable spaced shows (ih spaced.tail)
  | encoded filled unreadable complete text trimmed encodes shows ih =>
      exact backsWords_stretch filled unreadable complete text trimmed encodes spaced shows
        (ih spaced.of_append)

end TextReader

/-! ## Texts -/

/-- A readable character that marks no encoded word. -/
def isUnmarked (c : Char) : Bool :=
  FieldWriter.isReadable c && c != '?'

theorem subset_of_mem_splitOnP {p : Char → Bool} {text part : List Char}
    (hpart : part ∈ text.splitOnP p) : part ⊆ text := by
  induction text generalizing part with
  | nil =>
      rw [List.splitOnP_nil, List.mem_singleton] at hpart
      rw [hpart]
      exact List.Subset.refl _
  | cons c text ih =>
      rw [List.splitOnP_cons_eq_if_modifyHead] at hpart
      split at hpart
      · rcases List.mem_cons.1 hpart with rfl | hpart
        · exact List.nil_subset _
        · exact List.Subset.trans (ih hpart) (List.subset_cons_self ..)
      · obtain ⟨first, others, hparts⟩ :=
          List.exists_cons_of_ne_nil (List.splitOnP_ne_nil p text)
        rw [hparts] at ih hpart
        rcases List.mem_cons.1 hpart with rfl | hpart
        · exact List.cons_subset_cons c (ih (by simp))
        · exact List.Subset.trans (ih (List.mem_cons_of_mem _ hpart)) (List.subset_cons_self ..)

namespace Charsets

variable {charsets : Charsets}

theorem isLegibleBehind_of_forall {words : List (List Char)}
    (plain : ∀ word ∈ words, word.all FieldWriter.isReadable ∧ charsets.isPlain word)
    (before : Foregoing) : charsets.isLegibleBehind before words := by
  induction words generalizing before with
  | nil => rfl
  | cons word words ih =>
      obtain ⟨⟨hreadable, hplain⟩, others⟩ := List.forall_mem_cons.1 plain
      rw [isLegibleBehind, if_pos hreadable, hplain, Bool.true_and]
      exact ih others _

theorem isLegible_of_unmarked {text : List Char} (unmarked : text.all isUnmarked) :
    charsets.isLegible text := by
  apply isLegibleBehind_of_forall
  intro word hword
  have hword : ∀ c ∈ word, isUnmarked c := by
    intro c hc
    apply List.all_eq_true.1 unmarked
    rw [← flatten_wordsOf text]
    exact List.mem_flatten_of_mem hword hc
  refine ⟨List.all_eq_true.2 fun c hc => (Bool.and_eq_true_iff.1 (hword c hc)).1,
    List.all_eq_true.2 fun part hpart => ?_⟩
  have hpart : '?' ∉ part :=
    fun hmem => absurd (hword '?' (subset_of_mem_splitOnP hpart hmem)) (by decide)
  rw [readWord?_eq_none hpart]
  rfl

end Charsets

/-- Just the legible texts are read back from their field as they were given. -/
theorem decoded_unfolded_writeTextValue_iff {charsets : Charsets} (length : Nat)
    (text : List Char) :
    charsets.decoded (unfolded (writeTextValue length text)) = text ↔
      charsets.isLegible text := by
  have hback := TextReader.backsWords_of_shows charsets (isSpaced_wordsOf text)
    (shows_unfolded_writeTextValue length text) .start rfl
  rw [flatten_wordsOf] at hback
  exact hback.eq_iff

end MailMerge.Mail
