/-
# Reading encoded words

How the text of a field is read when some of its words are encoded. A word between blanks that has
the marks of an encoded word, a known character set and sound contents stands for the text that it
encodes; every other word stands for itself. Blanks stay, except between two encoded words, where
they only keep these apart. What is written as an encoded word is read as the text it was made of.
-/

import MailMerge.Mail.EncodedWord
import MailMerge.Proofs.Mail.Base64
import MailMerge.Proofs.Text.Lines

namespace MailMerge.Mail

open MailMerge.Text

/-! ## Encoded words -/

/-- What a reader knows of character sets: UTF-8 at least, and in none of them does a text have more
characters than bytes. -/
structure Charsets where
  /-- The text that bytes are in the character set of a name. -/
  read? : List Char → List UInt8 → Option (List Char)
  utf8 : ∀ text, read? "utf-8".toList (encode text) = some text
  short : ∀ {name bytes text}, read? name bytes = some text → text.length ≤ bytes.length

/-- A reader that knows no character set but UTF-8. -/
def Charsets.utf8Only : Charsets where
  read? name bytes := if lowercase (String.ofList name) = "utf-8" then decode? bytes else none
  utf8 text := by
    rw [if_pos (by decide), decode?_encode]
  short read := by
    split at read
    · exact length_of_decode? read
    · cases read

/-- The bytes of a text in which an underscore is a space and an equals sign stands before the two
hexadecimal digits of a byte. -/
def quotedBytes? : List Char → Option (List UInt8)
  | [] => some []
  | '=' :: high :: low :: rest => do
    let h ← hexValue? high
    let l ← hexValue? low
    let bytes ← quotedBytes? rest
    return UInt8.ofNat (h * 16 + l) :: bytes
  | '=' :: _ => none
  | '_' :: rest => (quotedBytes? rest).map (32 :: ·)
  | c :: rest => (quotedBytes? rest).map (UInt8.ofNat c.toNat :: ·)

/-- The bytes of the contents of an encoded word, by the letter of their encoding. -/
def encodedBytes? (encoding contents : List Char) : Option (List UInt8) :=
  if encoding = ['b'] ∨ encoding = ['B'] then (base64Decode (encode contents)).toOption
  else if encoding = ['q'] ∨ encoding = ['Q'] then quotedBytes? contents
  else none

/-- A character of an encoded word. -/
def isVisible (c : Char) : Bool :=
  '!' ≤ c && c ≤ '~'

/-- The greatest length of an encoded word. -/
def encodedWordLimit : Nat := 75

/-- The text that a word encodes, if it is an encoded word. -/
def Charsets.readWord? (charsets : Charsets) (word : List Char) : Option (List Char) :=
  match partsAt '?' word with
  | [['='], name, encoding, contents, ['=']] =>
    if word.length ≤ encodedWordLimit ∧ word.all isVisible ∧ contents ≠ [] then
      (encodedBytes? encoding contents).bind (charsets.read? name)
    else none
  | _ => none

theorem length_of_quotedBytes? {contents : List Char} {bytes : List UInt8}
    (read : quotedBytes? contents = some bytes) : bytes.length ≤ contents.length := by
  fun_induction quotedBytes? contents generalizing bytes with
  | case1 =>
      cases read
      exact Nat.le_refl 0
  | case2 high low rest ih =>
      simp only [Option.bind_eq_bind, Option.bind_eq_some_iff] at read
      obtain ⟨_, -, _, -, others, hothers, heq⟩ := read
      cases heq
      have := ih hothers
      simp only [List.length_cons]
      omega
  | case3 => cases read
  | case4 rest ih =>
      obtain ⟨others, hothers, rfl⟩ := Option.map_eq_some_iff.1 read
      exact Nat.succ_le_succ (ih hothers)
  | case5 c rest _ _ _ ih =>
      obtain ⟨others, hothers, rfl⟩ := Option.map_eq_some_iff.1 read
      exact Nat.succ_le_succ (ih hothers)

theorem toNat_lt_of_isVisible {c : Char} (visible : isVisible c) : c.toNat < 128 := by
  rw [isVisible, Bool.and_eq_true, decide_eq_true_eq, decide_eq_true_eq] at visible
  exact Nat.lt_succ_of_le (Nat.le_trans visible.2 (by decide))

/-- The contents of an encoded word have at least as many characters as the bytes they hold. -/
theorem length_of_encodedBytes? {encoding contents : List Char} {bytes : List UInt8}
    (visible : ∀ c ∈ contents, isVisible c)
    (read : encodedBytes? encoding contents = some bytes) : bytes.length ≤ contents.length := by
  unfold encodedBytes? at read
  split at read
  · cases hdecode : base64Decode (encode contents) with
    | error fault =>
        rw [hdecode] at read
        cases read
    | ok decoded =>
        rw [hdecode] at read
        cases read
        have hlength := length_of_base64Decode hdecode
        rwa [length_encode,
          encodedLength_of_ascii fun c hc => toNat_lt_of_isVisible (visible c hc)] at hlength
  · split at read
    · exact length_of_quotedBytes? read
    · cases read

section Words

variable {charsets : Charsets}

/-- An encoded word is longer than what it encodes. -/
theorem length_of_readWord? {word text : List Char} (read : charsets.readWord? word = some text) :
    text.length < word.length := by
  unfold Charsets.readWord? at read
  split at read
  · next name encoding contents hparts =>
    split at read
    · next sound =>
      obtain ⟨bytes, hbytes, htext⟩ := Option.bind_eq_some_iff.1 read
      have hword : word = joinWith ['?'] [['='], name, encoding, contents, ['=']] := by
        rw [← hparts, joinWith_partsAt]
      have hcontents : ∀ c ∈ contents, isVisible c := by
        intro c hc
        have hmem : c ∈ word := mem_of_mem_partsAt (by rw [hparts]; simp) hc
        exact List.all_eq_true.1 sound.2.1 c hmem
      have hshort := charsets.short htext
      have hheld := length_of_encodedBytes? hcontents hbytes
      rw [hword]
      simp only [joinWith, List.length_append, List.length_cons, List.length_nil]
      omega
    · cases read
  · cases read

theorem readWord?_nil : charsets.readWord? [] = none := rfl

/-- An encoded word has question marks between its parts. -/
theorem readWord?_eq_none {word : List Char} (unmarked : '?' ∉ word) :
    charsets.readWord? word = none := by
  rw [Charsets.readWord?, partsAt_of_not_mem unmarked]
  split
  · next hparts => cases hparts
  · rfl

theorem encodedWord_eq_joinWith (text : List Char) :
    encodedWord text =
      joinWith ['?'] [['='], "utf-8".toList, ['b'], base64Encode (encode text), ['=']] := by
  have hopening : "=?utf-8?b?".toList = '=' :: '?' :: ("utf-8".toList ++ ['?', 'b', '?']) := by
    decide
  have hclosing : "?=".toList = ['?', '='] := by decide
  unfold encodedWord
  rw [hopening, hclosing]
  simp only [joinWith, List.cons_append, List.nil_append, List.append_assoc]

theorem isVisible_of_mem_encodedWord (text : List Char) :
    ∀ c ∈ encodedWord text, isVisible c := by
  have hopening : ("=?utf-8?b?".toList.all isVisible) = true := by decide
  have hclosing : ("?=".toList.all isVisible) = true := by decide
  have hcontents : ∀ c ∈ base64Encode (encode text), isVisible c :=
    forall_mem_base64Encode (by decide) (by decide) _
  rw [List.all_eq_true] at hopening hclosing
  unfold encodedWord
  exact List.forall_mem_append.2 ⟨List.forall_mem_append.2 ⟨hopening, hcontents⟩, hclosing⟩

theorem length_encodedWord (text : List Char) :
    (encodedWord text).length = 12 + (encodedLength text + 2) / 3 * 4 := by
  have hopening : "=?utf-8?b?".toList.length = 10 := by decide
  have hclosing : "?=".toList.length = 2 := by decide
  unfold encodedWord
  rw [List.length_append, List.length_append, hopening, hclosing, length_base64Encode,
    length_encode]
  omega

/-- What is written as an encoded word is read as the text it was made of. -/
theorem readWord?_encodedWord {text : List Char} (filled : text ≠ [])
    (fits : (encodedWord text).length ≤ encodedWordLimit) :
    charsets.readWord? (encodedWord text) = some text := by
  have hplain : ∀ part ∈ [['='], "utf-8".toList, ['b'], base64Encode (encode text), ['=']],
      '?' ∉ part := by
    have hcontents : '?' ∉ base64Encode (encode text) := by
      intro hmem
      exact forall_mem_base64Encode (p := (· ≠ '?')) (by decide) (by decide) _ '?' hmem rfl
    simp [hcontents]
  have hparts := partsAt_joinWith (List.cons_ne_nil _ _) hplain
  have hvisible : (encodedWord text).all isVisible = true :=
    List.all_eq_true.2 (isVisible_of_mem_encodedWord text)
  have hfilled : base64Encode (encode text) ≠ [] := by
    obtain ⟨c, rest, rfl⟩ := List.exists_cons_of_ne_nil filled
    rw [← List.length_pos_iff, length_base64Encode, length_encode, encodedLength]
    have := c.utf8Size_pos
    omega
  rw [Charsets.readWord?, encodedWord_eq_joinWith, hparts, ← encodedWord_eq_joinWith]
  refine (if_pos ⟨fits, hvisible, hfilled⟩).trans ?_
  rw [encodedBytes?, if_pos (.inl rfl), base64Decode_encode]
  exact charsets.utf8 text

end Words

/-! ## Texts -/

/-- A blank between the words of a field. -/
def isWordGap (c : Char) : Bool :=
  c == ' ' || c == '\t'

/-- A text of which some words may be encoded, while it is read. -/
structure TextReader where
  /-- What has been read. -/
  shown : List Char
  /-- The last word that has been read was encoded. -/
  afterEncoded : Bool
  /-- The blanks behind that word. -/
  gap : List Char
  /-- What has been seen of the next word. -/
  word : List Char
  deriving DecidableEq, Repr

namespace TextReader

/-- Nothing has been seen yet. -/
def start : TextReader := ⟨[], false, [], []⟩

/-- The blanks that are kept before an encoded word. -/
def keptGap (r : TextReader) : List Char :=
  if r.afterEncoded then [] else r.gap

/-- Take what has been seen of a word for a whole word. -/
def endWord (charsets : Charsets) (r : TextReader) : TextReader :=
  if r.word = [] then r
  else match charsets.readWord? r.word with
    | some text => ⟨r.shown ++ r.keptGap ++ text, true, [], []⟩
    | none => ⟨r.shown ++ r.gap ++ r.word, false, [], []⟩

/-- Read one character. -/
def read (charsets : Charsets) (r : TextReader) (c : Char) : TextReader :=
  if isWordGap c then
    let ended := r.endWord charsets
    { ended with gap := ended.gap ++ [c] }
  else { r with word := r.word ++ [c] }

/-- Read a text. -/
def readText (charsets : Charsets) (r : TextReader) (text : List Char) : TextReader :=
  text.foldl (read charsets) r

/-- What has been read at the end of a text. -/
def finish (charsets : Charsets) (r : TextReader) : List Char :=
  let ended := r.endWord charsets
  ended.shown ++ ended.gap

end TextReader

/-- A text with its encoded words decoded. -/
def Charsets.decoded (charsets : Charsets) (text : List Char) : List Char :=
  (TextReader.start.readText charsets text).finish charsets

namespace TextReader

variable {charsets : Charsets} {r : TextReader}

theorem readText_append (r : TextReader) (first second : List Char) :
    r.readText charsets (first ++ second) =
      (r.readText charsets first).readText charsets second :=
  List.foldl_append

theorem word_endWord (r : TextReader) : (r.endWord charsets).word = [] := by
  rw [endWord]
  split
  · assumption
  · split <;> rfl

theorem endWord_of_word_eq_nil (ended : r.word = []) : r.endWord charsets = r :=
  if_pos ended

theorem finish_endWord (r : TextReader) :
    (r.endWord charsets).finish charsets = r.finish charsets := by
  rw [finish, endWord_of_word_eq_nil (word_endWord r), finish]

/-- A word has ended where the text ends or a blank comes next. -/
theorem finish_readText_endWord {text : List Char} (ended : ∀ c ∈ text.head?, isWordGap c) :
    ((r.endWord charsets).readText charsets text).finish charsets =
      (r.readText charsets text).finish charsets := by
  cases text with
  | nil => exact finish_endWord r
  | cons c text =>
      have hread : (r.endWord charsets).read charsets c = r.read charsets c := by
        rw [read, read, if_pos (ended c rfl), if_pos (ended c rfl),
          endWord_of_word_eq_nil (word_endWord r)]
      rw [readText, List.foldl_cons, hread]
      rfl

/-- Blanks between words are remembered. -/
theorem readText_gap (ended : r.word = []) {text : List Char} (blank : ∀ c ∈ text, isWordGap c) :
    r.readText charsets text = { r with gap := r.gap ++ text } := by
  induction text generalizing r with
  | nil =>
      rw [List.append_nil]
      rfl
  | cons c text ih =>
      have hread : r.read charsets c = { r with gap := r.gap ++ [c] } := by
        rw [read, if_pos (blank c (by simp)), endWord_of_word_eq_nil ended]
      rw [readText, List.foldl_cons, hread]
      have hrest := @ih { r with gap := r.gap ++ [c] } ended
        fun d hd => blank d (List.mem_cons_of_mem _ hd)
      rw [readText] at hrest
      rw [hrest, List.append_assoc, List.singleton_append]

/-- Characters of a word are gathered. -/
theorem readText_word {text : List Char} (solid : ∀ c ∈ text, isWordGap c = false) :
    r.readText charsets text = { r with word := r.word ++ text } := by
  induction text generalizing r with
  | nil =>
      rw [List.append_nil]
      rfl
  | cons c text ih =>
      have hread : r.read charsets c = { r with word := r.word ++ [c] } := by
        rw [read, solid c (by simp), if_neg Bool.false_ne_true]
      rw [readText, List.foldl_cons, hread]
      have hrest := @ih { r with word := r.word ++ [c] }
        fun d hd => solid d (List.mem_cons_of_mem _ hd)
      rw [readText] at hrest
      rw [hrest, List.append_assoc, List.singleton_append]

end TextReader

end MailMerge.Mail
