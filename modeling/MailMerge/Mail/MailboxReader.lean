/-
# Reading mailboxes

The grammar of mailboxes: an address alone, or in angle brackets behind a name of words and dots.
A run of blanks before a word keeps its first blank. A text of one mailbox may be surrounded by
blanks; in a list, blanks may only stand around the commas. Comments and groups are not known.
-/

import MailMerge.Mail.Mailbox

namespace MailMerge.Mail

open MailMerge.Text

/-! ## Words -/

/-- A space or a tab. -/
def isGap (c : Char) : Bool :=
  c == ' ' || c == '\t'

/-- A run of spaces and tabs at the front of a text, of which the first is kept, and what
follows. -/
def readGap : List Char → List Char × List Char
  | c :: rest => if isGap c then ([c], rest.dropWhile isGap) else ([], c :: rest)
  | [] => ([], [])

/-- A character of a word. -/
def isAtomChar (c : Char) : Bool :=
  isAsciiAlphanumeric c || isAtomPunctuation c || 128 ≤ c.toNat

/-- A control character other than a blank, the line ends and NUL. -/
def isPlainControl (c : Char) : Bool :=
  let code := c.toNat
  (1 ≤ code && code ≤ 8) || code == 11 || code == 12 || (14 ≤ code && code ≤ 31) || code == 127

/-- A character that stands for itself between quotes. -/
def isQuotedText (c : Char) : Bool :=
  let code := c.toNat
  code == 33 || (35 ≤ code && code ≤ 91) || (93 ≤ code && code ≤ 126) || isPlainControl c ||
    128 ≤ code

/-- A character that may follow a backslash between quotes. -/
def isQuotable (c : Char) : Bool :=
  let code := c.toNat
  1 ≤ code && code ≤ 127 && code != 10 && code != 13

/-- The characters between quotes up to the first that cannot stand there, with the blank kept
for the gap that has been read, and what follows. A gap counts only before a character. -/
def readQuoted (gap : List Char) : List Char → List Char × List Char
  | [] => ([], [])
  | '\\' :: c :: rest =>
    if isQuotable c then
      let (content, rest) := readQuoted [] rest
      (gap ++ c :: content, rest)
    else ([], '\\' :: c :: rest)
  | c :: rest =>
    if isGap c then readQuoted (if gap.isEmpty then [c] else gap) rest
    else if isQuotedText c then
      let (content, rest) := readQuoted [] rest
      (gap ++ c :: content, rest)
    else ([], c :: rest)

/-- A quoted text at the front of a text, without its quotes, and what follows. -/
def readQuotedText : List Char → Option (List Char × List Char)
  | '"' :: rest =>
    let (content, rest) := readQuoted [] rest
    match rest.dropWhile isBlank with
    | '"' :: rest => some (content, rest)
    | _ => none
  | _ => none

/-- An atom with the blank before it, and what follows. -/
def readAtom (text : List Char) : Option (List Char × List Char) :=
  let (gap, rest) := readGap text
  let atom := rest.takeWhile isAtomChar
  if atom.isEmpty then none else some (gap ++ atom, rest.dropWhile isAtomChar)

/-- A word: a quoted text or an atom. -/
def readWord (text : List Char) : Option (List Char × List Char) :=
  (readQuotedText text).or (readAtom text)

theorem readGap_length (text : List Char) : (readGap text).2.length ≤ text.length := by
  fun_cases readGap text with
  | case1 c rest _ =>
    have : (rest.dropWhile isGap).length ≤ rest.length :=
      (List.dropWhile_sublist isGap).length_le
    simp only [List.length_cons]
    omega
  | case2 => simp
  | case3 => simp

theorem readQuoted_length (gap text : List Char) :
    (readQuoted gap text).2.length ≤ text.length := by
  fun_induction readQuoted gap text <;> simp_all
  all_goals omega

theorem readQuotedText_length {text word rest : List Char}
    (h : readQuotedText text = some (word, rest)) : rest.length < text.length := by
  unfold readQuotedText at h
  split at h
  · next after =>
    have h₁ := readQuoted_length [] after
    have h₂ : ((readQuoted [] after).2.dropWhile isBlank).length ≤
        (readQuoted [] after).2.length := (List.dropWhile_sublist isBlank).length_le
    simp only at h
    split at h
    · next closed heq =>
      simp only [Option.some.injEq, Prod.mk.injEq] at h
      rw [heq] at h₂
      simp only [List.length_cons] at h₂ ⊢
      rw [← h.2]
      omega
    · simp at h
  · simp at h

theorem readAtom_length {text word rest : List Char}
    (h : readAtom text = some (word, rest)) : rest.length < text.length := by
  simp only [readAtom, Option.ite_none_left_eq_some, Option.some.injEq, Prod.mk.injEq,
    List.isEmpty_iff] at h
  obtain ⟨hne, _, rfl⟩ := h
  have h₁ := readGap_length text
  have h₂ := congrArg List.length
    (List.takeWhile_append_dropWhile (p := isAtomChar) (l := (readGap text).2))
  rw [List.length_append] at h₂
  have h₃ := List.length_pos_iff.2 hne
  omega

/-- A word takes at least one character. -/
theorem readWord_length {text word rest : List Char}
    (h : readWord text = some (word, rest)) : rest.length < text.length := by
  simp only [readWord, Option.or_eq_some_iff] at h
  rcases h with h | ⟨_, h⟩
  · exact readQuotedText_length h
  · exact readAtom_length h

/-! ## Mailboxes -/

/-- A dot at the front of a text, and what follows. -/
def readDot : List Char → Option (List Char × List Char)
  | '.' :: rest => some (['.'], rest)
  | _ => none

/-- A word or a dot. -/
def readWordOrDot (text : List Char) : Option (List Char × List Char) :=
  (readWord text).or (readDot text)

theorem readDot_length {text dot rest : List Char}
    (h : readDot text = some (dot, rest)) : rest.length < text.length := by
  unfold readDot at h
  split at h
  · cases h
    exact Nat.lt_succ_self rest.length
  · cases h

theorem readWordOrDot_length {text piece rest : List Char}
    (h : readWordOrDot text = some (piece, rest)) : rest.length < text.length := by
  simp only [readWordOrDot, Option.or_eq_some_iff] at h
  rcases h with h | ⟨_, h⟩
  · exact readWord_length h
  · exact readDot_length h

/-- Words and dots as far as they go, and what follows. -/
def readMoreWords (text : List Char) : List Char × List Char :=
  match h : readWordOrDot text with
  | some (piece, rest) =>
    have := readWordOrDot_length h
    let (more, rest) := readMoreWords rest
    (piece ++ more, rest)
  | none => ([], text)
termination_by text.length

/-- A name: a word, then words and dots. -/
def readName (text : List Char) : Option (List Char × List Char) := do
  let (word, rest) ← readWord text
  let (words, rest) := readMoreWords rest
  return (word ++ words, rest)

/-- Atoms parted by dots, with blanks before them, and what follows. -/
def readDotAtom (text : List Char) : Option (List Char × List Char) :=
  let isPart := fun c => isAtomChar c || c == '.'
  let rest := text.dropWhile isGap
  let atoms := rest.takeWhile isPart
  if (partsAt '.' atoms).all fun atom => !atom.isEmpty then some (atoms, rest.dropWhile isPart)
  else none

/-- The two sides of an address, and what follows. -/
def readAddress (text : List Char) : Option ((List Char × List Char) × List Char) := do
  let (user, rest) ← (readDotAtom text).or (readQuotedText text)
  match rest with
  | '@' :: rest =>
    let (domain, rest) ← readDotAtom rest
    return ((user, domain), rest)
  | _ => none

/-- An address in angle brackets with blanks around it, and what follows. -/
def readAngleAddress (text : List Char) : Option ((List Char × List Char) × List Char) :=
  match text.dropWhile isGap with
  | '<' :: rest => do
    let (address, rest) ← readAddress rest
    match rest with
    | '>' :: rest => return (address, rest.dropWhile isGap)
    | _ => none
  | _ => none

/-- A mailbox before its address is checked. -/
structure RawMailbox where
  name : Option (List Char)
  user : List Char
  domain : List Char
  deriving DecidableEq, Repr

/-- A mailbox at the front of a text, and what follows. -/
def readRawMailbox (text : List Char) : Option (RawMailbox × List Char) :=
  let named : Option (RawMailbox × List Char) := do
    let (name, rest) := match readName text with
      | some (name, rest) => (some name, rest)
      | none => (none, text)
    let ((user, domain), rest) ← readAngleAddress rest
    return (⟨name, user, domain⟩, rest)
  let bare : Option (RawMailbox × List Char) := do
    let ((user, domain), rest) ← readAddress text
    return (⟨none, user, domain⟩, rest)
  named.or bare

/-- Mailboxes parted by commas up to the end of a text. At least one is due. `bound` is an upper
bound on their number. -/
def readRawMailboxes : Nat → List Char → Option (List RawMailbox)
  | 0, _ => none
  | bound + 1, text => do
    let (mailbox, rest) ← readRawMailbox text
    if rest.isEmpty then return [mailbox]
    else match rest.dropWhile isBlank with
      | ',' :: rest => do
        let mailboxes ← readRawMailboxes bound (rest.dropWhile isBlank)
        return mailbox :: mailboxes
      | _ => none

/-- The mailbox with its address checked. -/
def RawMailbox.check [InternationalDomains] (raw : RawMailbox) : Except AddressFault Mailbox :=
  (Address.of raw.user raw.domain).map fun address => ⟨raw.name, address⟩

/-- Read a text as one mailbox. -/
def readMailbox [InternationalDomains] (text : List Char) : Except AddressFault Mailbox :=
  match readRawMailbox (text.dropWhile isBlank) with
  | some (raw, rest) => if isAllBlank rest then raw.check else .error .shape
  | none => .error .shape

/-- Read a text as a list of mailboxes, which may be empty. The shape of the whole list is judged
before any address. -/
def readMailboxes [InternationalDomains] (text : List Char) :
    Except AddressFault (List Mailbox) :=
  if text.isEmpty then .ok []
  else match readRawMailboxes text.length text with
    | some raws => raws.mapM RawMailbox.check
    | none => .error .shape

end MailMerge.Mail
