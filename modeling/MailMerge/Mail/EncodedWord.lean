/-
# Encoded words

What header fields cannot hold as it is stands in encoded words: base64 of UTF-8, marked with its
character set. In a text the words that need it are encoded and all others stay readable; a name is
written as it is, in quotes or encoded as a whole.
-/

import MailMerge.Mail.Base64
import MailMerge.Mail.Folding
import MailMerge.Mail.Mailbox

namespace MailMerge.Mail

open MailMerge.Text

/-- One encoded word. -/
def encodedWord (text : List Char) : List Char :=
  "=?utf-8?b?".toList ++ base64Encode (encode text) ++ "?=".toList

/-- How many bytes an encoded word may hold behind a given length of the line. The marks and the
line break take fourteen characters. -/
def encodedWordRoom (lineLength : Nat) : Nat :=
  (lineLimit - 14 - lineLength) / 4 * 3

/-- How many characters at the front of a text fit a number of bytes. -/
def fittingCount (room : Nat) : List Char → Nat
  | [] => 0
  | c :: rest => if c.utf8Size ≤ room then fittingCount (room - c.utf8Size) rest + 1 else 0

namespace FieldWriter

/-- Begin a new line whose first character is a space. -/
def continueLine (w : FieldWriter) : FieldWriter :=
  if w.heldSpaces = 0 then w.space.breakLine else w.breakLine

/-- Write a text as encoded words, as much in each as its line has room for. A line without room
is left when a break is possible; else a word takes at least one character. -/
def writeEncoded (w : FieldWriter) (isLater : Bool) (text : List Char) : FieldWriter :=
  match text with
  | [] => w
  | c :: rest =>
    let isFull := fittingCount (encodedWordRoom w.lineLength) (c :: rest) = 0
    let w := if isFull ∧ (isLater ∨ 0 < w.heldSpaces) then w.continueLine else w
    let more := fittingCount (encodedWordRoom w.lineLength) (c :: rest) - 1
    (w.write (encodedWord (c :: rest.take more))).writeEncoded true (rest.drop more)
termination_by text.length
decreasing_by
  simp only [List.length_drop, List.length_cons]
  omega

/-! ## Texts -/

/-- A character of a text that stays readable. -/
def isReadable (c : Char) : Bool :=
  let code := c.toNat
  1 ≤ code && code ≤ 127 && code != 10 && code != 13

/-- Write gathered words encoded, except for the spaces at their end, which are held back. -/
def writeGathered (w : FieldWriter) (gathered : List Char) : FieldWriter :=
  let spaces := gathered.reverse.takeWhile (· == ' ')
  let core := (gathered.reverse.dropWhile (· == ' ')).reverse
  let w := w.writeEncoded false core
  { w with heldSpaces := w.heldSpaces + spaces.length }

/-- Write words in order. Neighbours that need to be encoded are gathered first. -/
def writeWords (w : FieldWriter) (gathered : List Char) : List (List Char) → FieldWriter
  | [] => w.writeGathered gathered
  | word :: words =>
    if word.all isReadable then ((w.writeGathered gathered).fold word).writeWords [] words
    else w.writeWords (gathered ++ word) words

end FieldWriter

/-- A text divided behind each space. -/
def wordsOf : List Char → List (List Char)
  | [] => []
  | c :: rest =>
    if c = ' ' then [c] :: wordsOf rest
    else match wordsOf rest with
      | [] => [[c]]
      | word :: words => (c :: word) :: words

/-- A text as the value of a field whose name takes the given length with its colon and space. -/
def writeTextValue (length : Nat) (text : List Char) : List Char :=
  ((FieldWriter.start length).writeWords [] (wordsOf text)).finish

/-! ## Mailboxes -/

/-- A character of a name that is written as it is. -/
def isBareNameChar (c : Char) : Bool :=
  isAsciiAlphanumeric c || c == '-' || c == '_' || c == '.'

namespace FieldWriter

/-- Write a name: as it is, in quotes, in quotes with escapes, or encoded. -/
def writeName (w : FieldWriter) (name : List Char) : FieldWriter :=
  let isSpaced := fun c => isBareNameChar c || c == ' '
  let isEscapable := fun c => isSpaced c || c == '\\' || c == '"'
  if name.all isBareNameChar then w.fold name
  else if name.all isSpaced then ((w.write ['"']).fold name).write ['"']
  else if name.all isEscapable then
    let escaped := (escapeQuotes name).foldl (fun w c =>
      if c = ' ' then w.space else w.writeWord [c]) (w.write ['"'])
    escaped.write ['"']
  else w.writeEncoded false name

/-- Write a mailbox. -/
def writeMailbox (w : FieldWriter) (mailbox : Mailbox) : FieldWriter :=
  match mailbox.name with
  | some name => (w.writeName name).space.write ('<' :: mailbox.address.text ++ ['>'])
  | none => w.write mailbox.address.text

/-- Write mailboxes with commas between them. -/
def writeMailboxes (w : FieldWriter) : List Mailbox → FieldWriter
  | [] => w
  | [mailbox] => w.writeMailbox mailbox
  | mailbox :: mailboxes => ((w.writeMailbox mailbox).write [',']).space.writeMailboxes mailboxes

end FieldWriter

/-- Mailboxes as the value of a field whose name takes the given length. -/
def writeMailboxValue (length : Nat) (mailboxes : List Mailbox) : List Char :=
  ((FieldWriter.start length).writeMailboxes mailboxes).finish

end MailMerge.Mail
