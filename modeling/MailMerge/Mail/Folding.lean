/-
# Folding header fields

The text of a header field as it is written line by line. Spaces are held back until more text
follows, so that a line can be broken in front of them: a word that would reach past the line limit
goes to a new line, which then begins with the spaces. Lengths are counted in bytes.
-/

import MailMerge.Text.Utf8

namespace MailMerge.Mail

open MailMerge.Text

/-- The length that a folded line should not exceed. -/
def lineLimit : Nat := 76

/-- A carriage return and a line feed. -/
def lineBreak : List Char := ['\r', '\n']

/-- A header field that is being written. -/
structure FieldWriter where
  /-- The text written so far. -/
  written : List Char
  /-- The length of the current line. -/
  lineLength : Nat
  /-- Spaces held back. -/
  heldSpaces : Nat
  /-- Something stands on the current line that a break may follow. -/
  canBreak : Bool
  deriving DecidableEq, Repr

namespace FieldWriter

/-- A field of which a part of the given length stands on the line. -/
def start (length : Nat) : FieldWriter := ⟨[], length, 0, false⟩

/-- Hold back one more space. -/
def space (w : FieldWriter) : FieldWriter :=
  { w with heldSpaces := w.heldSpaces + 1 }

/-- Begin a new line. Spaces held back stay so. -/
def breakLine (w : FieldWriter) : FieldWriter :=
  ⟨w.written ++ lineBreak, 0, w.heldSpaces, false⟩

/-- Write a text after the spaces held back, without a break. -/
def write (w : FieldWriter) (text : List Char) : FieldWriter where
  written := w.written ++ List.replicate w.heldSpaces ' ' ++ text
  lineLength := w.lineLength + w.heldSpaces + encodedLength text
  heldSpaces := 0
  canBreak := true

/-- Write a word, on a new line if it does not fit this one and a space comes before it. -/
def writeWord (w : FieldWriter) (word : List Char) : FieldWriter :=
  let tooLong := lineLimit < w.lineLength + w.heldSpaces + encodedLength word
  if w.canBreak ∧ 0 < w.heldSpaces ∧ tooLong then w.breakLine.write word else w.write word

/-- Write a text word by word. `word` holds the characters of the word that is being read, last
first. -/
def foldFrom (w : FieldWriter) (word : List Char) : List Char → FieldWriter
  | [] => if word.isEmpty then w else w.writeWord word.reverse
  | ' ' :: rest =>
    foldFrom (if word.isEmpty then w.space else (w.writeWord word.reverse).space) [] rest
  | c :: rest => foldFrom w (c :: word) rest

/-- Write a text, which may be broken in front of its words. -/
def fold (w : FieldWriter) (text : List Char) : FieldWriter :=
  w.foldFrom [] text

/-- Everything that was written, with the spaces held back. -/
def finish (w : FieldWriter) : List Char :=
  w.written ++ List.replicate w.heldSpaces ' '

end FieldWriter

end MailMerge.Mail
