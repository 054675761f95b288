/-
# Quoted-printable

Bytes as printable characters. A byte that is not printable is an escape of three characters; line
breaks stay, and a blank at the end of a line is escaped. A line longer than the limit is broken
softly, never inside an escape.
-/

import MailMerge.Mail.Folding
import MailMerge.Text.Ascii
import MailMerge.Text.Lines

namespace MailMerge.Mail

open MailMerge.Text

/-- An equals sign and two hexadecimal digits. -/
def escapeByte (byte : UInt8) : List Char :=
  '=' :: hexPairUpper byte

/-- A space or a tab. -/
def isBlankByte (byte : UInt8) : Bool :=
  byte == 32 || byte == 9

/-- A byte that is written as its character. -/
def isPrintableByte (byte : UInt8) : Bool :=
  byte == 9 || (32 ≤ byte.toNat && byte.toNat ≤ 126 && byte != 61)

/-- What a byte inside a line is written as. -/
def printableItem (byte : UInt8) : List Char :=
  if isPrintableByte byte then [Char.ofNat byte.toNat] else escapeByte byte

/-- What the bytes of a line are written as. A blank at the end is escaped. -/
def lineItems : List UInt8 → List (List Char)
  | [] => []
  | [byte] => [if isBlankByte byte then escapeByte byte else printableItem byte]
  | byte :: bytes => printableItem byte :: lineItems bytes

/-- A soft line break. -/
def softBreak : List Char := '=' :: lineBreak

/-- Write items with soft breaks between them. `held` is the item before, which is not written yet
because a break comes in front of it when it fills its line to the brim; `width` is the length of
the line with it. -/
def wrapItems (held : List Char) (width : Nat) : List (List Char) → List Char
  | [] => held
  | item :: items =>
    if width + item.length ≤ lineLimit then
      held ++ wrapItems item (width + item.length) items
    else if width = lineLimit then
      softBreak ++ held ++ wrapItems item (held.length + item.length) items
    else held ++ softBreak ++ wrapItems item item.length items

/-- The lines of a row of bytes, which end with a carriage return and a line feed. -/
def byteLines : List UInt8 → List (List UInt8)
  | [] => [[]]
  | 13 :: 10 :: rest => [] :: byteLines rest
  | byte :: rest =>
    match byteLines rest with
    | [] => [[byte]]
    | line :: lines => (byte :: line) :: lines

/-- The quoted-printable text of a row of bytes. -/
def quotedPrintableEncode (bytes : List UInt8) : List Char :=
  joinWith lineBreak ((byteLines bytes).map fun line => wrapItems [] 0 (lineItems line))

end MailMerge.Mail
