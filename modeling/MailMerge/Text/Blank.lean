/-
# Blank characters

The Unicode property White_Space and the trimming built on it. Bodies, option words and encoded
attachments are trimmed by this property, and so is the gap after the colon of a header line.
-/

namespace MailMerge.Text

/-- The Unicode property White_Space. -/
def isBlank (c : Char) : Bool :=
  let code := c.toNat
  (9 ≤ code && code ≤ 13) || code == 32 || code == 0x85 || code == 0xA0 || code == 0x1680 ||
    (0x2000 ≤ code && code ≤ 0x200A) || code == 0x2028 || code == 0x2029 || code == 0x202F ||
    code == 0x205F || code == 0x3000

/-- A text without its leading blanks. -/
def trimLeft (text : List Char) : List Char :=
  text.dropWhile isBlank

/-- A text without its trailing blanks. -/
def trimRight (text : List Char) : List Char :=
  (text.reverse.dropWhile isBlank).reverse

/-- A text without blanks at either end. -/
def trim (text : List Char) : List Char :=
  trimRight (trimLeft text)

/-- A text that holds nothing but blanks. -/
def isAllBlank (text : List Char) : Bool :=
  text.all isBlank

end MailMerge.Text
