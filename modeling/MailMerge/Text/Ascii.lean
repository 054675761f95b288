/-
# ASCII letters and digits

Case folding, case-blind comparison and hexadecimal digits for the ASCII range. Every mail
keyword, header name and option word is compared this way: characters outside ASCII stand for
themselves and are never folded.
-/

namespace MailMerge.Text

/-- The lower-case form of an ASCII capital; every other character is its own. -/
def lowerAscii (c : Char) : Char :=
  if 'A' ≤ c ∧ c ≤ 'Z' then Char.ofNat (c.toNat + 32) else c

/-- A text with its ASCII capitals in lower case. -/
def lowercase (text : String) : String :=
  String.ofList (text.toList.map lowerAscii)

/-- Equality up to the case of ASCII letters. -/
def sameIgnoringCase (left right : String) : Bool :=
  left.toList.map lowerAscii == right.toList.map lowerAscii

/-- An ASCII letter. -/
def isAsciiLetter (c : Char) : Bool :=
  ('A' ≤ c && c ≤ 'Z') || ('a' ≤ c && c ≤ 'z')

/-- An ASCII decimal digit. -/
def isAsciiDigit (c : Char) : Bool :=
  '0' ≤ c && c ≤ '9'

/-- An ASCII letter or decimal digit. -/
def isAsciiAlphanumeric (c : Char) : Bool :=
  isAsciiLetter c || isAsciiDigit c

/-- The value of a decimal digit; meaningful on digits only. -/
def digitValue (c : Char) : Nat :=
  c.toNat - '0'.toNat

/-- The value of a hexadecimal digit in either case. -/
def hexValue? (c : Char) : Option Nat :=
  if isAsciiDigit c then some (c.toNat - '0'.toNat)
  else if 'a' ≤ c ∧ c ≤ 'f' then some (c.toNat - 'a'.toNat + 10)
  else if 'A' ≤ c ∧ c ≤ 'F' then some (c.toNat - 'A'.toNat + 10)
  else none

/-- The lower-case hexadecimal digit of a value below sixteen. -/
def hexDigitLower (value : Nat) : Char :=
  if value < 10 then Char.ofNat (value + '0'.toNat) else Char.ofNat (value - 10 + 'a'.toNat)

/-- The upper-case hexadecimal digit of a value below sixteen. -/
def hexDigitUpper (value : Nat) : Char :=
  if value < 10 then Char.ofNat (value + '0'.toNat) else Char.ofNat (value - 10 + 'A'.toNat)

/-- The two upper-case hexadecimal digits of a byte. -/
def hexPairUpper (byte : UInt8) : List Char :=
  [hexDigitUpper (byte.toNat / 16), hexDigitUpper (byte.toNat % 16)]

end MailMerge.Text
