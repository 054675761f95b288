/-
# Domains

A domain is a row of labels parted by dots. A label is an atom that begins and ends with a letter
or digit, and an atom may hold characters outside ASCII: letters and digits of any script, and a
few code points besides. What is no domain as it is written may still have a form in ASCII that is
one. How a script is spelled in ASCII is a matter of the tables of Unicode, and any tables will do.
-/

import MailMerge.Text.CharClass
import MailMerge.Text.Lines
import MailMerge.Text.Utf8

namespace MailMerge.Mail

open MailMerge.Text

/-! ## Atoms -/

/-- Punctuation that may stand in an atom. -/
def isAtomPunctuation (c : Char) : Bool :=
  "!#$%&'*+-/=?^_`\x7b|\x7d~".toList.contains c

/-- A code point whose two low bytes look like a character of two bytes in UTF-8. -/
def looksTwoByte (c : Char) : Bool :=
  let code := c.toNat
  code < 0x10000 && 0xC2 ≤ code / 256 && code / 256 ≤ 0xDF && 0x80 ≤ code % 256 &&
    code % 256 ≤ 0xBF

/-- A character of an atom in a user or of a domain label. -/
def isAddressAtomChar (c : Char) : Bool :=
  isAlphanumeric c || isAtomPunctuation c || looksTwoByte c

/-- An atom of a user or of a domain. -/
def isAddressAtom (text : List Char) : Bool :=
  !text.isEmpty && text.all isAddressAtomChar

/-! ## Labels -/

/-- The greatest length of a domain, in bytes. -/
def domainLimit : Nat := 254

/-- The greatest length of a label, in bytes. -/
def labelLimit : Nat := 63

/-- A label of a domain. -/
def isLabel (text : List Char) : Bool :=
  isAddressAtom text && (text.head?.map isAlphanumeric).getD false &&
    (text.getLast?.map isAlphanumeric).getD false && encodedLength text ≤ labelLimit

/-- A domain as it is written. -/
def isPlainDomain (text : List Char) : Bool :=
  encodedLength text ≤ domainLimit && (partsAt '.' text).all isLabel

/-! ## Domains of any script -/

/-- The check of domains with characters outside ASCII. -/
class InternationalDomains where
  /-- The text has a form in ASCII, and this form is a domain. -/
  accepts : List Char → Bool

/-- A domain, as it is written or in its ASCII form. -/
def isDomain [InternationalDomains] (text : List Char) : Bool :=
  isPlainDomain text ||
    ((text.any fun c => 128 ≤ c.toNat) && InternationalDomains.accepts text)

end MailMerge.Mail
