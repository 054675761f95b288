/-
# Forms of domains in ASCII

A check of domains outside ASCII without the tables of Unicode. Wide forms of ASCII characters
stand for those characters and characters without a shape are dropped; then each label outside ASCII
is spelled by Punycode behind a mark. A label with a character that no domain may hold has no ASCII
form. Beyond that nothing is mapped or composed, so some domains pass that the tables would refuse.
-/

import MailMerge.Mail.Domain
import MailMerge.Mail.Punycode
import MailMerge.Text.MarkRanges
import MailMerge.Text.PrintableRanges

namespace MailMerge.Mail

open MailMerge.Text

/-- A character that leaves no trace in a domain: soft hyphens, invisible separators and selectors
of a glyph. -/
def isDroppedInDomain (c : Char) : Bool :=
  let code := c.toNat
  [0xAD, 0x34F, 0x180B, 0x180C, 0x180D, 0x180F, 0x200B, 0x2060, 0x2064, 0xFEFF].contains code ||
    (0xFE00 ≤ code && code ≤ 0xFE0F) || (0xE0100 ≤ code && code ≤ 0xE01EF)

/-- The form in which a character counts. The stops of ideographic scripts are dots. -/
def domainForm (c : Char) : List Char :=
  let code := c.toNat
  if isDroppedInDomain c then []
  else if code = 0x3002 ∨ code = 0xFF61 then ['.']
  else if 0xFF01 ≤ code ∧ code ≤ 0xFF5E then [lowerAscii (Char.ofNat (code - 0xFEE0))]
  else [lowerAscii c]

/-- A character that a label may hold. Replacement characters only stand for others. -/
def isLabelChar (c : Char) : Bool :=
  c.toNat < 128 || (printableRanges.contains c && c.toNat != 0xFFFC && c.toNat != 0xFFFD)

/-- The mark of a label in its ASCII form. -/
def asciiMark : List Char := "xn--".toList

/-- The ASCII form of a label. A label must not begin with a combining mark. -/
def asciiLabel? (label : List Char) : Option (List Char) :=
  if label.all fun c => c.toNat < 128 then some label
  else if asciiMark.isPrefixOf label || (label.head?.map markRanges.contains).getD false ||
      !label.all isLabelChar then none
  else some (asciiMark ++ Punycode.encode label)

/-- The ASCII form of a domain. -/
def asciiDomain? (domain : List Char) : Option (List Char) :=
  ((partsAt '.' (domain.flatMap domainForm)).mapM asciiLabel?).map (joinWith ['.'])

/-- The check without tables, where no other one is given. -/
instance (priority := low) plainForms : InternationalDomains where
  accepts domain := ((asciiDomain? domain).map isPlainDomain).getD false

end MailMerge.Mail
