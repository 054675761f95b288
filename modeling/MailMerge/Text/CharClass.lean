/-
# Word characters and alphanumeric characters

Two Unicode classes. Header names are made of word characters and hyphens; mailbox users and
domain labels are made of alphanumeric characters and some punctuation. Inside ASCII both classes
are the letters and digits, to which the word class adds the underscore.
-/

import MailMerge.Text.AlphabeticRanges
import MailMerge.Text.Ascii
import MailMerge.Text.MarkRanges
import MailMerge.Text.NumberRanges

namespace MailMerge.Text

/-- A character of the categories Connector_Punctuation outside ASCII. -/
def isConnector (c : Char) : Bool :=
  let code := c.toNat
  code == 0x203F || code == 0x2040 || code == 0x2054 || code == 0xFE33 || code == 0xFE34 ||
    (0xFE4D ≤ code && code ≤ 0xFE4F) || code == 0xFF3F

/-- A character with the property Join_Control. -/
def isJoinControl (c : Char) : Bool :=
  c.toNat == 0x200C || c.toNat == 0x200D

/-- A word character: Alphabetic, a mark, a decimal digit, connector punctuation or a join
control. -/
def isWord (c : Char) : Bool :=
  if c.toNat < 128 then isAsciiAlphanumeric c || c == '_'
  else alphabeticRanges.contains c || markRanges.contains c || decimalDigitRanges.contains c ||
    isConnector c || isJoinControl c

/-- An alphanumeric character: Alphabetic or of one of the number categories. -/
def isAlphanumeric (c : Char) : Bool :=
  if c.toNat < 128 then isAsciiAlphanumeric c
  else alphabeticRanges.contains c || numberRanges.contains c

end MailMerge.Text
