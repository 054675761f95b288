/-
# Quoted texts

A text in quotes as diagnostics show it. Quotes, backslashes and the common controls are escaped
by a letter; what has no shape of its own, and what would join the character before it, is escaped
by its code point.
-/

import MailMerge.Text.Ascii
import MailMerge.Text.ExtenderRanges
import MailMerge.Text.Lines
import MailMerge.Text.PrintableRanges

namespace MailMerge.Text

/-- The hexadecimal digits of a number in lower case, most significant first, with no leading
zero. -/
def hexDigits (n : Nat) : List Char :=
  if n < 16 then [hexDigitLower n] else hexDigits (n / 16) ++ [hexDigitLower (n % 16)]
termination_by n
decreasing_by omega

/-- A character that stands for itself in a quoted text. -/
def isShown (c : Char) : Bool :=
  if c.toNat < 128 then ' ' ≤ c && c ≤ '~'
  else printableRanges.contains c && !extenderRanges.contains c

/-- A character in a quoted text. -/
def quoteChar (c : Char) : List Char :=
  if c.toNat = 0 then ['\\', '0']
  else if c = '\t' then ['\\', 't']
  else if c = '\n' then ['\\', 'n']
  else if c = '\r' then ['\\', 'r']
  else if c = '"' ∨ c = '\\' then ['\\', c]
  else if isShown c then [c]
  else ['\\', 'u', '\x7b'] ++ hexDigits c.toNat ++ ['\x7d']

/-- A text in quotes. -/
def quoted (text : String) : List Char :=
  '"' :: text.toList.flatMap quoteChar ++ ['"']

/-- Quoted texts in brackets. -/
def quotedList (texts : List String) : List Char :=
  '[' :: joinWith [',', ' '] (texts.map quoted) ++ [']']

end MailMerge.Text
