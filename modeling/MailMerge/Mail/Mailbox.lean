/-
# Mailboxes

An address with the name of its holder, if one is given, and the text that shows a mailbox. The
text of a name stands without quotes when it is made of words; a nine is no part of a word here,
and an empty name is not shown.
-/

import MailMerge.Mail.Address
import MailMerge.Text.Blank

namespace MailMerge.Mail

open MailMerge.Text

/-- A mailbox. -/
structure Mailbox where
  /-- The name of the holder. A name may be given and be empty. -/
  name : Option (List Char)
  address : Address
  deriving DecidableEq, Repr

/-- A character that a name shows without quotes. -/
def isWordChar (c : Char) : Bool :=
  c == '\t' || c == ' ' || isAsciiLetter c || ('0' ≤ c && c ≤ '8') || isAtomPunctuation c ||
    128 ≤ c.toNat

/-- A text with a backslash before each quote and each backslash. -/
def escapeQuotes (text : List Char) : List Char :=
  text.flatMap fun c => if c = '"' ∨ c = '\\' then ['\\', c] else [c]

/-- The text of a name. -/
def showName (name : List Char) : List Char :=
  if name.all isWordChar then name else '"' :: escapeQuotes name ++ ['"']

/-- The text of a mailbox. -/
def Mailbox.text (mailbox : Mailbox) : List Char :=
  let name := trim (mailbox.name.getD [])
  if name.isEmpty then mailbox.address.text
  else showName name ++ ' ' :: '<' :: mailbox.address.text ++ ['>']

/-- The text of a list of mailboxes. -/
def showMailboxes (mailboxes : List Mailbox) : List Char :=
  joinWith [',', ' '] (mailboxes.map Mailbox.text)

end MailMerge.Mail
