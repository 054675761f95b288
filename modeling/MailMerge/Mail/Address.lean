/-
# Mail addresses

A user at a domain. The user is a row of atoms parted by dots, or a quoted text with its quotes.
Domains outside ASCII are checked without the tables of Unicode where no other check is given.
-/

import MailMerge.Mail.InternationalDomain

namespace MailMerge.Mail

open MailMerge.Text

/-- Why a text is no address. -/
inductive AddressFault where
  /-- The text has another shape. -/
  | shape
  | user
  | domain
  deriving DecidableEq, Repr

/-- The text of a fault. -/
def AddressFault.message : AddressFault → String
  | .shape => "Invalid input"
  | .user => "Invalid email user"
  | .domain => "Invalid email domain"

/-- A character that stands for itself in a quoted user. -/
def isPlainQuotedChar (c : Char) : Bool :=
  let code := c.toNat
  c == ' ' || c == '\t' || code == 0x21 || (0x23 ≤ code && code ≤ 0x5B) ||
    (0x5D ≤ code && code ≤ 0x7E) || looksTwoByte c

/-- The content of a quoted user: plain characters, and visible ones behind a backslash. -/
def isQuotedContent : List Char → Bool
  | [] => true
  | '\\' :: c :: rest => '!' ≤ c && c ≤ '~' && isQuotedContent rest
  | c :: rest => isPlainQuotedChar c && isQuotedContent rest

/-- The greatest length of a user, in bytes. -/
def userLimit : Nat := 64

/-- The user of an address. -/
def isUser (text : List Char) : Bool :=
  let fits := !text.isEmpty && encodedLength text ≤ userLimit
  let isQuoted := text.head? == some '"' && text.getLast? == some '"'
  if isQuoted then
    fits && 2 < text.length && isQuotedContent (text.drop 1).dropLast
  else fits && (partsAt '.' text).all isAddressAtom

/-- A mail address. -/
structure Address where
  user : List Char
  domain : List Char
  deriving DecidableEq, Repr

namespace Address

/-- The address of a user at a domain. -/
def of [InternationalDomains] (user domain : List Char) : Except AddressFault Address :=
  if !isUser user then .error .user
  else if !isDomain domain then .error .domain
  else .ok ⟨user, domain⟩

/-- The address as it is written. -/
def text (address : Address) : List Char :=
  address.user ++ '@' :: address.domain

end Address

end MailMerge.Mail
