/-
# Mails

A mail as it is handed to a transport: its header fields, its body with the attachments, and the
envelope that tells from whom and to whom it travels. A mail with attachments divides into parts
between which a boundary stands.
-/

import MailMerge.Mail.Fields
import MailMerge.Time.Utc

namespace MailMerge.Mail

open MailMerge.Text MailMerge.Time

/-- From whom and to whom a mail travels. -/
structure Envelope where
  sender : Address
  recipients : List Address
  deriving DecidableEq, Repr

/-- What makes a mail unlike every other: the time when it is made, and the boundary between its
parts. -/
structure Stamp where
  now : Utc
  boundary : List Char
  deriving DecidableEq, Repr

/-- The line between parts. -/
def boundaryLine (boundary : List Char) : List Char :=
  '-' :: '-' :: boundary

/-- The text of parts with a boundary between them. -/
def writeParts (boundary : List Char) (parts : List Part) : List Char :=
  writeTextField "Content-Type"
    ("multipart/mixed; boundary=\"".toList ++ boundary ++ ['"']) ++ lineBreak ++
  parts.flatMap (fun part => boundaryLine boundary ++ lineBreak ++ part.write) ++
  boundaryLine boundary ++ '-' :: '-' :: lineBreak

end MailMerge.Mail

namespace MailMerge

open MailMerge.Mail

/-- A mail as it is handed to a transport. -/
structure Mail where
  fields : Fields
  body : Part
  attachments : List Part
  boundary : List Char
  envelope : Envelope
  deriving DecidableEq, Repr

/-- The text of a mail. -/
def Mail.wire (mail : Mail) : List Char :=
  mail.fields.write ++
    if mail.attachments.isEmpty then mail.body.write
    else writeParts mail.boundary (mail.body :: mail.attachments)

end MailMerge
