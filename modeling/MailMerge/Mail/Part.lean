/-
# Parts

A part of a mail: a content with its media type and, for an attachment, its file name. A part is
written with fields of its own, an empty line, its content as it travels and a line break.
-/

import MailMerge.Mail.Disposition
import MailMerge.Mail.EncodedWord
import MailMerge.Mail.MediaType
import MailMerge.Mail.Transfer

namespace MailMerge.Mail

open MailMerge.Text

/-- A part of a mail. -/
structure Part where
  /-- The file name of an attachment. -/
  fileName : Option (List Char)
  mediaType : MediaType
  content : Content
  deriving DecidableEq, Repr

/-- A field on lines of its own, of which the value is written already. -/
def writeField (name : String) (value : List Char) : List Char :=
  name.toList ++ ':' :: ' ' :: value ++ lineBreak

/-- The length that the name of a field takes with its colon and space. -/
def nameLength (name : String) : Nat :=
  encodedLength name.toList + 2

/-- A field with a text as its value. -/
def writeTextField (name : String) (text : List Char) : List Char :=
  writeField name (writeTextValue (nameLength name) text)

namespace Part

/-- The fields of a part. -/
def writeFields (part : Part) : List Char :=
  (match part.fileName with
    | some name => writeField "Content-Disposition" (writeDisposition name)
    | none => []) ++
  writeTextField "Content-Type" part.mediaType.text ++
  writeTextField "Content-Transfer-Encoding" part.content.encoding.name.toList

/-- The text of a part. -/
def write (part : Part) : List Char :=
  part.writeFields ++ lineBreak ++ part.content.travelling ++ lineBreak

end Part

end MailMerge.Mail
