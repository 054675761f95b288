/-
# Header fields

The header fields of a mail, in order. Names that differ in case only name the same field; a field
that is set again keeps its place and takes the new spelling and value. A value is a text or a list
of mailboxes, and what later readers of a field see is its text.
-/

import MailMerge.Mail.Part
import MailMerge.Text.Ascii

namespace MailMerge.Mail

open MailMerge.Text

/-- The value of a header field. -/
inductive FieldValue where
  | text (text : List Char)
  | mailboxes (mailboxes : List Mailbox)
  deriving DecidableEq, Repr

/-- The text that a value shows. -/
def FieldValue.shown : FieldValue → List Char
  | .text given => given
  | .mailboxes given => showMailboxes given

/-- A header field. -/
structure Field where
  name : String
  value : FieldValue
  deriving DecidableEq, Repr

namespace Field

/-- A field with a text. -/
def ofText (name : String) (text : List Char) : Field := ⟨name, .text text⟩

/-- The value as it is written behind the name. -/
def writtenValue (field : Field) : List Char :=
  match field.value with
  | .text given => writeTextValue (nameLength field.name) given
  | .mailboxes given => writeMailboxValue (nameLength field.name) given

/-- The field as it is written. -/
def write (field : Field) : List Char :=
  writeField field.name field.writtenValue

end Field

/-- The header fields of a mail. -/
abbrev Fields := List Field

namespace Fields

/-- Set a field: in place when there is one of its name, else at the end. -/
def set (field : Field) : Fields → Fields
  | [] => [field]
  | f :: fields =>
    if sameIgnoringCase f.name field.name then field :: fields else f :: set field fields

/-- The text that the field of a name shows. -/
def shown? (name : String) (fields : Fields) : Option (List Char) :=
  (fields.find? fun field => sameIgnoringCase field.name name).map fun field => field.value.shown

/-- The fields without those of a name. -/
def without (name : String) (fields : Fields) : Fields :=
  fields.filter fun field => !sameIgnoringCase field.name name

/-- The fields as they are written. -/
def write (fields : Fields) : List Char :=
  fields.flatMap Field.write

end Fields

end MailMerge.Mail
