/-
# Messages in JSON

A message as a JSON object. Absent fields are left out and the order of the headers is kept. A
reader takes the fields in any order or as the items of an array in the order of writing, ignores
fields it does not know and refuses a field given twice.
-/

import MailMerge.Json.Printer
import MailMerge.Json.Tagged
import MailMerge.Message.Basic

namespace MailMerge.Message

open MailMerge.Json

/-! ## Writing -/

/-- The text of a header map. -/
def Headers.write (headers : Headers) : List Char :=
  writeObject (headers.entries.map fun (name, value) => (name, writeString value))

/-- The text of a body: an object whose one key tells its kind. -/
def Body.write : Body → List Char
  | .html content => writeObject [("html", writeString content)]
  | .text content => writeObject [("text", writeString content)]

/-- A field that is left out when it is absent. -/
def optionalField {α : Type} (name : String) (write : α → List Char) :
    Option α → List (String × List Char)
  | some value => [(name, write value)]
  | none => []

end MailMerge.Message

namespace MailMerge

open MailMerge.Json MailMerge.Message

/-- The text of a message. -/
def Message.write (message : Message) : List Char :=
  writeObject
    ([("from", writeString message.sender), ("to", writeString message.recipients),
      ("subject", writeString message.subject)] ++
    optionalField "cc" writeString message.copies ++
    optionalField "bcc" writeString message.blindCopies ++
    optionalField "headers" Headers.write message.headers ++
    optionalField "attachments" Value.write message.attachments ++
    [("body", message.body.write)])

end MailMerge

namespace MailMerge.Message

open MailMerge.Json

/-! ## Reading -/

/-- Set the headers of a map in text order. -/
def readHeaderMembers (headers : Headers) :
    List (Option String × Outline) → Except ReadFailure Headers
  | [] => .ok headers
  | (name, outline) :: members => do
    let name ← readKey name
    let value ← outline.toText
    readHeaderMembers (headers.set name value) members

/-- Read a header map. -/
def readHeaders : Outline → Except ReadFailure Headers
  | .object members ending => do
    let headers ← readHeaderMembers .empty members
    ending.check
    return headers
  | other => .error other.mismatch

/-- The kinds of body, with readers of their contents. -/
def bodyKind? (tag : String) : Option (Outline → Except ReadFailure Body) :=
  if tag = "text" then some fun value => value.toText.map Body.text
  else if tag = "html" then some fun value => value.toText.map Body.html
  else none

/-- Read a body. A tag alone never is one. -/
def readBody : Outline → Except ReadFailure Body :=
  readTagged bodyKind? fun _ => .error .unexpected

/-- The fields of a message while it is being read. Of an optional field it is known that it was
given, even as null. -/
structure Draft where
  sender : Option String := none
  recipients : Option String := none
  subject : Option String := none
  copies : Option (Option String) := none
  blindCopies : Option (Option String) := none
  headers : Option (Option Headers) := none
  attachments : Option (Option Value) := none
  body : Option Body := none

namespace Draft

/-- Fill a field that must not be there yet. -/
def fill {α β : Type} (current : Option α) (read : Outline → Except ReadFailure α)
    (outline : Outline) (put : Option α → β) : Except ReadFailure β :=
  if current.isSome then .error .unexpected
  else (read outline).map fun value => put (some value)

/-- How deep attachments may nest inside the message. -/
def attachmentRoom : Nat := nestingLimit - 1

/-- Read the field of the given name into a draft. -/
def readField (draft : Draft) (name : String) (outline : Outline) : Except ReadFailure Draft :=
  match name with
  | "from" => fill draft.sender Outline.toText outline ({ draft with sender := · })
  | "to" => fill draft.recipients Outline.toText outline ({ draft with recipients := · })
  | "subject" => fill draft.subject Outline.toText outline ({ draft with subject := · })
  | "cc" =>
    fill draft.copies (Outline.toOptional Outline.toText) outline ({ draft with copies := · })
  | "bcc" =>
    fill draft.blindCopies (Outline.toOptional Outline.toText) outline
      ({ draft with blindCopies := · })
  | "headers" =>
    fill draft.headers (Outline.toOptional readHeaders) outline ({ draft with headers := · })
  | "attachments" =>
    fill draft.attachments (Outline.toOptional (Outline.toValue attachmentRoom)) outline
      ({ draft with attachments := · })
  | "body" => fill draft.body readBody outline ({ draft with body := · })
  | _ => do
    outline.skip
    return draft

/-- Read the members of an object in text order. -/
def readMembers (draft : Draft) :
    List (Option String × Outline) → Except ReadFailure Draft
  | [] => .ok draft
  | (name, outline) :: members => do
    let name ← readKey name
    let draft ← draft.readField name outline
    readMembers draft members

/-- The fields in the order of writing. -/
def fieldOrder : List String :=
  ["from", "to", "subject", "cc", "bcc", "headers", "attachments", "body"]

/-- Read the items of an array as the fields in order. What is left over breaks the text. -/
def readItems (draft : Draft) (ending : Ending) :
    List String → List Outline → Except ReadFailure Draft
  | [], items => do
    ending.check
    if items.isEmpty then return draft else .error .malformed
  | _ :: _, [] => do
    ending.check
    return draft
  | name :: names, item :: items => do
    let draft ← draft.readField name item
    readItems draft ending names items

/-- The message of a draft that has every field that is not optional. -/
def finish (draft : Draft) : Except ReadFailure Message :=
  match draft.sender, draft.recipients, draft.subject, draft.body with
  | some sender, some recipients, some subject, some body =>
    .ok {
      sender, recipients, subject, body
      copies := draft.copies.join
      blindCopies := draft.blindCopies.join
      headers := draft.headers.join
      attachments := draft.attachments.join }
  | _, _, _, _ => .error .unexpected

end Draft

/-- Read a message from an outline. -/
def ofOutline : Outline → Except ReadFailure Message
  | .object members ending => do
    let draft ← Draft.readMembers {} members
    ending.check
    draft.finish
  | .array items ending => do
    let draft ← Draft.readItems {} ending Draft.fieldOrder items
    draft.finish
  | other => .error other.mismatch

/-- Read a message from a JSON text. -/
def parse (text : String) : Except ReadFailure Message :=
  readDocument ofOutline text

/-- Read a message from a JSON value. -/
def ofValue (value : Value) : Except ReadFailure Message :=
  readValue ofOutline value

end MailMerge.Message
