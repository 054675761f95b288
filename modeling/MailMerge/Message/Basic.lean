/-
# Messages

A message ready for delivery: its addresses and subject as they are written, the headers of its
own, the attachment descriptors as they were given, and its body.
-/

import MailMerge.Json.Value
import MailMerge.Message.Headers

namespace MailMerge.Message

open MailMerge.Json MailMerge.Text

/-- The body of a message. -/
inductive Body where
  | html (content : String)
  | text (content : String)
  deriving DecidableEq, Repr

namespace Body

/-- The text of a body. -/
def content : Body → String
  | .html content => content
  | .text content => content

/-- Classify a body by its first character that is no blank: an opening angle bracket makes it
HTML. -/
def sniff (content : String) : Body :=
  match trimLeft content.toList with
  | '<' :: _ => .html content
  | _ => .text content

end Body

end MailMerge.Message

namespace MailMerge

open MailMerge.Json MailMerge.Message

/-- A message ready for delivery. -/
structure Message where
  sender : String
  recipients : String
  subject : String
  copies : Option String
  blindCopies : Option String
  /-- Headers other than the ones above; absent rather than empty. -/
  headers : Option Headers
  /-- Attachment descriptors, as they were given. -/
  attachments : Option Value
  body : Body

end MailMerge
