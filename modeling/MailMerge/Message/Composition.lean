/-
# Composing a message

A rendered template divides at its first empty line into a block of headers and a body. The body
must hold something, and the headers must say to whom, from whom and about what. These three, and
copies where they are given, become fields of the message; every other header stays a header.
-/

import MailMerge.Message.Basic
import MailMerge.Template.Substitution

namespace MailMerge.Message

open MailMerge.Template MailMerge.Text

/-- A header that every template must fill. -/
inductive RequiredHeader where
  | recipients
  | sender
  | subject
  deriving DecidableEq, Repr

/-- The name of a required header. -/
def RequiredHeader.name : RequiredHeader → String
  | .recipients => "To"
  | .sender => "From"
  | .subject => "Subject"

/-- Why a rendered template is no message. -/
inductive Rejection where
  | missingBody
  | missingHeader (header : RequiredHeader)
  deriving DecidableEq, Repr

/-- The text of a rejection. -/
def Rejection.message : Rejection → String
  | .missingBody => "Cannot locate e-mail body."
  | .missingHeader header => "Missing required header: '" ++ header.name ++ "'"

/-- Headers that become fields of the message when they are filled. -/
def promotedNames : List String := ["To", "From", "Subject", "Cc", "Bcc"]

/-- The promoted names that a header block fills. -/
def Headers.promoted (headers : Headers) : List String :=
  promotedNames.filter fun name => (headers.filled? name).isSome

/-- The value of a required header, or the rejection for the lack of it. -/
def Headers.require (headers : Headers) (header : RequiredHeader) : Except Rejection String :=
  match headers.filled? header.name with
  | some value => .ok value
  | none => .error (.missingHeader header)

/-- Divide a rendered template into its header block and its body. Without an empty line there is
no body. -/
def divide (rendered : List Char) : List Char × List Char :=
  (splitAtEmptyLine rendered).getD (rendered, [])

/-- Make a message of a rendered template. The values only lend it their attachments. -/
def assemble (rendered : String) (values : Option Values) : Except Rejection Message :=
  let (block, body) := divide rendered.toList
  if isAllBlank body then .error .missingBody
  else do
    let headers := Headers.ofBlock block
    let recipients ← headers.require .recipients
    let sender ← headers.require .sender
    let subject ← headers.require .subject
    return {
      sender, recipients, subject
      copies := headers.filled? "Cc"
      blindCopies := headers.filled? "Bcc"
      headers := headers.without? headers.promoted
      attachments := values.bind Values.attachments?
      body := Body.sniff (String.ofList body) }

/-- Fill in a template and make a message of it. -/
def compose (markup : Markup) (text : String) (values : Option Values) :
    Except Rejection Message :=
  assemble (render markup text values) values

end MailMerge.Message
