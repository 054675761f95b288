/-
# Building mails

A message becomes a mail in stages, and the first stage that fails decides: the sender, the lists of
recipients, the headers of the message, its attachments and at last the envelope. The envelope is
read from the header fields, since a header of the message may have replaced a list of recipients;
recipients of blind copies are in the envelope and not in the mail.
-/

import MailMerge.Log
import MailMerge.Mail.Attachment
import MailMerge.Mail.Basic
import MailMerge.Mail.MailboxReader
import MailMerge.Message.Basic
import MailMerge.Time.MailDate

namespace MailMerge.Mail

open MailMerge.Host MailMerge.Message MailMerge.Text MailMerge.Time

/-! ## Failures -/

/-- A list of addresses of a message. -/
inductive AddressLine where
  | sender
  | recipients
  | copies
  | blindCopies
  deriving DecidableEq, Repr

/-- The name of an address list in failures. -/
def AddressLine.label : AddressLine → String
  | .sender => "from"
  | .recipients => "to"
  | .copies => "cc"
  | .blindCopies => "bcc"

/-- The header field of an address list. -/
def AddressLine.fieldName : AddressLine → String
  | .sender => "From"
  | .recipients => "To"
  | .copies => "Cc"
  | .blindCopies => "Bcc"

/-- What is wrong with a header of the message. -/
inductive HeaderFault where
  | name
  | mediaType (fault : MediaTypeFault)
  deriving DecidableEq, Repr

/-- The text of a fault. -/
def HeaderFault.message : HeaderFault → String
  | .name => "header names must be ASCII"
  | .mediaType fault => fault.message

/-- What is wrong with the header fields of a mail. -/
inductive EnvelopeFault where
  | noSender
  | manySenders
  | noRecipient
  deriving DecidableEq, Repr

/-- The text of a fault. -/
def EnvelopeFault.message : EnvelopeFault → String
  | .noSender => "missing source address, invalid envelope"
  | .manySenders => "there can only be one source address"
  | .noRecipient => "missing destination address, invalid envelope"

/-- Why a message is no mail. -/
inductive BuildFailure where
  | address (line : AddressLine) (fault : AddressFault)
  | header (name : String) (fault : HeaderFault)
  | attachment (fault : AttachmentFault)
  | envelope (fault : EnvelopeFault)

/-- The text of a failure. -/
def BuildFailure.message : BuildFailure → String
  | .address line fault => "Invalid " ++ line.label ++ " address: " ++ fault.message
  | .header name fault => "Invalid header " ++ name ++ ": " ++ fault.message
  | .attachment fault => "Invalid attachment: " ++ fault.message
  | .envelope fault => "Failed to build message: " ++ fault.message

variable [InternationalDomains]

/-! ## Addresses -/

/-- The mailboxes that a field holds after mailboxes were added one by one. Before each addition the
text of the field is read again, and what cannot be read is lost. -/
def accumulate (mailboxes : List Mailbox) : List Mailbox :=
  mailboxes.foldl (fun held mailbox =>
    ((readMailboxes (showMailboxes held)).toOption.getD []) ++ [mailbox]) []

/-- Read an address list of a message. -/
def readLine (line : AddressLine) (text : String) : Except BuildFailure (List Mailbox) :=
  (readMailboxes text.toList).mapError (.address line)

/-- The field of an address list; none when it is empty. -/
def lineField (line : AddressLine) (mailboxes : List Mailbox) : List Field :=
  if mailboxes.isEmpty then [] else [⟨line.fieldName, .mailboxes (accumulate mailboxes)⟩]

/-- Read an address list that a message may lack. -/
def readOptionalLine (line : AddressLine) (text : Option String) :
    Except BuildFailure (List Field) :=
  match text with
  | some text => (readLine line text).map (lineField line)
  | none => .ok []

/-- The fields that the message itself gives: sender, subject and recipients. -/
def messageFields (message : Message) : Except BuildFailure Fields := do
  let sender ← (readMailbox message.sender.toList).mapError (.address .sender)
  let recipients ← (readLine .recipients message.recipients).map (lineField .recipients)
  let copies ← readOptionalLine .copies message.copies
  let blindCopies ← readOptionalLine .blindCopies message.blindCopies
  return [⟨AddressLine.sender.fieldName, .mailboxes [sender]⟩,
    .ofText "Subject" message.subject.toList] ++ recipients ++ copies ++ blindCopies

/-! ## Headers -/

/-- What becomes of a header of the message. -/
inductive HeaderUse where
  /-- Nothing, since it is empty. -/
  | skipped
  /-- It is the media type of the body. -/
  | bodyType (mediaType : MediaType)
  /-- Nothing, since every mail has such a field. -/
  | dropped
  | field (field : Field)
  deriving DecidableEq, Repr

/-- Headers that are left to the mail itself. -/
def ownFieldNames : List String := ["Content-Transfer-Encoding", "MIME-Version"]

/-- The greatest length of a field name. -/
def fieldNameLimit : Nat := 76

/-- A text can name a field. -/
def isFieldName (name : String) : Bool :=
  !name.isEmpty && name.length ≤ fieldNameLimit &&
    name.toList.all fun c => c.toNat < 128 && c != ':' && c != ' '

/-- Tell what becomes of a header. -/
def useHeader (name value : String) : Except BuildFailure HeaderUse :=
  if value.isEmpty then .ok .skipped
  else if sameIgnoringCase name "Content-Type" then
    match MediaType.read value with
    | .ok mediaType => .ok (.bodyType mediaType)
    | .error fault => .error (.header name (.mediaType fault))
  else if ownFieldNames.any (sameIgnoringCase name) then .ok .dropped
  else if isFieldName name then .ok (.field (.ofText name value.toList))
  else .error (.header name .name)

/-- Tell what becomes of headers in order. -/
def useHeaders : List (String × String) → Except BuildFailure (List HeaderUse)
  | [] => .ok []
  | (name, value) :: entries => do
    let use ← useHeader name value
    let uses ← useHeaders entries
    return use :: uses

/-- The entries of the headers of a message. -/
def headerEntries (message : Message) : List (String × String) :=
  (message.headers.map Headers.entries).getD []

/-- The fields with a header put to use. -/
def applyUse (fields : Fields) : HeaderUse → Fields
  | .field given => fields.set given
  | _ => fields

/-- The media type of the body: the last that a header gives, or that of the kind of body. -/
def bodyType (body : Body) (uses : List HeaderUse) : MediaType :=
  let given := uses.filterMap fun
    | .bodyType mediaType => some mediaType
    | _ => none
  given.getLastD <| match body with
    | .html _ => .html
    | .text _ => .plain

/-! ## Envelopes -/

/-- The addresses of a field; none when there is no such field or it cannot be read. -/
def fieldAddresses (fields : Fields) (name : String) : List Address :=
  match fields.shown? name with
  | some text => ((readMailboxes text).toOption.getD []).map Mailbox.address
  | none => []

/-- The address that stands for the sender of a mail: that of the field `Sender` if it has one, or
the only one of the field `From`. -/
def senderAddress (fields : Fields) : Except EnvelopeFault Address :=
  let senders := (fields.shown? "From").bind fun text => (readMailboxes text).toOption
  let agent := (fields.shown? "Sender").bind fun text => (readMailbox text).toOption
  match senders, agent with
  | none, _ => .error .noSender
  | some _, some agent => .ok agent.address
  | some [sender], none => .ok sender.address
  | some [], none => .error .noSender
  | some (_ :: _ :: _), none => .error .manySenders

/-- The envelope of a mail with the given fields. -/
def readEnvelope (fields : Fields) : Except EnvelopeFault Envelope := do
  let sender ← senderAddress fields
  let recipients := fieldAddresses fields "To" ++ fieldAddresses fields "Cc" ++
    fieldAddresses fields "Bcc"
  if recipients.isEmpty then .error .noRecipient else return ⟨sender, recipients⟩

/-! ## Mails -/

/-- Fields with a date: the given one when it is one, or else the time of the stamp. -/
def dated (now : Utc) (fields : Fields) : Fields :=
  if ((fields.shown? "Date").map isMailDate).getD false then fields
  else fields.set (.ofText "Date" now.mailDate.toList)

/-- Build a mail. Files of attachments are read on the way. -/
def build [FileTypes] (files : FileSystem) (stamp : Stamp) (message : Message) :
    Except BuildFailure Mail := do
  let fields ← messageFields message
  let uses ← useHeaders (headerEntries message)
  let attachments ← (Attachment.readAll message.attachments).mapError .attachment
  let parts ← (Attachment.parts files 0 attachments).mapError .attachment
  let fields := dated stamp.now
    ((uses.foldl applyUse fields).set (.ofText "MIME-Version" "1.0".toList))
  let envelope ← (readEnvelope fields).mapError .envelope
  return {
    fields := fields.without "Bcc"
    body := ⟨none, bodyType message.body uses, .text message.body.content.toList⟩
    attachments := parts
    boundary := stamp.boundary
    envelope }

/-- What building a mail leaves in the log: the headers that are dropped before a stage fails. -/
def buildLog (message : Message) : List LogRecord :=
  match messageFields message with
  | .error _ => []
  | .ok _ =>
    let used := (headerEntries message).map fun (name, value) => (name, useHeader name value)
    (used.takeWhile fun (_, use) => use.isOk).filterMap fun
      | (name, .ok .dropped) =>
        some (.of .debug "Dropping header set by the MIME builder" [("header", name)])
      | _ => none

end MailMerge.Mail
