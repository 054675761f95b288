/-
# Recipients of a mail

Who receives a mail. For each list of recipients the last header of its name, in
whatever letter case, decides in its place; without such a header the addresses are
those that its field gives when it is read again. Where no header stands in the place
of a list, every listed address is a recipient exactly when none has a user in quotes.
-/

import MailMerge.Message.Composition
import MailMerge.Proofs.Mail.Accumulation
import MailMerge.Proofs.Mail.Fields

namespace MailMerge.Mail

open MailMerge.Host MailMerge.Message MailMerge.Stage MailMerge.Template MailMerge.Text
  MailMerge.Time

/-- The lists of recipients, in the order of the envelope. -/
def recipientLines : List AddressLine :=
  [.recipients, .copies, .blindCopies]

theorem mem_recipientLines_iff {line : AddressLine} :
    line ∈ recipientLines ↔ line = .recipients ∨ line = .copies ∨ line = .blindCopies := by
  simp [recipientLines]

/-! ## Names of fields -/

/-- Different address lists have different fields. -/
theorem sameIgnoringCase_fieldName (first second : AddressLine) :
    sameIgnoringCase first.fieldName second.fieldName = decide (first = second) := by
  cases first <;> cases second <;> decide

/-- No header is set aside in the place of an address list. -/
theorem isHeaderField_fieldName (line : AddressLine) : IsHeaderField line.fieldName := by
  unfold IsHeaderField
  cases line <;> decide

theorem shown?_dated {name : String} (hdate : sameIgnoringCase "Date" name = false) (now : Utc)
    (fields : Fields) : (dated now fields).shown? name = fields.shown? name := by
  rw [dated]
  split
  · rfl
  · rw [Fields.shown?_set, Field.ofText, hdate, if_neg Bool.false_ne_true]

section Recipients

variable [InternationalDomains]

namespace AddressLine

/-- The text of an address list of a message. -/
def text? (line : AddressLine) (message : Message) : Option String :=
  match line with
  | .sender => some message.sender
  | .recipients => some message.recipients
  | .copies => message.copies
  | .blindCopies => message.blindCopies

/-- The mailboxes that an address list names. -/
def mailboxes (line : AddressLine) (message : Message) : List Mailbox :=
  match line.text? message with
  | some text => (readMailboxes text.toList).toOption.getD []
  | none => []

/-- The addresses that an address list names. -/
def listed (line : AddressLine) (message : Message) : List Address :=
  (line.mailboxes message).map Mailbox.address

/-- The header that stands in the place of an address list. -/
def header? (line : AddressLine) (message : Message) : Option String :=
  headerText? (headerEntries message) line.fieldName

/-- The addresses that an envelope takes for an address list: those of the header in its place,
or those of its field, which has read its mailboxes again. -/
def taken (line : AddressLine) (message : Message) : List Address :=
  match line.header? message with
  | some value => ((readMailboxes value.toList).toOption.getD []).map Mailbox.address
  | none => (readAgain (accumulate (line.mailboxes message))).map Mailbox.address

theorem isReadable_mailboxes (line : AddressLine) (message : Message) :
    ∀ mailbox ∈ line.mailboxes message, mailbox.IsReadable := by
  rw [mailboxes]
  split
  · next text _ =>
    cases hread : readMailboxes text.toList with
    | error => simp [Except.toOption]
    | ok mailboxes => exact isReadable_of_readMailboxes hread
  · simp

end AddressLine

/-! ## Fields of a message -/

theorem readLine_eq_ok_iff {line : AddressLine} {text : String} {mailboxes : List Mailbox} :
    readLine line text = .ok mailboxes ↔ readMailboxes text.toList = .ok mailboxes :=
  mapError_eq_ok_iff

/-- A list of recipients gives the field of the mailboxes it names. -/
theorem readOptionalLine_eq_ok (line : AddressLine) {message : Message} {fields : List Field}
    (given : readOptionalLine line (line.text? message) = .ok fields) :
    fields = lineField line (line.mailboxes message) ∧
      ∀ text, line.text? message = some text →
        readMailboxes text.toList = .ok (line.mailboxes message) := by
  unfold readOptionalLine at given
  unfold AddressLine.mailboxes
  cases htext : line.text? message with
  | none =>
      rw [htext] at given
      cases given
      exact ⟨rfl, fun _ heq => nomatch heq⟩
  | some text =>
      rw [htext] at given
      obtain ⟨mailboxes, hread, hfields⟩ := map_eq_ok_iff.1 given
      rw [readLine_eq_ok_iff] at hread
      refine ⟨?_, ?_⟩
      · rw [← hfields]
        simp only [hread]
        rfl
      · rintro _ ⟨rfl⟩
        simp only [hread]
        rfl

/-- The fields that a message gives: sender and subject, then its lists of recipients. -/
theorem messageFields_eq_ok {message : Message} {fields : Fields}
    (given : messageFields message = .ok fields) :
    (∃ sender, readMailbox message.sender.toList = .ok sender ∧ fields =
      [⟨AddressLine.sender.fieldName, .mailboxes [sender]⟩,
        .ofText "Subject" message.subject.toList] ++
      recipientLines.flatMap fun line => lineField line (line.mailboxes message)) ∧
    ∀ line ∈ recipientLines, ∀ text, line.text? message = some text →
      readMailboxes text.toList = .ok (line.mailboxes message) := by
  simp only [messageFields, bind_eq_ok_iff] at given
  obtain ⟨sender, hsender, recipients, hrecipients, copies, hcopies, blindCopies, hblind, heq⟩ :=
    given
  obtain ⟨rfl, readRecipients⟩ := readOptionalLine_eq_ok .recipients hrecipients
  obtain ⟨rfl, readCopies⟩ := readOptionalLine_eq_ok .copies hcopies
  obtain ⟨rfl, readBlind⟩ := readOptionalLine_eq_ok .blindCopies hblind
  cases heq
  refine ⟨⟨sender, mapError_eq_ok_iff.1 hsender, ?_⟩, ?_⟩
  · simp [recipientLines]
  · intro line hline
    rcases mem_recipientLines_iff.1 hline with rfl | rfl | rfl
    · exact readRecipients
    · exact readCopies
    · exact readBlind

/-- The field of a list shows the mailboxes it has taken. -/
theorem shown?_lineField (line other : AddressLine) (mailboxes : List Mailbox) :
    Fields.shown? line.fieldName (lineField other mailboxes) =
      if other = line ∧ mailboxes ≠ [] then some (showMailboxes (accumulate mailboxes))
      else none := by
  rw [lineField]
  cases mailboxes with
  | nil => simp [Fields.shown?]
  | cons mailbox mailboxes =>
      by_cases hsame : other = line
      · simp [Fields.shown?, FieldValue.shown, sameIgnoringCase_fieldName, hsame]
      · simp [Fields.shown?, sameIgnoringCase_fieldName, hsame]

theorem shown?_messageFields {message : Message} {fields : Fields}
    (given : messageFields message = .ok fields) {line : AddressLine}
    (hline : line ∈ recipientLines) :
    fields.shown? line.fieldName =
      if line.mailboxes message ≠ [] then
        some (showMailboxes (accumulate (line.mailboxes message)))
      else none := by
  obtain ⟨⟨sender, -, rfl⟩, -⟩ := messageFields_eq_ok given
  have hfront : Fields.shown? line.fieldName
      [⟨AddressLine.sender.fieldName, .mailboxes [sender]⟩,
        .ofText "Subject" message.subject.toList] = none := by
    have hsubject : sameIgnoringCase "Subject" line.fieldName = false := by
      cases line <;> decide
    have hsender : AddressLine.sender ≠ line := by
      rintro rfl
      exact absurd hline (by decide)
    simp [Fields.shown?, Field.ofText, sameIgnoringCase_fieldName, hsender, hsubject]
  rw [Fields.shown?_append, hfront, Option.none_or]
  simp only [recipientLines, List.flatMap_cons, List.flatMap_nil, List.append_nil,
    Fields.shown?_append, shown?_lineField]
  rcases mem_recipientLines_iff.1 hline with rfl | rfl | rfl
  · simp
  · simp
  · simp

/-! ## The envelope -/

/-- Before the envelope is read, the header in the place of a list decides what its field shows. -/
theorem fieldAddresses_build {message : Message} {given : Fields} {uses : List HeaderUse}
    (hgiven : messageFields message = .ok given)
    (used : useHeaders (headerEntries message) = .ok uses) (now : Utc) {line : AddressLine}
    (hline : line ∈ recipientLines) :
    fieldAddresses (dated now ((uses.foldl applyUse given).set
      (.ofText "MIME-Version" "1.0".toList))) line.fieldName = line.taken message := by
  have hdate : sameIgnoringCase "Date" line.fieldName = false := by
    cases line <;> decide
  have hversion : sameIgnoringCase "MIME-Version" line.fieldName = false := by
    cases line <;> decide
  unfold fieldAddresses AddressLine.taken AddressLine.header?
  rw [shown?_dated hdate, Fields.shown?_set, Field.ofText, hversion, if_neg Bool.false_ne_true,
    shown?_foldl_applyUse (isHeaderField_fieldName line) used, shown?_messageFields hgiven hline]
  cases headerText? (headerEntries message) line.fieldName with
  | some value => rfl
  | none =>
      rw [Option.map_none, Option.none_or]
      by_cases hfilled : line.mailboxes message = []
      · rw [if_neg fun hne => hne hfilled, hfilled]
        rfl
      · rw [if_pos hfilled]
        rfl

/-- The envelope takes the addresses of each list of recipients in turn. -/
theorem recipients_eq_of_build [FileTypes] {files : FileSystem} {stamp : Stamp} {message : Message}
    {mail : Mail} (built : build files stamp message = .ok mail) :
    mail.envelope.recipients = recipientLines.flatMap (·.taken message) := by
  simp only [build, bind_eq_ok_iff] at built
  obtain ⟨given, hgiven, uses, huses, attachments, -, parts, -, envelope, henvelope, heq⟩ := built
  cases heq
  rw [mapError_eq_ok_iff] at henvelope
  simp only [readEnvelope, bind_eq_ok_iff] at henvelope
  obtain ⟨sender, -, henvelope⟩ := henvelope
  split at henvelope
  · cases henvelope
  · cases henvelope
    have htaken (line : AddressLine) (hline : line ∈ recipientLines) :=
      fieldAddresses_build hgiven huses stamp.now hline
    have hrecipients := htaken .recipients (by decide)
    have hcopies := htaken .copies (by decide)
    have hblind := htaken .blindCopies (by decide)
    simp only [AddressLine.fieldName] at hrecipients hcopies hblind
    simp only [hrecipients, hcopies, hblind, recipientLines, List.flatMap_cons,
      List.flatMap_nil, List.append_nil, List.append_assoc]

/-- All mailboxes that the lists of recipients name. -/
def namedMailboxes (message : Message) : List Mailbox :=
  recipientLines.flatMap (·.mailboxes message)

/-- All mailboxes that the fields of these lists give when they are read again. -/
def survivingMailboxes (message : Message) : List Mailbox :=
  recipientLines.flatMap fun line => readAgain (accumulate (line.mailboxes message))

theorem userLength_survivingMailboxes (message : Message)
    (hquoted : ∃ line ∈ recipientLines, ∃ mailbox ∈ line.mailboxes message,
      mailbox.address.IsQuoted) :
    userLength (survivingMailboxes message) < userLength (namedMailboxes message) := by
  have hlength (line : AddressLine) :=
    userLength_readAgain_accumulate (line.isReadable_mailboxes message)
  obtain ⟨hto, htoQuoted⟩ := hlength .recipients
  obtain ⟨hcc, hccQuoted⟩ := hlength .copies
  obtain ⟨hbcc, hbccQuoted⟩ := hlength .blindCopies
  simp only [survivingMailboxes, namedMailboxes, recipientLines, List.flatMap_cons,
    List.flatMap_nil, userLength_append]
  obtain ⟨line, hline, hquoted⟩ := hquoted
  rcases mem_recipientLines_iff.1 hline with rfl | rfl | rfl
  · have hshorter := htoQuoted hquoted
    omega
  · have hshorter := hccQuoted hquoted
    omega
  · have hshorter := hbccQuoted hquoted
    omega

/-- Without headers in their place, the lists lose no address exactly when no user is quoted. -/
theorem flatMap_taken_eq_flatMap_listed_iff {message : Message}
    (free : ∀ line ∈ recipientLines, line.header? message = none) :
    recipientLines.flatMap (·.taken message) = recipientLines.flatMap (·.listed message) ↔
      ∀ line ∈ recipientLines, ∀ mailbox ∈ line.mailboxes message,
        ¬ mailbox.address.IsQuoted := by
  have htaken : ∀ line ∈ recipientLines, line.taken message =
      (readAgain (accumulate (line.mailboxes message))).map Mailbox.address := by
    intro line hline
    rw [AddressLine.taken, free line hline]
  constructor
  · -- A quoted user leaves fewer characters in the users, whatever else is read.
    intro same line hline mailbox hmailbox hquoted
    have hsurviving : recipientLines.flatMap (·.taken message) =
        (survivingMailboxes message).map Mailbox.address := by
      rw [survivingMailboxes, List.map_flatMap]
      exact List.flatMap_congr htaken
    have hnamed : recipientLines.flatMap (·.listed message) =
        (namedMailboxes message).map Mailbox.address := by
      rw [namedMailboxes, List.map_flatMap]
      rfl
    rw [hsurviving, hnamed] at same
    have hshorter :=
      userLength_survivingMailboxes message ⟨line, hline, mailbox, hmailbox, hquoted⟩
    rw [userLength_eq_of_map_address same] at hshorter
    exact absurd hshorter (Nat.lt_irrefl _)
  · intro plain
    apply List.flatMap_congr
    intro line hline
    rw [htaken line hline, AddressLine.listed]
    exact map_address_readAgain_accumulate (line.isReadable_mailboxes message) (plain line hline)

/-- The recipients of a mail are, for each of the three lists of its message, the addresses of the
last header of that name in whatever letter case, or else those of the list itself. Where no such
header exists, they are the listed addresses exactly when none of these has a quoted user. -/
theorem build_recipients [FileTypes] {files : FileSystem} {stamp : Stamp} {message : Message}
    {mail : Mail} (built : build files stamp message = .ok mail) :
    (∀ line ∈ recipientLines, ∀ text, line.text? message = some text →
        readMailboxes text.toList = .ok (line.mailboxes message)) ∧
      mail.envelope.recipients = recipientLines.flatMap (·.taken message) ∧
      ((∀ line ∈ recipientLines, line.header? message = none) →
        (mail.envelope.recipients = recipientLines.flatMap (·.listed message) ↔
          ∀ line ∈ recipientLines, ∀ mailbox ∈ line.mailboxes message,
            ¬ mailbox.address.IsQuoted)) := by
  have htaken := recipients_eq_of_build built
  refine ⟨?_, htaken, fun free => ?_⟩
  · simp only [build, bind_eq_ok_iff] at built
    obtain ⟨given, hgiven, -⟩ := built
    exact (messageFields_eq_ok hgiven).2
  · rw [htaken]
    exact flatMap_taken_eq_flatMap_listed_iff free

end Recipients

/-- A directory without files. -/
def bareFiles : FileSystem := ⟨[], []⟩

/-- The first minute of a year. -/
def newYear : Stamp := ⟨⟨⟨2024, 1, 1⟩, 0, 0, 0, 0⟩, ['b']⟩

/-- A message with a name that is shown in quotes, a blind copy and a header of its own. -/
def newsletter : Message where
  sender := "b@x.com"
  recipients := "\"Love, Ada\" <a@x.com>, c@x.com"
  subject := "S"
  copies := none
  blindCopies := some "d@x.com"
  headers := some ⟨[("X-Tag", "to")], by decide⟩
  attachments := none
  body := .text "hello"

theorem build_recipients_newsletter :
    ∃ mail, build bareFiles newYear newsletter = .ok mail ∧
      mail.envelope.recipients = recipientLines.flatMap (·.listed newsletter) := by
  have accepted : (build bareFiles newYear newsletter).isOk = true := by decide +kernel
  cases hbuild : build bareFiles newYear newsletter with
  | error failure =>
      rw [hbuild] at accepted
      cases accepted
  | ok mail =>
      have free : ∀ line ∈ recipientLines, line.header? newsletter = none := by
        decide +kernel
      have plain : ∀ line ∈ recipientLines, ∀ mailbox ∈ line.mailboxes newsletter,
          ¬ mailbox.address.IsQuoted := by
        decide +kernel
      exact ⟨mail, rfl, ((build_recipients hbuild).2.2 free).2 plain⟩

/-- A template with a header that has the name of the recipients in small letters. -/
def divertedTemplate : String :=
  "To: a@x.com\nFrom: b@x.com\nSubject: S\nto: evil@x.com\n\nhello"

/-- The message of this template. -/
def diverted : Message where
  sender := "b@x.com"
  recipients := "a@x.com"
  subject := "S"
  copies := none
  blindCopies := none
  headers := some ⟨[("to", "evil@x.com")], by decide⟩
  attachments := none
  body := .text "hello"

/-- The header is no recipient to the composer and all of them to the envelope. -/
theorem build_diverted :
    compose .placeholder divertedTemplate none = .ok diverted ∧
      recipientLines.flatMap (·.listed diverted) = [⟨['a'], "x.com".toList⟩] ∧
      (build bareFiles newYear diverted).toOption.map (·.envelope.recipients) =
        some [⟨"evil".toList, "x.com".toList⟩] := by
  refine ⟨?_, by decide +kernel, by decide +kernel⟩
  have hrender : render .placeholder divertedTemplate none = divertedTemplate := by
    decide +kernel
  rw [compose, hrender]
  rfl

end MailMerge.Mail
