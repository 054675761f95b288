/-
# Blind copies

A mail does not show who gets a blind copy of it. The field of blind copies is set,
replaced or not there at all while a mail is built, and it is taken out at the end;
every other field comes to the same place with the same value meanwhile. Two messages
that differ in their blind copies alone therefore make mails with the same text, but
for what makes every mail unlike every other.
-/

import MailMerge.Proofs.Mail.Folding
import MailMerge.Proofs.Mail.Recipients

namespace MailMerge.Mail

open MailMerge.Host MailMerge.Message MailMerge.Stage MailMerge.Text MailMerge.Time

/-! ## Fields -/

theorem without_lineField_blindCopies [InternationalDomains] (mailboxes : List Mailbox) :
    Fields.without "Bcc" (lineField .blindCopies mailboxes) = [] := by
  have hsame : sameIgnoringCase AddressLine.blindCopies.fieldName "Bcc" := by decide
  rw [lineField]
  split
  · rfl
  · exact List.filter_eq_nil_iff.2 (by simpa using hsame)

/-- The field of blind copies is the only one that tells them. -/
theorem without_messageFields [InternationalDomains]
    {message : Message} {blindCopies : Option String}
    {given given' : Fields} (hgiven : messageFields message = .ok given)
    (hgiven' : messageFields { message with blindCopies } = .ok given') :
    given.without "Bcc" = given'.without "Bcc" := by
  obtain ⟨⟨sender, hsender, rfl⟩, -⟩ := messageFields_eq_ok hgiven
  obtain ⟨⟨sender', hsender', rfl⟩, -⟩ := messageFields_eq_ok hgiven'
  obtain rfl : sender = sender' := Except.ok.inj (hsender.symm.trans hsender')
  simp only [recipientLines, List.flatMap_cons, List.flatMap_nil, List.append_nil,
    ← List.append_assoc, Fields.without_append, without_lineField_blindCopies]
  rfl

/-! ## Dates -/

theorem without_dated {name : String} (different : sameIgnoringCase "Date" name = false)
    (now : Utc) (fields : Fields) :
    (dated now fields).without name = dated now (fields.without name) := by
  have hother : sameIgnoringCase name "Date" = false := by rwa [sameIgnoringCase_comm]
  rw [dated, dated, Fields.shown?_without different]
  split
  · rfl
  · rw [Fields.without_set, Field.ofText, different, if_neg Bool.false_ne_true]

/-- A field as it is, or with another value when it is the date of a mail. -/
def Field.redated (date : List Char) (field : Field) : Field :=
  if sameIgnoringCase field.name "Date" then { field with value := .text date } else field

theorem Field.name_redated (date : List Char) (field : Field) :
    (field.redated date).name = field.name := by
  rw [redated]
  split <;> rfl

theorem Field.redated_ofText_date (date text : List Char) :
    (Field.ofText "Date" text).redated date = .ofText "Date" date := by
  have hsame : sameIgnoringCase "Date" "Date" := by decide
  exact if_pos hsame

/-- The time of a mail shows in its date alone. -/
theorem map_redated_dated (date : List Char) (now now' : Utc) (fields : Fields) :
    (dated now fields).map (·.redated date) = (dated now' fields).map (·.redated date) := by
  rw [dated, dated]
  split
  · rfl
  · rw [Fields.map_set (Field.name_redated date), Fields.map_set (Field.name_redated date),
      Field.redated_ofText_date, Field.redated_ofText_date]

/-- A mail with another date and another boundary between its parts. -/
def restamped (date boundary : List Char) (mail : Mail) : Mail :=
  { mail with fields := mail.fields.map (·.redated date), boundary }

/-! ## Mails -/

/-- The envelope is not written. -/
theorem wire_congr {mail mail' : Mail} (fields : mail.fields = mail'.fields)
    (body : mail.body = mail'.body) (attachments : mail.attachments = mail'.attachments)
    (boundary : mail.boundary = mail'.boundary) : mail.wire = mail'.wire := by
  rw [wire, wire, fields, body, attachments, boundary]

/-- How a mail that was built comes from its message. -/
structure BuiltFrom [InternationalDomains] [FileTypes]
    (files : FileSystem) (stamp : Stamp) (message : Message) (given : Fields)
    (uses : List HeaderUse) (mail : Mail) : Prop where
  fieldsGiven : messageFields message = .ok given
  headersUsed : useHeaders (headerEntries message) = .ok uses
  fields : mail.fields = (dated stamp.now
    ((uses.foldl applyUse given).set (.ofText "MIME-Version" "1.0".toList))).without "Bcc"
  body : mail.body = ⟨none, bodyType message.body uses, .text message.body.content.toList⟩
  attachments : ∃ attachments, Attachment.readAll message.attachments = .ok attachments ∧
    Attachment.parts files 0 attachments = .ok mail.attachments
  boundary : mail.boundary = stamp.boundary

theorem exists_builtFrom [InternationalDomains] [FileTypes]
    {files : FileSystem} {stamp : Stamp} {message : Message} {mail : Mail}
    (built : build files stamp message = .ok mail) :
    ∃ given uses, BuiltFrom files stamp message given uses mail := by
  simp only [build, bind_eq_ok_iff, mapError_eq_ok_iff] at built
  obtain ⟨given, hgiven, uses, huses, attachments, hattachments, parts, hparts, envelope, -, heq⟩ :=
    built
  cases heq
  exact ⟨given, uses, hgiven, huses, rfl, rfl, ⟨attachments, hattachments, hparts⟩, rfl⟩

namespace BuiltFrom

variable [InternationalDomains] [FileTypes] {files : FileSystem} {stamp stamp' : Stamp}
  {message : Message} {blindCopies : Option String} {given given' : Fields}
  {uses uses' : List HeaderUse} {mail mail' : Mail}

/-- A mail is dated at the very end. -/
theorem fields_eq_dated (built : BuiltFrom files stamp message given uses mail) :
    mail.fields = dated stamp.now (((uses.foldl applyUse given).without "Bcc").set
      (.ofText "MIME-Version" "1.0".toList)) := by
  have hdate : sameIgnoringCase "Date" "Bcc" = false := by decide
  have hversion : sameIgnoringCase "MIME-Version" "Bcc" = false := by decide
  -- Neither date nor version is taken out, so what is taken out can go before they are set.
  rw [built.fields, without_dated hdate, Fields.without_set, Field.ofText, hversion,
    if_neg Bool.false_ne_true]

/-- Mails of messages that differ in their blind copies alone differ in their dates alone. -/
theorem exists_fields (built : BuiltFrom files stamp message given uses mail)
    (built' : BuiltFrom files stamp' { message with blindCopies } given' uses' mail') :
    ∃ shown, mail.fields = dated stamp.now shown ∧ mail'.fields = dated stamp'.now shown := by
  obtain rfl : uses = uses' := Except.ok.inj (built.headersUsed.symm.trans built'.headersUsed)
  refine ⟨_, built.fields_eq_dated, ?_⟩
  rw [built'.fields_eq_dated,
    without_foldl_applyUse (without_messageFields built.fieldsGiven built'.fieldsGiven) uses]

theorem body_and_attachments_eq (built : BuiltFrom files stamp message given uses mail)
    (built' : BuiltFrom files stamp' { message with blindCopies } given' uses' mail') :
    mail.body = mail'.body ∧ mail.attachments = mail'.attachments := by
  obtain rfl : uses = uses' := Except.ok.inj (built.headersUsed.symm.trans built'.headersUsed)
  obtain ⟨attachments, hattachments, hparts⟩ := built.attachments
  obtain ⟨attachments', hattachments', hparts'⟩ := built'.attachments
  obtain rfl : attachments = attachments' :=
    Except.ok.inj (hattachments.symm.trans hattachments')
  exact ⟨built.body.trans built'.body.symm, Except.ok.inj (hparts.symm.trans hparts')⟩

/-- Such mails have the same text once they are dated and divided alike. -/
theorem wire_restamped (built : BuiltFrom files stamp message given uses mail)
    (built' : BuiltFrom files stamp' { message with blindCopies } given' uses' mail')
    (date boundary : List Char) :
    (mail.restamped date boundary).wire = (mail'.restamped date boundary).wire := by
  obtain ⟨shown, hfields, hfields'⟩ := built.exists_fields built'
  obtain ⟨hbody, hattachments⟩ := built.body_and_attachments_eq built'
  apply wire_congr
  · simp only [restamped]
    rw [hfields, hfields', map_redated_dated]
  · exact hbody
  · exact hattachments
  · rfl

/-- They have the same text at once when they are made at the same time with the same boundary. -/
theorem wire_eq (built : BuiltFrom files stamp message given uses mail)
    (built' : BuiltFrom files stamp { message with blindCopies } given' uses' mail') :
    mail.wire = mail'.wire := by
  obtain ⟨shown, hfields, hfields'⟩ := built.exists_fields built'
  obtain ⟨hbody, hattachments⟩ := built.body_and_attachments_eq built'
  exact wire_congr (hfields.trans hfields'.symm) hbody hattachments
    (built.boundary.trans built'.boundary.symm)

end BuiltFrom

/-! ## Names -/

/-- The name of a field that a header gives is plain when it has the characters of header names. -/
theorem isPlainName_of_isFieldName {name : String} (valid : isFieldName name)
    (chars : ∀ c ∈ name.toList, isHeaderNameChar c) : IsPlainName name.toList := by
  have outside : (['\r', '\n', ' ', '\t', ':'].all fun c => !isHeaderNameChar c) = true := by
    decide +kernel
  constructor
  · intro hempty
    rw [String.toList_eq_nil_iff.1 hempty] at valid
    exact absurd valid (by decide)
  · intro c hc
    rw [Bool.eq_false_iff]
    intro hstop
    have hmem : c ∈ ['\r', '\n', ' ', '\t', ':'] := by simpa [isNameStop, or_assoc] using hstop
    have hchar := List.all_eq_true.1 outside c hmem
    rw [chars c hc] at hchar
    cases hchar

/-- The fields that a message itself gives are plain. -/
theorem isPlain_messageFields [InternationalDomains] {message : Message} {given : Fields}
    (hgiven : messageFields message = .ok given) : ∀ field ∈ given, field.IsPlain := by
  have hname (line : AddressLine) : IsPlainName line.fieldName.toList := by
    cases line <;> decide +kernel
  have hsubject : IsPlainName "Subject".toList := by decide +kernel
  obtain ⟨⟨sender, hsender, rfl⟩, -⟩ := messageFields_eq_ok hgiven
  intro field hfield
  rcases List.mem_append.1 hfield with hfield | hfield
  · rcases List.mem_pair.1 hfield with rfl | rfl
    · apply Field.isPlain_mailboxes (hname .sender)
      intro mailbox hmailbox
      rw [List.mem_singleton.1 hmailbox]
      exact isReadable_of_readMailbox hsender
    · exact Field.isPlain_ofText hsubject _
  · obtain ⟨line, -, hfield⟩ := List.mem_flatMap.1 hfield
    rw [lineField] at hfield
    split at hfield
    · cases hfield
    · rw [List.mem_singleton.1 hfield]
      exact Field.isPlain_mailboxes (hname line)
        (isReadable_accumulate (line.isReadable_mailboxes message))

namespace BuiltFrom

variable [InternationalDomains] [FileTypes] {files : FileSystem} {stamp : Stamp}
  {message : Message} {given : Fields} {uses : List HeaderUse} {mail : Mail}

/-- Every field of a mail is given by its message, by a header of it, or is one that every mail
has. -/
theorem mem_fields (built : BuiltFrom files stamp message given uses mail) {field : Field}
    (hfield : field ∈ mail.fields) :
    field ∈ given ∨
      (∃ entry ∈ headerEntries message, useHeader entry.1 entry.2 = .ok (.field field)) ∨
      ∃ name ∈ ["MIME-Version", "Date"], ∃ text, field = .ofText name text := by
  rw [built.fields, dated] at hfield
  replace hfield := (List.mem_filter.1 hfield).1
  have hset : field ∈ (uses.foldl applyUse given).set (.ofText "MIME-Version" "1.0".toList) ∨
      ∃ text, field = .ofText "Date" text := by
    split at hfield
    · exact .inl hfield
    · exact (Fields.mem_set hfield).symm.imp_right fun heq => ⟨_, heq⟩
  rcases hset with hfield | ⟨text, rfl⟩
  · rcases Fields.mem_set hfield with rfl | hfield
    · exact .inr (.inr ⟨_, by simp, _, rfl⟩)
    · exact (mem_foldl_applyUse hfield).imp_right fun hmem =>
        .inl (exists_mem_of_useHeaders built.headersUsed hmem)
  · exact .inr (.inr ⟨_, by simp, _, rfl⟩)

/-- The fields of a mail are plain when the headers of its message are named like headers. -/
theorem isPlain (built : BuiltFrom files stamp message given uses mail)
    (named : ∀ entry ∈ headerEntries message, ∀ c ∈ entry.1.toList, isHeaderNameChar c) :
    ∀ field ∈ mail.fields, field.IsPlain := by
  have hnames : ∀ name ∈ ["MIME-Version", "Date"], IsPlainName name.toList := by
    decide +kernel
  intro field hfield
  rcases built.mem_fields hfield with hfield | ⟨entry, hentry, hused⟩ | ⟨name, hname, text, rfl⟩
  · exact isPlain_messageFields built.fieldsGiven field hfield
  · obtain ⟨rfl, valid, -⟩ := useHeader_eq_field hused
    exact Field.isPlain_ofText (isPlainName_of_isFieldName valid (named entry hentry)) _
  · exact Field.isPlain_ofText (hnames name hname) text

/-- The header section of a mail names no blind copies. -/
theorem not_blindCopies_of_mem_fieldNames
    (built : BuiltFrom files stamp message given uses mail)
    (named : ∀ entry ∈ headerEntries message, ∀ c ∈ entry.1.toList, isHeaderNameChar c)
    {name : List Char} (hname : name ∈ fieldNames mail.wire) :
    sameIgnoringCase (String.ofList name) "Bcc" = false := by
  have hbody : mail.body.fileName = none := by rw [built.body]
  have hplain : ∀ field ∈ mail.fields ++ mail.bodyFields, field.IsPlain :=
    List.forall_mem_append.2 ⟨built.isPlain named, isPlain_bodyFields mail⟩
  rw [fieldNames_wire hbody hplain] at hname
  obtain ⟨field, hfield, rfl⟩ := List.mem_map.1 hname
  rw [String.ofList_toList]
  rcases List.mem_append.1 hfield with hfield | hfield
  · rw [built.fields] at hfield
    simpa using (List.mem_filter.1 hfield).2
  · have hnames : ∀ name ∈ ["Content-Type", "Content-Transfer-Encoding"],
        sameIgnoringCase name "Bcc" = false := by
      decide
    obtain ⟨name, hmem, text, rfl⟩ := exists_eq_of_mem_bodyFields hfield
    exact hnames name hmem

end BuiltFrom

/-- A blind copy shows nowhere in a mail: two messages that differ in their blind copies alone, and
whose headers are named like headers, make mails with the same text but for the date and the
boundary, and no field of their header sections is named for blind copies in any letter case. -/
theorem build_blindCopies [InternationalDomains] [FileTypes]
    {files : FileSystem} {stamp stamp' : Stamp} {message : Message}
    {blindCopies : Option String} {mail mail' : Mail}
    (named : ∀ entry ∈ headerEntries message, ∀ c ∈ entry.1.toList, isHeaderNameChar c)
    (built : build files stamp message = .ok mail)
    (built' : build files stamp' { message with blindCopies } = .ok mail') :
    (∀ date boundary, (mail.restamped date boundary).wire = (mail'.restamped date boundary).wire) ∧
      (stamp = stamp' → mail.wire = mail'.wire) ∧
      ∀ name ∈ fieldNames mail.wire ++ fieldNames mail'.wire,
        sameIgnoringCase (String.ofList name) "Bcc" = false := by
  obtain ⟨given, uses, origin⟩ := exists_builtFrom built
  obtain ⟨given', uses', origin'⟩ := exists_builtFrom built'
  refine ⟨origin.wire_restamped origin', ?_, ?_⟩
  · rintro rfl
    exact origin.wire_eq origin'
  · intro name hname
    rcases List.mem_append.1 hname with hname | hname
    · exact origin.not_blindCopies_of_mem_fieldNames named hname
    · exact origin'.not_blindCopies_of_mem_fieldNames named hname

/-- The last minute of a year. -/
def newYearsEve : Stamp := ⟨⟨⟨2023, 12, 31⟩, 23, 59, 0, 0⟩, ['e']⟩

/-- A message with blind copies, and with a header of their name in small letters. -/
def announcement : Message where
  sender := "b@x.com"
  recipients := "a@x.com"
  subject := "S\r\nBcc: c@x.com"
  copies := none
  blindCopies := some "d@x.com"
  headers := some ⟨[("X-Tag", "t"), ("bcc", "e@x.com"), ("X-Last", "l")], by decide⟩
  attachments := none
  body := .text "hello"

theorem build_blindCopies_announcement :
    ∃ mail mail', build bareFiles newYear announcement = .ok mail ∧
      build bareFiles newYearsEve { announcement with blindCopies := none } = .ok mail' ∧
      (∀ date boundary,
        (mail.restamped date boundary).wire = (mail'.restamped date boundary).wire) ∧
      ∀ name ∈ fieldNames mail.wire ++ fieldNames mail'.wire,
        sameIgnoringCase (String.ofList name) "Bcc" = false := by
  have named : ∀ entry ∈ headerEntries announcement, ∀ c ∈ entry.1.toList,
      isHeaderNameChar c := by
    have checked : (headerEntries announcement).all
        (fun entry => entry.1.toList.all isHeaderNameChar) = true := by
      decide +kernel
    intro entry hentry
    exact List.all_eq_true.1 (List.all_eq_true.1 checked entry hentry)
  have accepted : (build bareFiles newYear announcement).isOk = true ∧
      (build bareFiles newYearsEve { announcement with blindCopies := none }).isOk = true := by
    decide +kernel
  cases hbuild : build bareFiles newYear announcement with
  | error failure =>
      rw [hbuild] at accepted
      cases accepted.1
  | ok mail =>
      cases hbuild' : build bareFiles newYearsEve { announcement with blindCopies := none } with
      | error failure =>
          rw [hbuild'] at accepted
          cases accepted.2
      | ok mail' =>
          obtain ⟨hwire, -, hnames⟩ := build_blindCopies named hbuild hbuild'
          exact ⟨mail, mail', rfl, rfl, hwire, hnames⟩

end MailMerge.Mail
