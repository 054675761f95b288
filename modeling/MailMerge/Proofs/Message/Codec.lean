/-
# Messages survive their text

The text of a message spells an object of its fields and reads as the message, in which
attachments given as null are no longer there. Mails are built alike of the one and the
other: such attachments were none before.
-/

import MailMerge.Message.Codec
import MailMerge.Proofs.Json.Reader
import MailMerge.Proofs.Json.Spelling
import MailMerge.Proofs.Mail.Stamp
import MailMerge.Proofs.Message.Headers

namespace MailMerge.Message

open MailMerge.Host MailMerge.Json MailMerge.Stage MailMerge.Text

/-! ## Outlines of messages -/

/-- The outline of a text. -/
def textOutline (text : String) : Outline :=
  .string (some text)

/-- The outline of a header map. -/
def Headers.outline (headers : Headers) : Outline :=
  .object (headers.entries.map fun (name, value) => (some name, textOutline value)) .closed

/-- The outline of a body. -/
def Body.outline : Body → Outline
  | .html content => .object [(some "html", textOutline content)] .closed
  | .text content => .object [(some "text", textOutline content)] .closed

/-- The outline of a field that is left out when it is absent. -/
def optionalOutline {α : Type} (name : String) (outline : α → Outline) :
    Option α → List (Option String × Outline)
  | some value => [(some name, outline value)]
  | none => []

theorem spells_headers (headers : Headers) : Spells headers.write headers.outline := by
  refine spells_object ?_
  rw [List.forall₂_map_left_iff, List.forall₂_map_right_iff, List.forall₂_same]
  exact fun entry _ => (spells_string entry.2).member entry.1

theorem spells_body (body : Body) : Spells body.write body.outline := by
  cases body with
  | html content => exact spells_object (.cons ((spells_string content).member "html") .nil)
  | text content => exact spells_object (.cons ((spells_string content).member "text") .nil)

theorem spellsMember_optionalField {α : Type} (name : String) {write : α → List Char}
    {outline : α → Outline} {value : Option α}
    (spelled : ∀ given ∈ value, Spells (write given) (outline given)) :
    List.Forall₂ SpellsMember (optionalField name write value)
      (optionalOutline name outline value) := by
  cases value with
  | none => exact .nil
  | some given => exact .cons ((spelled given rfl).member name) .nil

end MailMerge.Message

namespace MailMerge

open MailMerge.Json MailMerge.Message

/-- The outline of a message. -/
def Message.outline (message : Message) : Outline :=
  .object
    ([(some "from", textOutline message.sender), (some "to", textOutline message.recipients),
      (some "subject", textOutline message.subject)] ++
    optionalOutline "cc" textOutline message.copies ++
    optionalOutline "bcc" textOutline message.blindCopies ++
    optionalOutline "headers" Headers.outline message.headers ++
    optionalOutline "attachments" Value.outline message.attachments ++
    [(some "body", message.body.outline)]) .closed

/-- A value unless it is null. -/
def nonNull? : Value → Option Value
  | .null => none
  | value => some value

/-- The message without attachments that were given as null. -/
def Message.settled (message : Message) : Message :=
  { message with attachments := message.attachments.bind nonNull? }

end MailMerge

namespace MailMerge.Message

open MailMerge.Host MailMerge.Json MailMerge.Stage MailMerge.Text

variable {message : Message}

/-- The text of a message with exact attachments spells its outline. -/
theorem spells_write (exact : ∀ attachments ∈ message.attachments, attachments.IsExact) :
    Spells message.write message.outline := by
  have hsender := (spells_string message.sender).member "from"
  have hrecipients := (spells_string message.recipients).member "to"
  have hsubject := (spells_string message.subject).member "subject"
  have htexts (name : String) (value : Option String) :
      List.Forall₂ SpellsMember (optionalField name writeString value)
        (optionalOutline name textOutline value) :=
    spellsMember_optionalField name fun given _ => spells_string given
  have hheaders := spellsMember_optionalField "headers" fun given (_ : given ∈ message.headers) =>
    spells_headers given
  have hattachments := spellsMember_optionalField "attachments" fun given hgiven =>
    Value.spells_write (exact given hgiven)
  have hbody := (spells_body message.body).member "body"
  exact spells_object (List.rel_append (List.rel_append (List.rel_append (List.rel_append
    (List.rel_append (.cons hsender (.cons hrecipients (.cons hsubject .nil)))
      (htexts "cc" message.copies)) (htexts "bcc" message.blindCopies)) hheaders) hattachments)
    (.cons hbody .nil))

/-! ## Reading fields back -/

/-- Headers are read in their order. -/
theorem readHeaderMembers_map (before : Headers) (entries : List (String × String)) :
    readHeaderMembers before (entries.map fun (name, value) => (some name, textOutline value)) =
      .ok (entries.foldl (fun headers (name, value) => headers.set name value) before) := by
  induction entries generalizing before with
  | nil => rfl
  | cons entry entries ih => exact ih (before.set entry.1 entry.2)

theorem readHeaders_outline (headers : Headers) : readHeaders headers.outline = .ok headers := by
  rw [Headers.outline, readHeaders, readHeaderMembers_map, ← Headers.ofList,
    Headers.ofList_entries]
  rfl

theorem readBody_outline (body : Body) : readBody body.outline = .ok body := by
  cases body <;> rfl

namespace Draft

theorem readMembers_append (draft : Draft) (first second : List (Option String × Outline)) :
    draft.readMembers (first ++ second) =
      draft.readMembers first >>= fun draft => draft.readMembers second := by
  induction first generalizing draft with
  | nil => rfl
  | cons member first ih =>
      obtain ⟨key, outline⟩ := member
      rw [List.cons_append, readMembers, readMembers, bind_assoc]
      congr 1
      funext name
      rw [bind_assoc]
      congr 1
      funext draft
      exact ih draft

theorem readMembers_singleton (draft : Draft) (name : String) (outline : Outline) :
    draft.readMembers [(some name, outline)] = draft.readField name outline := by
  rw [readMembers, readKey, ok_bind]
  cases draft.readField name outline <;> rfl

/-- A field that may be left out is put into the draft if it is there. -/
theorem readMembers_optionalOutline {α β : Type} {name : String} {outline : α → Outline}
    {value : Option α} {kept : α → β} {draft : Draft} (put : Option β → Draft)
    (habsent : put none = draft)
    (hread : ∀ given ∈ value,
      draft.readField name (outline given) = .ok (put (some (kept given)))) :
    draft.readMembers (optionalOutline name outline value) = .ok (put (value.map kept)) := by
  cases value with
  | none => exact congrArg Except.ok habsent.symm
  | some given =>
      rw [optionalOutline, readMembers_singleton]
      exact hread given rfl

/-- A field that is not there yet takes what is read. -/
theorem fill_none {α β : Type} {read : Outline → Except ReadFailure α} {outline : Outline}
    {value : α} (hread : read outline = .ok value) (put : Option α → β) :
    fill none read outline put = .ok (put (some value)) := by
  rw [fill, hread]
  rfl

/-- The draft of a message of which sender, recipients and subject have been read, and of the
optional fields those that are given. -/
def started (message : Message) (copies blindCopies : Option (Option String))
    (headers : Option (Option Headers)) (attachments : Option (Option Value)) : Draft where
  sender := message.sender
  recipients := message.recipients
  subject := message.subject
  copies := copies
  blindCopies := blindCopies
  headers := headers
  attachments := attachments

end Draft

theorem toOptional_toValue_outline {value : Value} (ordered : value.IsOrdered) {room : Nat}
    (hroom : value.depth ≤ room) :
    Outline.toOptional (Outline.toValue room) value.outline = .ok (nonNull? value) := by
  have hread := Value.toValue_outline ordered hroom
  cases value with
  | null => rfl
  | bool _ | number _ | string _ | array _ | object _ => exact congrArg (Except.map some) hread

/-- The outline of a message reads as the settled message. -/
theorem ofOutline_outline (hattachments : ∀ attachments ∈ message.attachments,
      attachments.IsOrdered ∧ attachments.depth ≤ Draft.attachmentRoom) :
    ofOutline message.outline = .ok message.settled := by
  have hrequired : Draft.readMembers {} [(some "from", textOutline message.sender),
      (some "to", textOutline message.recipients),
      (some "subject", textOutline message.subject)] =
      .ok (.started message none none none none) := rfl
  have hcopies : (Draft.started message none none none none).readMembers
      (optionalOutline "cc" textOutline message.copies) =
      .ok (.started message (message.copies.map some) none none none) :=
    Draft.readMembers_optionalOutline (.started message · none none none) rfl fun _ _ => rfl
  have hblindCopies (copies) : (Draft.started message copies none none none).readMembers
      (optionalOutline "bcc" textOutline message.blindCopies) =
      .ok (.started message copies (message.blindCopies.map some) none none) :=
    Draft.readMembers_optionalOutline (.started message copies · none none) rfl fun _ _ => rfl
  have hheaders (copies blindCopies) :
      (Draft.started message copies blindCopies none none).readMembers
        (optionalOutline "headers" Headers.outline message.headers) =
      .ok (.started message copies blindCopies (message.headers.map some) none) := by
    refine Draft.readMembers_optionalOutline (.started message copies blindCopies · none) rfl ?_
    intro headers _
    have hread : Outline.toOptional readHeaders headers.outline = .ok (some headers) :=
      congrArg (Except.map some) (readHeaders_outline headers)
    exact Draft.fill_none hread (Draft.started message copies blindCopies · none)
  have hsettled (copies blindCopies headers) :
      (Draft.started message copies blindCopies headers none).readMembers
        (optionalOutline "attachments" Value.outline message.attachments) =
      .ok (.started message copies blindCopies headers (message.attachments.map nonNull?)) := by
    refine Draft.readMembers_optionalOutline (.started message copies blindCopies headers ·) rfl ?_
    intro attachments hgiven
    obtain ⟨ordered, hdepth⟩ := hattachments attachments hgiven
    exact Draft.fill_none (toOptional_toValue_outline ordered hdepth)
      (Draft.started message copies blindCopies headers ·)
  have hbody (copies blindCopies headers attachments) :
      (Draft.started message copies blindCopies headers attachments).readMembers
        [(some "body", message.body.outline)] =
      .ok { Draft.started message copies blindCopies headers attachments with
        body := some message.body } := by
    rw [Draft.readMembers_singleton]
    exact Draft.fill_none (readBody_outline message.body) fun body =>
      { Draft.started message copies blindCopies headers attachments with body }
  rw [Message.outline, ofOutline]
  simp only [Draft.readMembers_append, hrequired, ok_bind, hcopies, hblindCopies, hheaders,
    hsettled, hbody, Ending.check]
  have hpresent {α : Type} (value : Option α) : (value.map some).join = value := by
    cases value <;> rfl
  have hattached : (message.attachments.map nonNull?).join = message.attachments.bind nonNull? := by
    cases message.attachments <;> rfl
  simp only [Draft.finish, Draft.started, hpresent, hattached, Message.settled]

/-! ## Building a message that was read -/

/-- Attachments that are null are none. -/
theorem build_settled [Mail.InternationalDomains] [Mail.FileTypes]
    (files : FileSystem) (stamp : Mail.Stamp) (message : Message) :
    Mail.build files stamp message.settled = Mail.build files stamp message := by
  have hattachments : Mail.Attachment.readAll (message.attachments.bind nonNull?) =
      Mail.Attachment.readAll message.attachments := by
    rcases message.attachments with _ | value
    · rfl
    · cases value <;> rfl
  have hfields : Mail.messageFields message.settled = Mail.messageFields message := rfl
  have hentries : Mail.headerEntries message.settled = Mail.headerEntries message := rfl
  rw [Mail.build, Mail.build, hfields, hentries, Message.settled, hattachments]

/-- Messages survive their text. When the attachments are exact and nest no deeper than there is
room for, the text reads as the message, but that attachments given as null are no longer there;
and the message and its copy become mails alike: the same failure or the same mail with the same
stamp, and with other stamps mails that differ in their dates and boundaries alone. -/
theorem parse_write_settled [Mail.InternationalDomains] [Mail.FileTypes]
    (hattachments : ∀ attachments ∈ message.attachments,
      attachments.IsOrdered ∧ attachments.IsExact ∧ attachments.depth ≤ 126) :
    parse (String.ofList message.write) = .ok message.settled ∧
      (∀ files stamp, Mail.build files stamp message.settled = Mail.build files stamp message) ∧
      ∀ files stamp stamp' date boundary,
        (Mail.build files stamp' message.settled).map (Mail.restamped date boundary) =
          (Mail.build files stamp message).map (Mail.restamped date boundary) := by
  have spelled := spells_write fun attachments hgiven => (hattachments attachments hgiven).2.1
  have hread := ofOutline_outline fun attachments hgiven =>
    And.imp_right And.right (hattachments attachments hgiven)
  refine ⟨?_, fun files stamp => build_settled files stamp message, ?_⟩
  · rw [parse, readDocument, spelled.document_of, hread]
    rfl
  · intro files stamp stamp' date boundary
    rw [build_settled, Mail.map_restamped_build files stamp' stamp]

/-- The attachments of the leaflet. -/
def enclosures : Value :=
  .array [.object [("content", .string "caf\u00e9"), ("filename", .string "menu.txt")]]

/-- A message with headers out of alphabetical order and characters that are escaped. -/
def leaflet : Message where
  sender := "b@x.com"
  recipients := "a@x.com"
  subject := "\"Menu\"\t\\ today"
  copies := some ""
  blindCopies := none
  headers := some ⟨[("X-Table", "7"), ("X-Area", "terrace")], by decide⟩
  attachments := some enclosures
  body := .html "<p>Soup\n</p>"

theorem enclosures_isOrdered : enclosures.IsOrdered := by
  refine Value.isOrdered_array (List.forall_mem_singleton.2 (Value.isOrdered_object ?_ ?_))
  · decide
  · simp only [List.forall_mem_cons]
    exact ⟨Value.isOrdered_of_depth_eq_zero rfl, Value.isOrdered_of_depth_eq_zero rfl,
      List.forall_mem_nil _⟩

theorem enclosures_isExact : enclosures.IsExact := by
  refine Value.isExact_array (List.forall_mem_singleton.2 (Value.isExact_object ?_))
  simp only [List.forall_mem_cons]
  exact ⟨(fun _ hx => nomatch hx), (fun _ hx => nomatch hx), List.forall_mem_nil _⟩

theorem parse_write_settled_leaflet :
    parse (String.ofList leaflet.write) = .ok leaflet ∧
      parse (String.ofList (Message.write { leaflet with attachments := some .null })) =
        .ok { leaflet with attachments := none } := by
  constructor
  · refine (parse_write_settled ?_).1
    intro attachments hgiven
    cases hgiven
    exact ⟨enclosures_isOrdered, enclosures_isExact, by decide⟩
  · refine (parse_write_settled ?_).1
    intro attachments hgiven
    cases hgiven
    exact ⟨Value.isOrdered_of_depth_eq_zero rfl, (fun _ hx => nomatch hx), by decide⟩

end MailMerge.Message
