/-
# Composing a message again

A composed message can be written as a template: one line for each of its fields
and headers, an empty line and the body. The main statement says that composing this
template without values gives the message back, with nothing but its attachments
lost. It rests on two facts about composition: a message holds exactly the headers
of its header block, each once, and none of them reaches over the end of its line.
-/

import MailMerge.Mail.Build
import MailMerge.Message.Composition
import MailMerge.Proofs.Message.Headers
import MailMerge.Proofs.Stage

namespace MailMerge

open MailMerge.Mail MailMerge.Message MailMerge.Template MailMerge.Text

/-- The fields of a message as headers, without those it lacks. -/
def Message.fieldEntries (message : Message) : List (String × String) :=
  [("To", message.recipients), ("From", message.sender), ("Subject", message.subject)] ++
    (message.copies.map ("Cc", ·)).toList ++ (message.blindCopies.map ("Bcc", ·)).toList

/-- The fields of a message, then its own headers. -/
def Message.canonicalEntries (message : Message) : List (String × String) :=
  message.fieldEntries ++ headerEntries message

/-- One line for each field and header of a message. -/
def Message.canonicalBlock (message : Message) : List Char :=
  joinWith ['\n'] (message.canonicalEntries.map writeHeader)

/-- A template that gives the message without any values. -/
def Message.canonicalText (message : Message) : String :=
  String.ofList (message.canonicalBlock ++ '\n' :: '\n' :: message.body.content.toList)

end MailMerge

namespace MailMerge.Message

open MailMerge.Mail MailMerge.Stage MailMerge.Template MailMerge.Text

/-! ## What assembling makes of a block and a body -/

/-- The message that a header block, a body and the values give. -/
structure AssembledFrom (message : Message) (headers : Headers) (body : List Char)
    (values : Option Values) : Prop where
  recipients : headers.filled? "To" = some message.recipients
  sender : headers.filled? "From" = some message.sender
  subject : headers.filled? "Subject" = some message.subject
  copies : headers.filled? "Cc" = message.copies
  blindCopies : headers.filled? "Bcc" = message.blindCopies
  headers : headers.without? headers.promoted = message.headers
  attachments : values.bind Values.attachments? = message.attachments
  body : Body.sniff (String.ofList body) = message.body

/-- A required header is there exactly when it is filled. -/
theorem Headers.require_eq_ok_iff {headers : Headers} {required : RequiredHeader}
    {value : String} :
    headers.require required = .ok value ↔ headers.filled? required.name = some value := by
  unfold Headers.require
  cases headers.filled? required.name <;> simp

/-- Assembling succeeds exactly on a body that holds something and headers that give a message. -/
theorem assemble_eq_ok_iff {rendered : String} {values : Option Values} {message : Message} :
    assemble rendered values = .ok message ↔
      isAllBlank (divide rendered.toList).2 = false ∧
      AssembledFrom message (Headers.ofBlock (divide rendered.toList).1)
        (divide rendered.toList).2 values := by
  rw [assemble]
  obtain ⟨block, body⟩ := divide rendered.toList
  cases hblank : isAllBlank body with
  | true => simp [hblank]
  | false =>
      simp only [hblank, Bool.false_eq_true, ↓reduceIte, bind_eq_ok_iff,
        Headers.require_eq_ok_iff, true_and]
      constructor
      · rintro ⟨recipients, hrecipients, sender, hsender, subject, hsubject, hmessage⟩
        cases hmessage
        exact ⟨hrecipients, hsender, hsubject, rfl, rfl, rfl, rfl, rfl⟩
      · intro made
        refine ⟨_, made.recipients, _, made.sender, _, made.subject, ?_⟩
        rw [made.copies, made.blindCopies, made.headers, made.attachments, made.body]
        rfl

/-- The headers left over are the ones outside the excluded names. -/
theorem Headers.entries_without? (headers : Headers) (excluded : List String) :
    ((headers.without? excluded).map Headers.entries).getD [] = headers.others excluded := by
  unfold Headers.without?
  split
  · next hempty => exact (List.isEmpty_iff.1 hempty).symm
  · rfl

/-- Headers are left out rather than left empty. -/
theorem Headers.entries_ne_nil_of_without? {headers rest : Headers} {excluded : List String}
    (hrest : headers.without? excluded = some rest) : rest.entries ≠ [] := by
  unfold Headers.without? at hrest
  split at hrest
  · cases hrest
  · next hfilled =>
    cases hrest
    simpa using hfilled

theorem Body.content_sniff (content : String) : (Body.sniff content).content = content := by
  unfold Body.sniff
  split <;> rfl

namespace AssembledFrom

variable {message : Message} {headers : Headers} {body : List Char} {values : Option Values}

theorem headerEntries_eq (made : AssembledFrom message headers body values) :
    headerEntries message = headers.others headers.promoted := by
  rw [headerEntries, ← made.headers, Headers.entries_without?]

/-- The fields of the message are the promoted headers. -/
theorem map_fst_fieldEntries (made : AssembledFrom message headers body values) :
    message.fieldEntries.map Prod.fst = headers.promoted := by
  rw [Message.fieldEntries, Headers.promoted, ← made.copies, ← made.blindCopies]
  cases hcopies : headers.filled? "Cc" <;> cases hblind : headers.filled? "Bcc" <;>
    simp [promotedNames, made.recipients, made.sender, made.subject, hcopies, hblind]

/-- A name is a field or a header of the message, not both. -/
theorem nodup_canonicalEntries (made : AssembledFrom message headers body values) :
    (message.canonicalEntries.map Prod.fst).Nodup := by
  have hpromoted : headers.promoted.Nodup :=
    List.Nodup.sublist List.filter_sublist (by decide : promotedNames.Nodup)
  have hothers : ((headers.others headers.promoted).map Prod.fst).Nodup :=
    headers.distinct.sublist (List.filter_sublist.map Prod.fst)
  rw [Message.canonicalEntries, List.map_append, made.map_fst_fieldEntries,
    made.headerEntries_eq, List.nodup_append]
  refine ⟨hpromoted, hothers, ?_⟩
  rintro name hname _ hother rfl
  obtain ⟨entry, hentry, rfl⟩ := List.mem_map.1 hother
  have hexcluded := (List.mem_filter.1 hentry).2
  simp [hname] at hexcluded

/-- The fields are the promoted names with what fills them. -/
theorem mem_fieldEntries_iff (made : AssembledFrom message headers body values)
    {name value : String} :
    (name, value) ∈ message.fieldEntries ↔
      name ∈ promotedNames ∧ headers.filled? name = some value := by
  constructor
  · simp only [Message.fieldEntries, List.mem_append, List.mem_cons, List.not_mem_nil, or_false,
      Option.mem_toList, Option.map_eq_some_iff, Prod.mk.injEq]
    rintro (((⟨rfl, rfl⟩ | ⟨rfl, rfl⟩ | ⟨rfl, rfl⟩) | ⟨_, hvalue, rfl, rfl⟩) |
      ⟨_, hvalue, rfl, rfl⟩)
    · exact ⟨by decide, made.recipients⟩
    · exact ⟨by decide, made.sender⟩
    · exact ⟨by decide, made.subject⟩
    · exact ⟨by decide, made.copies.trans hvalue⟩
    · exact ⟨by decide, made.blindCopies.trans hvalue⟩
  · rintro ⟨hname, hvalue⟩
    simp only [promotedNames, List.mem_cons, List.not_mem_nil, or_false] at hname
    rw [Message.fieldEntries]
    rcases hname with rfl | rfl | rfl | rfl | rfl
    · simp [Option.some.inj (made.recipients.symm.trans hvalue)]
    · simp [Option.some.inj (made.sender.symm.trans hvalue)]
    · simp [Option.some.inj (made.subject.symm.trans hvalue)]
    · simp [made.copies.symm.trans hvalue]
    · simp [made.blindCopies.symm.trans hvalue]

/-- The message holds the headers of the block, and no others. -/
theorem mem_canonicalEntries_iff (made : AssembledFrom message headers body values)
    {entry : String × String} :
    entry ∈ message.canonicalEntries ↔ entry ∈ headers.entries := by
  obtain ⟨name, value⟩ := entry
  rw [Message.canonicalEntries, List.mem_append, made.mem_fieldEntries_iff, made.headerEntries_eq]
  constructor
  · rintro (⟨-, hvalue⟩ | hother)
    · exact (Headers.filled?_eq_some_iff.1 hvalue).1
    · exact (List.mem_filter.1 hother).1
  · intro hentry
    by_cases hpromoted : name ∈ headers.promoted
    · -- A promoted name is filled, and it holds one value only.
      obtain ⟨hname, hfilled⟩ := List.mem_filter.1 hpromoted
      obtain ⟨other, hother⟩ := Option.isSome_iff_exists.1 hfilled
      have hheld := Headers.get?_eq_some_iff.2 (Headers.filled?_eq_some_iff.1 hother).1
      have hsame : other = value :=
        Option.some.inj (hheld.symm.trans (Headers.get?_eq_some_iff.2 hentry))
      exact .inl ⟨hname, hsame ▸ hother⟩
    · exact .inr (List.mem_filter.2 ⟨hentry, by simpa using hpromoted⟩)

/-- Set one after the other, the canonical entries fill the same names. -/
theorem filled?_ofList (made : AssembledFrom message headers body values) (name : String) :
    (Headers.ofList message.canonicalEntries).filled? name = headers.filled? name := by
  apply Option.ext
  intro value
  rw [Headers.filled?_eq_some_iff, Headers.filled?_eq_some_iff,
    Headers.entries_ofList made.nodup_canonicalEntries, made.mem_canonicalEntries_iff]

/-- Without the promoted names, the canonical entries are the headers of the message. -/
theorem others_ofList (made : AssembledFrom message headers body values) :
    (Headers.ofList message.canonicalEntries).others headers.promoted =
      headers.others headers.promoted := by
  have hfields : message.fieldEntries.filter
      (fun entry => !headers.promoted.contains entry.1) = [] := by
    rw [List.filter_eq_nil_iff]
    intro entry hentry
    have hname : entry.1 ∈ headers.promoted :=
      made.map_fst_fieldEntries ▸ List.mem_map_of_mem hentry
    simpa using hname
  rw [Headers.others, Headers.entries_ofList made.nodup_canonicalEntries,
    Message.canonicalEntries, List.filter_append, hfields, List.nil_append,
    made.headerEntries_eq, Headers.others, List.filter_filter]
  simp only [Bool.and_self]

/-- Assembling the canonical entries and the same body gives the message without attachments. -/
theorem ofList_canonicalEntries (made : AssembledFrom message headers body values) :
    AssembledFrom { message with attachments := none }
      (Headers.ofList message.canonicalEntries) body none := by
  have hpromoted : (Headers.ofList message.canonicalEntries).promoted = headers.promoted := by
    simp only [Headers.promoted, made.filled?_ofList]
  constructor
  · exact (made.filled?_ofList "To").trans made.recipients
  · exact (made.filled?_ofList "From").trans made.sender
  · exact (made.filled?_ofList "Subject").trans made.subject
  · exact (made.filled?_ofList "Cc").trans made.copies
  · exact (made.filled?_ofList "Bcc").trans made.blindCopies
  · rw [hpromoted, ← made.headers]
    simp only [Headers.without?, made.others_ofList]
  · rfl
  · exact made.body

end AssembledFrom

/-! ## The canonical text -/

theorem divide_subset (rendered : List Char) :
    (divide rendered).1 ⊆ rendered ∧ (divide rendered).2 ⊆ rendered := by
  unfold divide
  cases hsplit : splitAtEmptyLine rendered with
  | none => simp
  | some sides =>
      rw [eq_append_of_splitAtEmptyLine hsplit]
      refine ⟨List.subset_append_left .., List.Subset.trans ?_ (List.subset_append_right ..)⟩
      exact fun c hc => List.mem_cons_of_mem _ (List.mem_cons_of_mem _ hc)

/-- A rendered template has no carriage return. -/
theorem return_not_mem_render (markup : Markup) (text : String) (values : Option Values) :
    '\r' ∉ (render markup text values).toList := by
  cases values <;> simp [render, normalizeLineEndings, return_not_mem_unifyLineEndings]

theorem render_of_not_mem {markup : Markup} {text : String} (plain : '\r' ∉ text.toList) :
    render markup text none = text := by
  rw [render, normalizeLineEndings, unifyLineEndings_eq_self plain, String.ofList_toList]

/-- What assembling a text without carriage returns gives, assembling its canonical text gives
again. -/
theorem assemble_canonicalText {rendered : String} {values : Option Values} {message : Message}
    (plain : '\r' ∉ rendered.toList) (accepted : assemble rendered values = .ok message) :
    '\r' ∉ message.canonicalText.toList ∧
      (∀ entry ∈ message.canonicalEntries, IsHeader entry) ∧
      assemble message.canonicalText none = .ok { message with attachments := none } := by
  obtain ⟨hfilled, made⟩ := assemble_eq_ok_iff.1 accepted
  have hbody : message.body.content.toList = (divide rendered.toList).2 := by
    rw [← made.body, Body.content_sniff, String.toList_ofList]
  have proper : ∀ entry ∈ message.canonicalEntries, IsHeader entry := fun entry hentry =>
    Headers.isHeader_of_mem_ofBlock (fun hmem => plain ((divide_subset _).1 hmem)) entry
      (made.mem_canonicalEntries_iff.1 hentry)
  have hrows := forall_mem_map_writeHeader proper
  have nonempty : message.canonicalEntries ≠ [] := by
    simp [Message.canonicalEntries, Message.fieldEntries]
  have htext : message.canonicalText.toList =
      message.canonicalBlock ++ '\n' :: '\n' :: (divide rendered.toList).2 := by
    rw [Message.canonicalText, String.toList_ofList, hbody]
  have hdivide : divide message.canonicalText.toList =
      (message.canonicalBlock, (divide rendered.toList).2) := by
    have hsplit := splitAtEmptyLine_joinWith (by simpa using nonempty)
      (fun row hrow => (hrows row hrow).1) (fun row hrow => (hrows row hrow).2.2)
      (divide rendered.toList).2
    rw [htext, divide, Message.canonicalBlock, hsplit, Option.getD_some]
  refine ⟨?_, proper, ?_⟩
  · have hblock : '\r' ∉ message.canonicalBlock := fun hmem => by
      rcases mem_of_mem_joinWith hmem with hmem | ⟨row, hrow, hmem⟩
      · exact absurd hmem (by decide)
      · exact (hrows row hrow).2.1 hmem
    have hrest : '\r' ∉ (divide rendered.toList).2 := fun hmem =>
      plain ((divide_subset _).2 hmem)
    rw [htext]
    simp [hblock, hrest]
  · rw [assemble_eq_ok_iff, hdivide]
    refine ⟨hfilled, ?_⟩
    rw [Message.canonicalBlock, Headers.ofBlock_writeHeader nonempty proper]
    exact made.ofList_canonicalEntries

/-- Composing is undone by writing the canonical text: no field or header of a composed message
reaches over the end of its line, and its canonical text composes, with either markup and without
values, to the message without its attachments. -/
theorem compose_canonicalText {markup other : Markup} {text : String} {values : Option Values}
    {message : Message} (accepted : compose markup text values = .ok message) :
    (∀ entry ∈ message.canonicalEntries, OneLine entry.1 ∧ OneLine entry.2) ∧
      (∀ headers, message.headers = some headers →
        headers.entries ≠ [] ∧ (headers.entries.map Prod.fst).Nodup) ∧
      compose other message.canonicalText none = .ok { message with attachments := none } := by
  have plain := return_not_mem_render markup text values
  obtain ⟨hplain, proper, hassemble⟩ := assemble_canonicalText plain accepted
  refine ⟨fun entry hentry => ⟨(proper entry hentry).oneLine_name, (proper entry hentry).oneLine⟩,
    fun headers hheaders => ⟨?_, headers.distinct⟩, ?_⟩
  · have made := (assemble_eq_ok_iff.1 accepted).2
    exact Headers.entries_ne_nil_of_without? (made.headers.trans hheaders)
  · rw [compose, render_of_not_mem hplain]
    exact hassemble

/-- A template with an unfilled header, a value of two lines and a second empty line. -/
def invitationTemplate : String :=
  "To: {{to}}\nFrom: b@x.com\nSubject: Hi\nCc:\n{{tags}}\n\n\n<p>{{who}}</p>"

/-- Values for the invitation; one of them brings a line break and a second header along. -/
def invitationValues : Values :=
  ⟨[("attachments", .array []), ("tags", .string "X-Tag: a\r\nX-More: b"),
    ("to", .string "a@x.com"), ("who", .string "Ada")]⟩

/-- The message of the invitation. -/
def invitation : Message where
  sender := "b@x.com"
  recipients := "a@x.com"
  subject := "Hi"
  copies := none
  blindCopies := none
  headers := some ⟨[("Cc", ""), ("X-Tag", "a"), ("X-More", "b")], by decide⟩
  attachments := some (.array [])
  body := .html "\n<p>Ada</p>"

theorem compose_canonicalText_invitation :
    compose .placeholder invitationTemplate (some invitationValues) = .ok invitation ∧
      compose .bracket invitation.canonicalText none =
        .ok { invitation with attachments := none } := by
  have hrender : render .placeholder invitationTemplate (some invitationValues) =
      "To: a@x.com\nFrom: b@x.com\nSubject: Hi\nCc:\nX-Tag: a\nX-More: b\n\n\n<p>Ada</p>" := by
    decide +kernel
  have accepted :
      compose .placeholder invitationTemplate (some invitationValues) = .ok invitation := by
    rw [compose, hrender]
    rfl
  exact ⟨accepted, (compose_canonicalText accepted).2.2⟩

end MailMerge.Message
