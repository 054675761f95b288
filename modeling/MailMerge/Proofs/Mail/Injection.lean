/-
# No injected fields

Whatever addresses, subjects, headers, bodies and attachments hold, the header section
of a composed mail consists of its own fields. Every line of it, joined with those that
continue it, is a name, a colon and a value; each name is that of a field every mail
may have or of a header of the message, no name is given twice in any letter case, and
what stands behind the section is the body of the mail and nothing else.
-/

import MailMerge.Proofs.Mail.BlindCopies
import MailMerge.Proofs.Mail.Unfolding
import MailMerge.Proofs.Message.Canonical

namespace MailMerge.Mail

open MailMerge.Host MailMerge.Json MailMerge.Message MailMerge.Template MailMerge.Text
  MailMerge.Time

/-! ## Well-formed fields -/

/-- A character that may stand in the name of a field: a visible one other than the colon. -/
def isFieldNameChar (c : Char) : Bool :=
  '!' ≤ c && c ≤ '~' && c != ':'

/-- The line of a well-formed field of a name: a colon stands behind the name, and then comes a
value without line breaks. -/
structure IsFieldLine (name : String) (line : List Char) : Prop where
  filled : name ≠ ""
  visible : ∀ c ∈ name.toList, isFieldNameChar c
  line : ∃ value, line = name.toList ++ ':' :: ' ' :: value ∧ Unbroken value

theorem Field.isFieldLine_line {field : Field} (plain : field.IsPlain)
    (visible : ∀ c ∈ field.name.toList, isFieldNameChar c) :
    IsFieldLine field.name field.line := by
  refine ⟨?_, visible, _, rfl, unbroken_unfolded plain.value⟩
  intro hempty
  exact plain.name.filled (String.toList_eq_nil_iff.2 hempty)

/-- A header of a message that becomes a field has a name of visible characters. -/
theorem isFieldNameChar_of_isFieldName {name : String} (valid : isFieldName name)
    (chars : ∀ c ∈ name.toList, isHeaderNameChar c) : ∀ c ∈ name.toList, isFieldNameChar c := by
  have hascii : ∀ code < 128,
      isHeaderNameChar (Char.ofNat code) → isFieldNameChar (Char.ofNat code) := by
    decide +kernel
  intro c hc
  have hsmall : c.toNat < 128 := by
    simp only [isFieldName, Bool.and_eq_true, List.all_eq_true] at valid
    simpa using (valid.2 c hc).1.1
  have hchar := hascii c.toNat hsmall
  rw [Char.ofNat_toNat] at hchar
  exact hchar (chars c hc)

/-! ## Names that differ -/

/-- No two names are the same in any letter case. -/
def NamesDiffer (names : List String) : Prop :=
  names.Pairwise fun first second => sameIgnoringCase first second = false

instance (names : List String) : Decidable (NamesDiffer names) :=
  inferInstanceAs (Decidable (List.Pairwise _ _))

/-- Setting a field gives no name a second field. -/
theorem Fields.namesDiffer_set (field : Field) {fields : Fields}
    (differ : NamesDiffer (fields.map Field.name)) :
    NamesDiffer ((fields.set field).map Field.name) := by
  fun_induction set field fields with
  | case1 => exact List.pairwise_singleton ..
  | case2 f fields same =>
      rw [NamesDiffer, List.map_cons, List.pairwise_cons] at differ ⊢
      refine ⟨fun name hname => ?_, differ.2⟩
      rw [← sameIgnoringCase_congr same]
      exact differ.1 name hname
  | case3 f fields different ih =>
      rw [NamesDiffer, List.map_cons, List.pairwise_cons] at differ ⊢
      refine ⟨fun name hname => ?_, ih differ.2⟩
      obtain ⟨other, hother, rfl⟩ := List.mem_map.1 hname
      rcases Fields.mem_set hother with rfl | hother
      · exact Bool.eq_false_iff.2 different
      · exact differ.1 _ (List.mem_map_of_mem hother)

/-- A message itself gives no name two fields. -/
theorem namesDiffer_messageFields [InternationalDomains] {message : Message} {given : Fields}
    (hgiven : messageFields message = .ok given) : NamesDiffer (given.map Field.name) := by
  have hline (line : AddressLine) (mailboxes : List Mailbox) :
      ((lineField line mailboxes).map Field.name).Sublist [line.fieldName] := by
    rw [lineField]
    split <;> simp
  have hall : NamesDiffer ["From", "Subject", "To", "Cc", "Bcc"] := by decide
  obtain ⟨⟨sender, -, rfl⟩, -⟩ := messageFields_eq_ok hgiven
  apply List.Pairwise.sublist _ hall
  simp only [recipientLines, List.flatMap_cons, List.flatMap_nil, List.append_nil,
    List.map_append]
  exact (List.Sublist.refl _).append
    ((hline .recipients _).append ((hline .copies _).append (hline .blindCopies _)))

theorem namesDiffer_foldl_applyUse (uses : List HeaderUse) {fields : Fields}
    (differ : NamesDiffer (fields.map Field.name)) :
    NamesDiffer ((uses.foldl applyUse fields).map Field.name) := by
  induction uses generalizing fields with
  | nil => exact differ
  | cons use uses ih =>
      apply ih
      cases use with
      | field given => exact Fields.namesDiffer_set given differ
      | skipped => exact differ
      | bodyType mediaType => exact differ
      | dropped => exact differ

theorem namesDiffer_dated (now : Utc) {fields : Fields}
    (differ : NamesDiffer (fields.map Field.name)) :
    NamesDiffer ((dated now fields).map Field.name) := by
  rw [dated]
  split
  · exact differ
  · exact Fields.namesDiffer_set _ differ

/-! ## Names of a mail -/

/-- The names of the fields that a mail may have of its own. -/
def ownNames : List String :=
  ["From", "To", "Subject", "Date", "MIME-Version", "Content-Type", "Content-Transfer-Encoding"]

/-- The names that the header section of the mail of a message may hold: those of the fields that
mails have, that of copies if there are some, and those of the headers of the message in any letter
case. -/
def MayName (message : Message) (name : String) : Prop :=
  name ∈ ownNames ∨ (name = "Cc" ∧ message.copies.isSome) ∨
    ∃ entry ∈ headerEntries message, sameIgnoringCase name entry.1

/-- A field that a message itself gives is its subject or that of an address list it has. -/
theorem name_of_mem_messageFields [InternationalDomains] {message : Message} {given : Fields}
    (hgiven : messageFields message = .ok given) {field : Field} (hfield : field ∈ given) :
    field.name = "Subject" ∨
      ∃ line : AddressLine, field.name = line.fieldName ∧ (line.text? message).isSome := by
  obtain ⟨⟨sender, -, rfl⟩, -⟩ := messageFields_eq_ok hgiven
  rcases List.mem_append.1 hfield with hfield | hfield
  · rcases List.mem_pair.1 hfield with rfl | rfl
    · exact .inr ⟨.sender, rfl, rfl⟩
    · exact .inl rfl
  · obtain ⟨line, -, hfield⟩ := List.mem_flatMap.1 hfield
    rw [lineField] at hfield
    split at hfield
    · cases hfield
    · next hfilled =>
      rw [List.mem_singleton.1 hfield]
      refine .inr ⟨line, rfl, ?_⟩
      cases htext : line.text? message with
      | none => simp [AddressLine.mailboxes, htext] at hfilled
      | some text => rfl

namespace BuiltFrom

variable [InternationalDomains] [FileTypes] {files : FileSystem} {stamp : Stamp}
  {message : Message} {given : Fields} {uses : List HeaderUse} {mail : Mail}

/-- Where the name of a field of a mail comes from. -/
theorem name_cases (built : BuiltFrom files stamp message given uses mail) {field : Field}
    (hfield : field ∈ mail.fields ++ mail.bodyFields) :
    field.name ∈ ownNames ∨ (field.name = "Cc" ∧ message.copies.isSome) ∨
      ∃ entry ∈ headerEntries message, field.name = entry.1 ∧ isFieldName entry.1 := by
  have hevery : ∀ name ∈ ["MIME-Version", "Date"], name ∈ ownNames := by decide
  have hbody : ∀ name ∈ ["Content-Type", "Content-Transfer-Encoding"], name ∈ ownNames := by
    decide
  rcases List.mem_append.1 hfield with hfield | hfield
  · have hblind : sameIgnoringCase field.name "Bcc" = false := by
      rw [built.fields] at hfield
      simpa using (List.mem_filter.1 hfield).2
    rcases built.mem_fields hfield with hfield | ⟨entry, hentry, hused⟩ | ⟨name, hname, text, rfl⟩
    · rcases name_of_mem_messageFields built.fieldsGiven hfield with hname | ⟨line, hname, hline⟩
      · exact .inl (by rw [hname]; decide)
      · rw [hname] at hblind ⊢
        cases line with
        | sender => exact .inl (by decide)
        | recipients => exact .inl (by decide)
        | copies => exact .inr (.inl ⟨rfl, hline⟩)
        | blindCopies => exact absurd hblind (by decide)
    · obtain ⟨rfl, valid, -⟩ := useHeader_eq_field hused
      exact .inr (.inr ⟨entry, hentry, rfl, valid⟩)
    · exact .inl (hevery name hname)
  · obtain ⟨name, hname, text, rfl⟩ := exists_eq_of_mem_bodyFields hfield
    exact .inl (hbody name hname)

theorem mayName (built : BuiltFrom files stamp message given uses mail) {field : Field}
    (hfield : field ∈ mail.fields ++ mail.bodyFields) : MayName message field.name := by
  rcases built.name_cases hfield with hname | hname | ⟨entry, hentry, hname, -⟩
  · exact .inl hname
  · exact .inr (.inl hname)
  · exact .inr (.inr ⟨entry, hentry, by rw [hname, sameIgnoringCase_iff]⟩)

/-- The names of the fields of a mail are visible when the headers of its message are named like
headers. -/
theorem isFieldNameChar_name (built : BuiltFrom files stamp message given uses mail)
    (named : ∀ entry ∈ headerEntries message, ∀ c ∈ entry.1.toList, isHeaderNameChar c)
    {field : Field} (hfield : field ∈ mail.fields ++ mail.bodyFields) :
    ∀ c ∈ field.name.toList, isFieldNameChar c := by
  have checked : ("Cc" :: ownNames).all (fun name => name.toList.all isFieldNameChar) = true := by
    decide +kernel
  have hown (name : String) (hname : name ∈ "Cc" :: ownNames) :
      ∀ c ∈ name.toList, isFieldNameChar c :=
    List.all_eq_true.1 (List.all_eq_true.1 checked name hname)
  rcases built.name_cases hfield with hname | ⟨hname, -⟩ | ⟨entry, hentry, hname, valid⟩
  · exact hown _ (List.mem_cons_of_mem _ hname)
  · exact hown _ (by rw [hname]; exact List.mem_cons_self ..)
  · rw [hname]
    exact isFieldNameChar_of_isFieldName valid (named entry hentry)

/-- The names of the fields of the body are left to it. -/
theorem different_bodyName (built : BuiltFrom files stamp message given uses mail)
    {field : Field} (hfield : field ∈ mail.fields) {name : String}
    (hname : name ∈ ["Content-Type", "Content-Transfer-Encoding"]) :
    sameIgnoringCase field.name name = false := by
  have hown : ∀ own ∈ ["Subject", "MIME-Version", "Date"],
      ∀ name ∈ ["Content-Type", "Content-Transfer-Encoding"],
        sameIgnoringCase own name = false := by
    decide
  have hline (line : AddressLine) : ∀ name ∈ ["Content-Type", "Content-Transfer-Encoding"],
      sameIgnoringCase line.fieldName name = false := by
    cases line <;> decide
  have hfree : ∀ name ∈ ["Content-Type", "Content-Transfer-Encoding"],
      name ∈ "Content-Type" :: ownFieldNames := by
    decide
  rcases built.mem_fields hfield with hfield | ⟨entry, -, hused⟩ | ⟨own, hmem, text, rfl⟩
  · rcases name_of_mem_messageFields built.fieldsGiven hfield with heq | ⟨line, heq, -⟩
    · rw [heq]
      exact hown "Subject" (by simp) name hname
    · rw [heq]
      exact hline line name hname
  · obtain ⟨rfl, -, free⟩ := useHeader_eq_field hused
    exact free name (hfree name hname)
  · exact hown own (List.mem_cons_of_mem _ hmem) name hname

/-- No two fields of the header section of a mail have the same name. -/
theorem namesDiffer (built : BuiltFrom files stamp message given uses mail) :
    NamesDiffer ((mail.fields ++ mail.bodyFields).map Field.name) := by
  have hbody : NamesDiffer (mail.bodyFields.map Field.name) := by
    have hboth : NamesDiffer ["Content-Type", "Content-Transfer-Encoding"] := by decide
    rw [bodyFields]
    split
    · exact hboth
    · exact List.pairwise_singleton ..
  have hfields : NamesDiffer (mail.fields.map Field.name) := by
    rw [built.fields]
    apply List.Pairwise.sublist (List.filter_sublist.map Field.name)
    apply namesDiffer_dated
    apply Fields.namesDiffer_set
    exact namesDiffer_foldl_applyUse uses (namesDiffer_messageFields built.fieldsGiven)
  rw [NamesDiffer, List.map_append, List.pairwise_append]
  refine ⟨hfields, hbody, ?_⟩
  intro name hname other hother
  obtain ⟨field, hfield, rfl⟩ := List.mem_map.1 hname
  obtain ⟨otherField, hotherField, rfl⟩ := List.mem_map.1 hother
  obtain ⟨own, hown, text, rfl⟩ := exists_eq_of_mem_bodyFields hotherField
  exact built.different_bodyName hfield hown

end BuiltFrom

/-! ## Composed mails -/

/-- The headers of a composed message are named like headers. -/
theorem isHeaderNameChar_of_compose {markup : Markup} {text : String} {values : Option Values}
    {message : Message} (composed : compose markup text values = .ok message) :
    ∀ entry ∈ headerEntries message, ∀ c ∈ entry.1.toList, isHeaderNameChar c := by
  obtain ⟨-, made⟩ := assemble_eq_ok_iff.1 composed
  intro entry hentry
  rw [made.headerEntries_eq] at hentry
  have proper := Headers.isHeader_of_mem_ofBlock
    (fun hmem => return_not_mem_render markup text values ((divide_subset _).1 hmem)) entry
    (List.mem_filter.1 hentry).1
  exact proper.nameChars

/-- No template and no values inject a field: the header section of the mail of a composed message
ends where the body of the mail begins, and each of its lines, joined with those that continue it,
is a well-formed field. Its name is that of a field of every mail, that of copies if there are some
or that of a header of the message, and no other line has that name in any letter case. -/
theorem build_fieldLines [InternationalDomains] [FileTypes]
    {markup : Markup} {text : String} {values : Option Values}
    {message : Message} {files : FileSystem} {stamp : Stamp} {mail : Mail}
    (composed : compose markup text values = .ok message)
    (built : build files stamp message = .ok mail) :
    ∃ header names, splitHeaderSection mail.wire = some (header, mail.bodyText) ∧
      List.Forall₂ IsFieldLine names (fieldLines header) ∧
      (∀ name ∈ names, MayName message name) ∧ NamesDiffer names := by
  obtain ⟨given, uses, origin⟩ := exists_builtFrom built
  have named := isHeaderNameChar_of_compose composed
  have plain : ∀ field ∈ mail.fields ++ mail.bodyFields, field.IsPlain :=
    List.forall_mem_append.2 ⟨origin.isPlain named, isPlain_bodyFields mail⟩
  have nonempty : mail.fields ++ mail.bodyFields ≠ [] := by
    rw [bodyFields]
    split <;> simp
  refine ⟨Fields.folded (mail.fields ++ mail.bodyFields),
    (mail.fields ++ mail.bodyFields).map Field.name, ?_, ?_, ?_, origin.namesDiffer⟩
  · rw [wire_eq (by rw [origin.body])]
    exact Fields.splitHeaderSection_write nonempty plain mail.bodyText
  · rw [Fields.fieldLines_folded nonempty plain, List.forall₂_map_left_iff,
      List.forall₂_map_right_iff, List.forall₂_same]
    exact fun field hfield => field.isFieldLine_line (plain field hfield)
      (origin.isFieldNameChar_name named hfield)
  · intro name hname
    obtain ⟨field, hfield, rfl⟩ := List.mem_map.1 hname
    exact origin.mayName hfield

/-- A template whose places are filled with fields in disguise. -/
def forgedTemplate : String :=
  "To: {{to}}\nFrom: b@x.com\nSubject: {{s}}\ndate: {{s}}\n\n{{b}}"

/-- Values that hold line breaks and names of fields. -/
def forgedValues : Values :=
  ⟨[("attachments", .array [.object [("content", .string ""),
        ("filename", .string "\"\r\nBcc: c@x.com")]]),
    ("b", .string "hello\r\n\r\nBcc: c@x.com"), ("s", .string "ß\x0b Bcc: c@x.com"),
    ("to", .string "\"Bcc: c@x.com\" <a@x.com>")]⟩

theorem build_fieldLines_forged :
    ∃ message mail header names,
      compose .placeholder forgedTemplate (some forgedValues) = .ok message ∧
      build bareFiles newYear message = .ok mail ∧
      splitHeaderSection mail.wire = some (header, mail.bodyText) ∧
      List.Forall₂ IsFieldLine names (fieldLines header) ∧
      (∀ name ∈ names, MayName message name) ∧ NamesDiffer names := by
  have accepted : (compose .placeholder forgedTemplate (some forgedValues)).toOption.any
      (fun message => (build bareFiles newYear message).isOk) = true := by
    decide +kernel
  cases hcompose : compose .placeholder forgedTemplate (some forgedValues) with
  | error rejection =>
      rw [hcompose] at accepted
      cases accepted
  | ok message =>
      cases hbuild : build bareFiles newYear message with
      | error failure =>
          rw [hcompose, Except.toOption, Option.any_some, hbuild] at accepted
          cases accepted
      | ok mail =>
          obtain ⟨header, names, hsplit, hlines, hnames, hdiffer⟩ :=
            build_fieldLines hcompose hbuild
          exact ⟨message, mail, header, names, rfl, hbuild, hsplit, hlines, hnames, hdiffer⟩

end MailMerge.Mail
