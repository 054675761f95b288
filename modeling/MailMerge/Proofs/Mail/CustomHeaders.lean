/-
# Headers in the mail

Which headers of a message are fields of its mail. Two headers whose names differ in letter case
alone share one field, which has the name and the value of the later one, and a date that is none
gives way to the date of the mail. A header that keeps its field is read there with its value just
when this value is legible.
-/

import Mathlib.Data.List.Nodup
import MailMerge.Proofs.Mail.Injection
import MailMerge.Proofs.Mail.Legibility
import MailMerge.Proofs.Text.Numeral

namespace MailMerge.Mail

open MailMerge.Host MailMerge.Json MailMerge.Message MailMerge.Template MailMerge.Text
  MailMerge.Time

/-! ## Fields -/

namespace Fields

variable {name : String} {fields : Fields}

theorem field?_congr {other : String} (same : sameIgnoringCase name other) (fields : Fields) :
    fields.field? name = fields.field? other := by
  rw [field?, field?]
  congr 1
  funext field
  rw [sameIgnoringCase_comm, sameIgnoringCase_congr same, sameIgnoringCase_comm]

/-- A field whose name differs from that of all others is the field of its name. -/
theorem field?_eq_some_of_mem (differ : NamesDiffer (fields.map Field.name)) {field : Field}
    (hfield : field ∈ fields) : fields.field? field.name = some field := by
  induction fields with
  | nil => cases hfield
  | cons f fields ih =>
      rw [NamesDiffer, List.map_cons, List.pairwise_cons] at differ
      rcases List.mem_cons.1 hfield with rfl | hfield
      · exact List.find?_cons_of_pos (sameIgnoringCase_iff.2 rfl)
      · have hdiffer := differ.1 field.name (List.mem_map_of_mem hfield)
        rw [field?, List.find?_cons_of_neg (by simp [hdiffer])]
        exact ih differ.2 hfield

/-- A line with a name is that of the field of this name, spelled like it. -/
theorem mem_map_line_iff (plain : ∀ field ∈ fields, field.IsPlain)
    (differ : NamesDiffer (fields.map Field.name)) (named : ':' ∉ name.toList)
    (shown : List Char) :
    name.toList ++ ':' :: ' ' :: shown ∈ fields.map Field.line ↔
      ∃ field, fields.field? name = some field ∧ field.name = name ∧
        unfolded field.writtenValue = shown := by
  have hbefore {name rest : List Char} (named : ':' ∉ name) :
      (name ++ ':' :: rest).takeWhile (· != ':') = name := by
    rw [List.takeWhile_append_of_pos, List.takeWhile_cons_of_neg (by decide), List.append_nil]
    exact fun c hc => bne_iff_ne.2 fun heq => named (heq ▸ hc)
  constructor
  · intro hline
    obtain ⟨field, hfield, heq⟩ := List.mem_map.1 hline
    have hplain : ':' ∉ field.name.toList := fun hmem =>
      absurd ((plain field hfield).name.chars ':' hmem) (by decide)
    have hname : field.name = name := by
      apply String.toList_injective
      rw [← hbefore hplain, ← hbefore named, ← heq, Field.line]
    refine ⟨field, hname ▸ field?_eq_some_of_mem differ hfield, hname, ?_⟩
    rw [Field.line, hname] at heq
    simpa using heq
  · rintro ⟨field, hfield, rfl, rfl⟩
    exact List.mem_map_of_mem (List.mem_of_find?_eq_some hfield)

end Fields

/-! ## Dates -/

theorem field?_dated {name : String} (now : Utc) (fields : Fields) :
    (dated now fields).field? name =
      if sameIgnoringCase "Date" name ∧ ¬ ((fields.shown? "Date").map isMailDate).getD false then
        some (.ofText "Date" now.mailDate.toList)
      else fields.field? name := by
  rw [dated]
  by_cases hdate : ((fields.shown? "Date").map isMailDate).getD false
  · rw [if_pos hdate, if_neg fun replaced => replaced.2 hdate]
  · rw [if_neg hdate, Fields.field?_set]
    congr 1
    simp [Field.ofText, hdate]

/-- The date of a mail is written in letters, digits, spaces and a few marks. -/
theorem all_isUnmarked_mailDate (now : Utc) : now.mailDate.toList.all isUnmarked := by
  have hdigits (width n : Nat) : (paddedDigits width n).all isUnmarked := by
    have hchars : ∀ code < 58, isAsciiDigit (Char.ofNat code) → isUnmarked (Char.ofNat code) := by
      decide
    refine List.all_eq_true.2 fun c hc => ?_
    have hdigit := isAsciiDigit_of_mem_paddedDigits hc
    have hsmall : c.toNat < 58 := by
      rw [isAsciiDigit, Bool.and_eq_true, decide_eq_true_eq, decide_eq_true_eq] at hdigit
      exact Nat.lt_succ_of_le hdigit.2
    have hchar := hchars c.toNat hsmall
    rw [Char.ofNat_toNat] at hchar
    exact hchar hdigit
  have hname {names : List String} (unmarked : names.all (·.toList.all isUnmarked))
      (index : Nat) : (names.getD index "").toList.all isUnmarked := by
    rw [List.getD_eq_getElem?_getD]
    cases hindex : names[index]? with
    | none => rfl
    | some name => exact List.all_eq_true.1 unmarked name (List.mem_of_getElem? hindex)
  have hweekdays : weekdayNames.all (·.toList.all isUnmarked) := by decide
  have hmonths : monthNames.all (·.toList.all isUnmarked) := by decide
  have hzone : " +0000".toList.all isUnmarked := by decide
  unfold Utc.mailDate
  simp only [String.toList_ofList, List.all_append, List.all_cons, List.all_nil, hdigits,
    hname hweekdays, hname hmonths, hzone, Bool.and_true, Bool.true_and]
  decide

/-! ## Headers -/

/-- The name and the text of the field that a header of a name gives a mail: the last one of that
name decides, unless it is a date and none that is understood. -/
def writtenHeader? (now : Utc) (entries : List (String × String)) (name : String) :
    Option (String × String) :=
  (headerFor? entries name).map fun entry =>
    if sameIgnoringCase "Date" name ∧ ¬ isMailDate entry.2.toList then ("Date", now.mailDate)
    else entry

/-- A filled header has a field of its name. -/
theorem exists_writtenHeader? (now : Utc) {entries : List (String × String)} {name value : String}
    (hentry : (name, value) ∈ entries) (filled : value ≠ "") :
    ∃ written, writtenHeader? now entries name = some written := by
  have hfilled : value.isEmpty = false := by simpa using filled
  rw [← Option.isSome_iff_exists, writtenHeader?, Option.isSome_map, headerFor?,
    List.getLast?_isSome]
  exact List.ne_nil_of_mem (List.mem_filter.2
    ⟨hentry, by rw [hfilled, sameIgnoringCase_iff.2 rfl]; rfl⟩)

/-- The field of a name is written from a header or with the date of the mail. -/
theorem writtenHeader?_cases {now : Utc} {entries : List (String × String)} {name : String}
    {written : String × String} (hwritten : writtenHeader? now entries name = some written) :
    written ∈ entries ∨ written = ("Date", now.mailDate) := by
  obtain ⟨entry, hentry, rfl⟩ := Option.map_eq_some_iff.1 hwritten
  split
  · exact .inr rfl
  · exact .inl (List.mem_filter.1 (List.mem_of_getLast? hentry)).1

/-- Headers of one name have one value. -/
theorem eq_of_mem_headerEntries {message : Message} {first second : String × String}
    (hfirst : first ∈ headerEntries message) (hsecond : second ∈ headerEntries message)
    (same : first.1 = second.1) : first = second := by
  rw [headerEntries] at hfirst hsecond
  cases hheaders : message.headers with
  | none =>
      rw [hheaders] at hfirst
      cases hfirst
  | some headers =>
      rw [hheaders] at hfirst hsecond
      exact List.inj_on_of_nodup_map headers.distinct hfirst hsecond same

namespace BuiltFrom

variable [InternationalDomains] [FileTypes] {files : FileSystem} {stamp : Stamp}
  {message : Message} {given : Fields} {uses : List HeaderUse} {mail : Mail} {name : String}

/-- What stands in a mail under the name of a header. -/
theorem field?_header (built : BuiltFrom files stamp message given uses mail)
    (free : IsHeaderField name) (shown : sameIgnoringCase name "Bcc" = false)
    {entry : String × String} (hentry : headerFor? (headerEntries message) name = some entry) :
    mail.fields.field? name =
      (writtenHeader? stamp.now (headerEntries message) name).map headerField := by
  have hversion : sameIgnoringCase "MIME-Version" name = false := by
    rw [sameIgnoringCase_comm]
    exact free "MIME-Version" (by decide)
  have hheader : ((uses.foldl applyUse given).set (.ofText "MIME-Version" "1.0".toList)).field?
      name = some (headerField entry) := by
    rw [Fields.field?_set, Field.ofText, hversion, if_neg Bool.false_ne_true,
      field?_foldl_applyUse free built.headersUsed, hentry]
    rfl
  rw [built.fields, Fields.field?_without shown, field?_dated, hheader, writtenHeader?, hentry,
    Option.map_some, Option.map_some]
  by_cases hdate : sameIgnoringCase "Date" name
  · have hshown : (((some (headerField entry)).map fun field => field.value.shown).map
        isMailDate).getD false = isMailDate entry.2.toList := rfl
    rw [Fields.shown?_eq, Fields.field?_congr hdate, hheader, hshown]
    split <;> rfl
  · rw [if_neg fun replaced => hdate replaced.1, if_neg fun replaced => hdate replaced.1]

/-- The lines of the header section of a mail that begin with the name of a header. -/
theorem exists_header (built : BuiltFrom files stamp message given uses mail)
    (named : ∀ entry ∈ headerEntries message, ∀ c ∈ entry.1.toList, isHeaderNameChar c)
    (free : IsHeaderField name) (shown : sameIgnoringCase name "Bcc" = false)
    {written : String × String}
    (hwritten : writtenHeader? stamp.now (headerEntries message) name = some written)
    (plainName : ':' ∉ name.toList) :
    ∃ header, splitHeaderSection mail.wire = some (header, mail.bodyText) ∧
      ∀ value, name.toList ++ ':' :: ' ' :: value ∈ fieldLines header ↔
        written.1 = name ∧ unfolded (headerField written).writtenValue = value := by
  have plain : ∀ field ∈ mail.fields ++ mail.bodyFields, field.IsPlain :=
    List.forall_mem_append.2 ⟨built.isPlain named, isPlain_bodyFields mail⟩
  have nonempty : mail.fields ++ mail.bodyFields ≠ [] := by
    rw [bodyFields]
    split <;> simp
  have hfield : Fields.field? name (mail.fields ++ mail.bodyFields) =
      some (headerField written) := by
    obtain ⟨entry, hentry, -⟩ := Option.map_eq_some_iff.1 hwritten
    rw [Fields.field?, List.find?_append, ← Fields.field?, built.field?_header free shown hentry,
      hwritten]
    rfl
  refine ⟨Fields.folded (mail.fields ++ mail.bodyFields), ?_, fun value => ?_⟩
  · rw [Mail.wire_eq (by rw [built.body])]
    exact Fields.splitHeaderSection_write nonempty plain mail.bodyText
  · rw [Fields.fieldLines_folded nonempty plain,
      Fields.mem_map_line_iff plain built.namesDiffer plainName, hfield]
    simp [headerField, Field.ofText]

end BuiltFrom

/-- A header of a composed message stands in the header section of its mail, under its name as it
is spelled and with its value, just when it is the one that the field of its name is written from
and its value is legible. -/
theorem build_header_iff [InternationalDomains] [FileTypes]
    {markup : Markup} {text : String} {values : Option Values}
    {message : Message} {files : FileSystem} {stamp : Stamp} {mail : Mail}
    (composed : compose markup text values = .ok message)
    (built : build files stamp message = .ok mail) {name value : String}
    (hentry : (name, value) ∈ headerEntries message) (filled : value ≠ "")
    (free : IsHeaderField name) (shown : sameIgnoringCase name "Bcc" = false)
    (charsets : Charsets) :
    ∃ header, splitHeaderSection mail.wire = some (header, mail.bodyText) ∧
      ((∃ given, name.toList ++ ':' :: ' ' :: given ∈ fieldLines header ∧
          charsets.decoded given = value.toList) ↔
        writtenHeader? stamp.now (headerEntries message) name = some (name, value) ∧
          charsets.isLegible value.toList) := by
  obtain ⟨given, uses, origin⟩ := exists_builtFrom built
  have named := isHeaderNameChar_of_compose composed
  have plainName : ':' ∉ name.toList := fun hmem =>
    absurd (named (name, value) hentry ':' hmem) (by decide)
  obtain ⟨written, hwritten⟩ := exists_writtenHeader? stamp.now hentry filled
  obtain ⟨header, hsplit, hlines⟩ := origin.exists_header named free shown hwritten plainName
  have hdecoded (entry : String × String) :
      charsets.decoded (unfolded (headerField entry).writtenValue) = entry.2.toList ↔
        charsets.isLegible entry.2.toList :=
    decoded_unfolded_writeTextValue_iff _ _
  refine ⟨header, hsplit, ?_⟩
  rw [hwritten]
  constructor
  · rintro ⟨line, hline, hvalue⟩
    obtain ⟨hname, rfl⟩ := (hlines line).1 hline
    have hwhole : written = (name, value) := by
      rcases writtenHeader?_cases hwritten with hmem | hdate
      · exact eq_of_mem_headerEntries hmem hentry hname
      · -- A date that the mail itself gives is legible, so that it is the value of the header.
        have hlegible : charsets.isLegible written.2.toList := by
          rw [hdate]
          exact Charsets.isLegible_of_unmarked (all_isUnmarked_mailDate stamp.now)
        have hsame := ((hdecoded written).2 hlegible).symm.trans hvalue
        exact Prod.ext hname (String.toList_injective hsame)
    rw [hwhole] at hvalue
    exact ⟨congrArg some hwhole, (hdecoded (name, value)).1 hvalue⟩
  · rintro ⟨heq, legible⟩
    have hwhole : written = (name, value) := Option.some.inj heq
    refine ⟨_, (hlines _).2 ⟨congrArg Prod.fst hwhole, rfl⟩, ?_⟩
    rw [hwhole]
    exact (hdecoded (name, value)).2 legible

/-- A template with two headers whose names differ in letter case alone. -/
def taggedTemplate : String :=
  "To: a@x.com\nFrom: b@x.com\nSubject: S\nX-Tag: a\nx-tag: b\n\nhello"

/-- The message of this template. -/
def tagged : Message where
  sender := "b@x.com"
  recipients := "a@x.com"
  subject := "S"
  copies := none
  blindCopies := none
  headers := some ⟨[("X-Tag", "a"), ("x-tag", "b")], by decide⟩
  attachments := none
  body := .text "hello"

theorem compose_tagged : compose .placeholder taggedTemplate none = .ok tagged := by
  rw [compose, render_of_not_mem (by decide)]
  rfl

theorem build_header_iff_tagged :
    ∃ mail header, compose .placeholder taggedTemplate none = .ok tagged ∧
      build bareFiles newYear tagged = .ok mail ∧
      splitHeaderSection mail.wire = some (header, mail.bodyText) ∧
      ∃ given, "x-tag".toList ++ ':' :: ' ' :: given ∈ fieldLines header ∧
        Charsets.utf8Only.decoded given = "b".toList := by
  have accepted : (build bareFiles newYear tagged).isOk = true := by decide +kernel
  have hentry : ("x-tag", "b") ∈ headerEntries tagged := by decide
  have kept : writtenHeader? newYear.now (headerEntries tagged) "x-tag" = some ("x-tag", "b") ∧
      Charsets.utf8Only.isLegible "b".toList := by
    decide +kernel
  cases hbuild : build bareFiles newYear tagged with
  | error failure =>
      rw [hbuild] at accepted
      cases accepted
  | ok mail =>
      obtain ⟨header, hsplit, hheader⟩ :=
        build_header_iff compose_tagged hbuild hentry (by decide) (by decide)
          (by decide) Charsets.utf8Only
      exact ⟨mail, header, compose_tagged, rfl, hsplit, hheader.2 kept⟩

/-- The first of the two headers is not in the mail, whatever a reader knows. -/
theorem build_tagged_lost :
    compose .placeholder taggedTemplate none = .ok tagged ∧
      ("X-Tag", "a") ∈ headerEntries tagged ∧ IsHeaderField "X-Tag" ∧
      sameIgnoringCase "X-Tag" "Bcc" = false ∧
      ∃ mail header, build bareFiles newYear tagged = .ok mail ∧
        splitHeaderSection mail.wire = some (header, mail.bodyText) ∧
        ∀ charsets : Charsets,
          ¬ ∃ given, "X-Tag".toList ++ ':' :: ' ' :: given ∈ fieldLines header ∧
            charsets.decoded given = "a".toList := by
  refine ⟨compose_tagged, by decide, by decide, by decide, ?_⟩
  have lost : (build bareFiles newYear tagged).toOption.any (fun mail =>
      (splitHeaderSection mail.wire).any fun parts => parts.2 == mail.bodyText &&
        (fieldLines parts.1).all fun line => !("X-Tag".toList ++ [':']).isPrefixOf line) = true := by
    decide +kernel
  cases hbuild : build bareFiles newYear tagged with
  | error failure =>
      rw [hbuild] at lost
      cases lost
  | ok mail =>
      rw [hbuild, Except.toOption, Option.any_some] at lost
      cases hsplit : splitHeaderSection mail.wire with
      | none =>
          rw [hsplit] at lost
          cases lost
      | some parts =>
          obtain ⟨header, body⟩ := parts
          simp only [hsplit, Option.any_some, Bool.and_eq_true, beq_iff_eq] at lost
          obtain ⟨rfl, hlines⟩ := lost
          refine ⟨mail, header, rfl, hsplit, fun charsets => ?_⟩
          rintro ⟨given, hline, -⟩
          have habsent := List.all_eq_true.1 hlines _ hline
          have hprefix : "X-Tag".toList ++ [':'] <+: "X-Tag".toList ++ ':' :: ' ' :: given :=
            ⟨' ' :: given, by rw [List.append_assoc, List.singleton_append]⟩
          rw [List.isPrefixOf_iff_prefix.2 hprefix] at habsent
          cases habsent

end MailMerge.Mail
