/-
# The fields that tell how a mail is made up

Every mail has one field for its version and one for the type of its content, and one for its
transfer encoding unless it is divided into parts. They are the mail's own: a header of their names,
in whatever letter case, gives the type of the body or makes no difference, and headers that make
no difference can as well be left out.
-/

import MailMerge.Proofs.Mail.CustomHeaders
import MailMerge.Proofs.Mail.Stamp

namespace MailMerge.Mail

open MailMerge.Host MailMerge.Message MailMerge.Stage MailMerge.Text MailMerge.Time

/-! ## Headers without effect -/

/-- A header that makes no difference to a mail: it is empty, or the mail has a field of its own in
its place. -/
def isIdleHeader (entry : String × String) : Bool :=
  entry.2.isEmpty || ownFieldNames.any (sameIgnoringCase entry.1)

/-- What becomes of a header makes a difference to the mail. -/
def HeaderUse.takesEffect : HeaderUse → Bool
  | .field _ | .bodyType _ => true
  | .skipped | .dropped => false

/-- A header without effect is put to no use, and it is never refused. -/
theorem exists_useHeader_of_isIdleHeader {entry : String × String} (idle : isIdleHeader entry) :
    ∃ use, useHeader entry.1 entry.2 = .ok use ∧ use.takesEffect = false := by
  have hown : ∀ own ∈ ownFieldNames, sameIgnoringCase own "Content-Type" = false := by decide
  rw [useHeader]
  by_cases hempty : entry.2.isEmpty
  · exact ⟨.skipped, if_pos hempty, rfl⟩
  · have howned : ownFieldNames.any (sameIgnoringCase entry.1) := by
      rwa [isIdleHeader, Bool.eq_false_iff.2 hempty, Bool.false_or] at idle
    obtain ⟨own, hmem, hsame⟩ := List.any_eq_true.1 howned
    have htype : ¬ sameIgnoringCase entry.1 "Content-Type" := by
      rw [sameIgnoringCase_congr hsame, hown own hmem]
      exact Bool.false_ne_true
    exact ⟨.dropped, by rw [if_neg hempty, if_neg htype, if_pos howned], rfl⟩

/-- Every other header takes effect when it is not refused. -/
theorem takesEffect_of_useHeader {entry : String × String} (busy : isIdleHeader entry = false)
    {use : HeaderUse} (used : useHeader entry.1 entry.2 = .ok use) : use.takesEffect := by
  rw [isIdleHeader, Bool.or_eq_false_iff] at busy
  rw [useHeader, busy.1, busy.2, if_neg Bool.false_ne_true, if_neg Bool.false_ne_true] at used
  split at used
  · split at used
    · cases used
      rfl
    · cases used
  · split at used
    · cases used
      rfl
    · cases used

/-- Without the headers that make no difference, the same headers take effect or the same one is
refused. -/
theorem useHeaders_filter (entries : List (String × String)) :
    useHeaders (entries.filter fun entry => !isIdleHeader entry) =
      (useHeaders entries).map (List.filter HeaderUse.takesEffect) := by
  induction entries with
  | nil => rfl
  | cons entry entries ih =>
      rw [useHeaders, map_bind]
      cases hidle : isIdleHeader entry with
      | true =>
          obtain ⟨use, hused, hnone⟩ := exists_useHeader_of_isIdleHeader hidle
          rw [List.filter_cons_of_neg (by simp [hidle]), ih, hused, ok_bind, map_bind]
          cases useHeaders entries with
          | error fault => rfl
          | ok uses =>
              show _ = Except.ok ((use :: uses).filter HeaderUse.takesEffect)
              rw [List.filter_cons_of_neg (by simp [hnone])]
              rfl
      | false =>
          rw [List.filter_cons_of_pos (by simp [hidle]), useHeaders, ih]
          cases hused : useHeader entry.1 entry.2 with
          | error fault => rfl
          | ok use =>
              rw [ok_bind, ok_bind, map_bind]
              cases useHeaders entries with
              | error fault => rfl
              | ok uses =>
                  show _ = Except.ok ((use :: uses).filter HeaderUse.takesEffect)
                  rw [List.filter_cons_of_pos (takesEffect_of_useHeader hidle hused)]
                  rfl

/-- What takes no effect leaves the fields as they are. -/
theorem foldl_applyUse_filter (uses : List HeaderUse) (fields : Fields) :
    (uses.filter HeaderUse.takesEffect).foldl applyUse fields = uses.foldl applyUse fields := by
  induction uses generalizing fields with
  | nil => rfl
  | cons use uses ih => cases use <;> exact ih _

/-! ## The type of the body -/

/-- The media type that a header gives the body. -/
def HeaderUse.mediaType? : HeaderUse → Option MediaType
  | .bodyType mediaType => some mediaType
  | _ => none

/-- The media type of a body of this kind. -/
def bodyKindType : Body → MediaType
  | .html _ => .html
  | .text _ => .plain

theorem bodyType_eq (body : Body) (uses : List HeaderUse) :
    bodyType body uses = (uses.filterMap HeaderUse.mediaType?).getLastD (bodyKindType body) := by
  have hgiven : HeaderUse.mediaType? = fun
      | .bodyType mediaType => some mediaType
      | _ => none := by
    funext use
    cases use <;> rfl
  unfold bodyType
  rw [hgiven]
  cases body <;> rfl

theorem bodyType_filter (body : Body) (uses : List HeaderUse) :
    bodyType body (uses.filter HeaderUse.takesEffect) = bodyType body uses := by
  have hkept : (uses.filter HeaderUse.takesEffect).filterMap HeaderUse.mediaType? =
      uses.filterMap HeaderUse.mediaType? := by
    induction uses with
    | nil => rfl
    | cons use uses ih =>
        cases use with
        | bodyType mediaType => exact congrArg (mediaType :: ·) ih
        | field _ | skipped | dropped => exact ih
  rw [bodyType_eq, bodyType_eq, hkept]

/-- The media type that the headers of a message and the kind of its body give its body. -/
def IsBodyType (message : Message) (mediaType : MediaType) : Prop :=
  match headerText? (headerEntries message) "Content-Type" with
  | some value => MediaType.read value = .ok mediaType
  | none => mediaType = bodyKindType message.body

/-- A header gives a media type just when it is filled and named for it. -/
theorem mediaType?_of_useHeader {entry : String × String} {use : HeaderUse}
    (used : useHeader entry.1 entry.2 = .ok use) :
    if !entry.2.isEmpty && sameIgnoringCase entry.1 "Content-Type" then
      ∃ mediaType, use.mediaType? = some mediaType ∧ MediaType.read entry.2 = .ok mediaType
    else use.mediaType? = none := by
  rw [useHeader] at used
  cases hempty : entry.2.isEmpty with
  | true =>
      rw [hempty, if_pos rfl] at used
      cases used
      rfl
  | false =>
      rw [hempty, if_neg Bool.false_ne_true] at used
      cases htype : sameIgnoringCase entry.1 "Content-Type" with
      | true =>
          rw [htype, if_pos rfl] at used
          cases hread : MediaType.read entry.2 with
          | error fault =>
              rw [hread] at used
              cases used
          | ok mediaType =>
              rw [hread] at used
              cases used
              exact ⟨mediaType, rfl, rfl⟩
      | false =>
          rw [htype, if_neg Bool.false_ne_true] at used
          split at used
          · cases used
            rfl
          · split at used
            · cases used
              rfl
            · cases used

/-- Of the media types that headers give, the last one counts. -/
theorem getLastD_mediaTypes {entries : List (String × String)} {uses : List HeaderUse}
    (used : useHeaders entries = .ok uses) (other : MediaType) :
    match headerFor? entries "Content-Type" with
    | some entry =>
        MediaType.read entry.2 = .ok ((uses.filterMap HeaderUse.mediaType?).getLastD other)
    | none => (uses.filterMap HeaderUse.mediaType?).getLastD other = other := by
  induction entries generalizing uses other with
  | nil =>
      cases used
      rfl
  | cons entry entries ih =>
      simp only [useHeaders, bind_eq_ok_iff] at used
      obtain ⟨use, huse, others, hothers, heq⟩ := used
      cases heq
      have hgiven := mediaType?_of_useHeader huse
      rw [headerFor?_cons]
      split at hgiven
      · next htype =>
        obtain ⟨mediaType, hmediaType, hread⟩ := hgiven
        rw [List.filterMap_cons_some hmediaType, List.getLastD_cons, if_pos htype]
        have hrest := ih hothers mediaType
        cases hfor : headerFor? entries "Content-Type" with
        | some later =>
            rw [hfor] at hrest
            exact hrest
        | none =>
            rw [hfor] at hrest
            show MediaType.read entry.2 = _
            rw [hread, hrest]
      · next htype =>
        rw [List.filterMap_cons_none hgiven, if_neg htype, Option.or_none]
        exact ih hothers other

/-- The body of a mail has the type that the last header for it gives, or that of its kind. -/
theorem BuiltFrom.isBodyType [InternationalDomains] [FileTypes]
    {files : FileSystem} {stamp : Stamp} {message : Message}
    {given : Fields} {uses : List HeaderUse} {mail : Mail}
    (built : BuiltFrom files stamp message given uses mail) :
    IsBodyType message mail.body.mediaType := by
  have hlast := getLastD_mediaTypes built.headersUsed (bodyKindType message.body)
  rw [← bodyType_eq] at hlast
  rw [IsBodyType, headerText?, built.body]
  cases hfor : headerFor? (headerEntries message) "Content-Type" with
  | some entry =>
      rw [hfor] at hlast
      exact hlast
  | none =>
      rw [hfor] at hlast
      exact hlast

/-! ## Leaving headers out -/

/-- The headers that make no difference can be left out: the message makes the same mail or fails
the same way. -/
theorem build_withoutIdleHeaders [InternationalDomains] [FileTypes]
    (files : FileSystem) (stamp : Stamp) {message : Message}
    {headers : Option Headers}
    (kept : (headers.map Headers.entries).getD [] =
      (headerEntries message).filter fun entry => !isIdleHeader entry) :
    build files stamp { message with headers } = build files stamp message := by
  have hfields : messageFields { message with headers } = messageFields message := rfl
  have huses : useHeaders (headerEntries { message with headers }) =
      (useHeaders (headerEntries message)).map (List.filter HeaderUse.takesEffect) := by
    rw [← useHeaders_filter, ← kept]
    rfl
  rw [build, build, hfields, huses]
  apply bind_congr
  intro given
  cases useHeaders (headerEntries message) with
  | error fault => rfl
  | ok uses =>
      show (_ : Except BuildFailure Mail) = _
      simp only [Except.map, ok_bind, foldl_applyUse_filter, bodyType_filter]

/-! ## Names of the header section -/

/-- The names of a text's header section that are the given name in some letter case. -/
def namesLike (name : String) (text : List Char) : List String :=
  ((fieldNames text).map String.ofList).filter fun given => sameIgnoringCase given name

/-- Of names that differ, one is the same as a name among them: this name itself. -/
theorem filter_eq_singleton_of_namesDiffer {names : List String} (differ : NamesDiffer names)
    {name : String} (hname : name ∈ names) :
    names.filter (fun given => sameIgnoringCase given name) = [name] := by
  have hself : sameIgnoringCase name name := sameIgnoringCase_iff.2 rfl
  induction names with
  | nil => cases hname
  | cons first names ih =>
      rw [NamesDiffer, List.pairwise_cons] at differ
      rcases List.mem_cons.1 hname with rfl | hname
      · rw [List.filter_cons, if_pos hself, List.filter_eq_nil_iff.2]
        intro other hother
        rw [sameIgnoringCase_comm, differ.1 other hother]
        exact Bool.false_ne_true
      · rw [List.filter_cons, differ.1 name hname, if_neg Bool.false_ne_true]
        exact ih differ.2 hname

namespace BuiltFrom

variable [InternationalDomains] [FileTypes] {files : FileSystem} {stamp : Stamp}
  {message : Message} {given : Fields} {uses : List HeaderUse} {mail : Mail}

/-- The header section of a mail names its fields and those of its body. -/
theorem namesLike_wire (built : BuiltFrom files stamp message given uses mail)
    (named : ∀ entry ∈ headerEntries message, ∀ c ∈ entry.1.toList, isHeaderNameChar c)
    (name : String) :
    namesLike name mail.wire = ((mail.fields ++ mail.bodyFields).map Field.name).filter
      fun given => sameIgnoringCase given name := by
  have plain : ∀ field ∈ mail.fields ++ mail.bodyFields, field.IsPlain :=
    List.forall_mem_append.2 ⟨built.isPlain named, isPlain_bodyFields mail⟩
  have hnames : (fieldNames mail.wire).map String.ofList =
      (mail.fields ++ mail.bodyFields).map Field.name := by
    rw [fieldNames_wire (by rw [built.body]) plain, List.map_map]
    apply List.map_congr_left
    intro field _
    exact String.ofList_toList
  rw [namesLike, hnames]

/-- A name among those of the fields is there in this spelling and in no other. -/
theorem namesLike_wire_of_mem (built : BuiltFrom files stamp message given uses mail)
    (named : ∀ entry ∈ headerEntries message, ∀ c ∈ entry.1.toList, isHeaderNameChar c)
    {name : String} (hname : name ∈ (mail.fields ++ mail.bodyFields).map Field.name) :
    namesLike name mail.wire = [name] := by
  rw [built.namesLike_wire named]
  exact filter_eq_singleton_of_namesDiffer built.namesDiffer hname

/-- The version is a field of every mail. -/
theorem version_mem (built : BuiltFrom files stamp message given uses mail) :
    Field.ofText "MIME-Version" "1.0".toList ∈ mail.fields := by
  have hblind : sameIgnoringCase "MIME-Version" "Bcc" = false := by decide
  have hdate : sameIgnoringCase "Date" "MIME-Version" = false := by decide
  have hself : sameIgnoringCase "MIME-Version" "MIME-Version" := by decide
  apply List.mem_of_find?_eq_some
  show mail.fields.field? "MIME-Version" = _
  rw [built.fields, Fields.field?_without hblind, field?_dated, hdate,
    if_neg fun replaced => Bool.false_ne_true replaced.1, Fields.field?_set]
  exact if_pos hself

/-- The fields that tell how a mail is made up are there once, in the mail's own spelling. -/
theorem namesLike_mime (built : BuiltFrom files stamp message given uses mail)
    (named : ∀ entry ∈ headerEntries message, ∀ c ∈ entry.1.toList, isHeaderNameChar c) :
    namesLike "MIME-Version" mail.wire = ["MIME-Version"] ∧
      namesLike "Content-Type" mail.wire = ["Content-Type"] ∧
      namesLike "Content-Transfer-Encoding" mail.wire =
        if mail.attachments.isEmpty then ["Content-Transfer-Encoding"] else [] := by
  have hbody : mail.bodyFields.map Field.name = if mail.attachments.isEmpty then
      ["Content-Type", "Content-Transfer-Encoding"] else ["Content-Type"] := by
    rw [bodyFields]
    split <;> rfl
  have hmem {name : String} (hname : name ∈ mail.bodyFields.map Field.name) :
      namesLike name mail.wire = [name] := by
    apply built.namesLike_wire_of_mem named
    rw [List.map_append]
    exact List.mem_append_right _ hname
  refine ⟨?_, ?_, ?_⟩
  · apply built.namesLike_wire_of_mem named
    rw [List.map_append]
    exact List.mem_append_left _ (List.mem_map_of_mem built.version_mem)
  · apply hmem
    rw [hbody]
    split <;> decide
  · by_cases hsingle : mail.attachments.isEmpty
    · rw [if_pos hsingle]
      apply hmem
      rw [hbody, if_pos hsingle]
      decide
    · -- A mail in parts has the encodings of its parts, and none of its own.
      have hother : sameIgnoringCase "Content-Type" "Content-Transfer-Encoding" = false := by
        decide
      rw [if_neg hsingle, built.namesLike_wire named, List.map_append, hbody, if_neg hsingle,
        List.filter_eq_nil_iff]
      intro name hname
      rcases List.mem_append.1 hname with hname | hname
      · obtain ⟨field, hfield, rfl⟩ := List.mem_map.1 hname
        rw [built.different_bodyName hfield (by decide)]
        exact Bool.false_ne_true
      · rw [List.mem_singleton.1 hname, hother]
        exact Bool.false_ne_true

end BuiltFrom

/-- A mail has one field for its version, one for the type of its content and, unless it is divided
into parts, one for its encoding, whatever headers its message has. Its body has the type that the
last header for it gives, or that of its kind. Headers that are empty, or named for the version or
the encoding, can be left out: the mail is the same when it is made at the same time with the same
boundary, and at another time it differs in its date and its boundary alone. -/
theorem build_mimeFields [InternationalDomains] [FileTypes]
    {files : FileSystem} {stamp : Stamp} {message : Message} {mail : Mail}
    (named : ∀ entry ∈ headerEntries message, ∀ c ∈ entry.1.toList, isHeaderNameChar c)
    (built : build files stamp message = .ok mail) :
    (namesLike "MIME-Version" mail.wire = ["MIME-Version"] ∧
      namesLike "Content-Type" mail.wire = ["Content-Type"] ∧
      namesLike "Content-Transfer-Encoding" mail.wire =
        if mail.attachments.isEmpty then ["Content-Transfer-Encoding"] else []) ∧
    IsBodyType message mail.body.mediaType ∧
    ∀ headers : Option Headers, (headers.map Headers.entries).getD [] =
        (headerEntries message).filter (fun entry => !isIdleHeader entry) →
      build files stamp { message with headers } = .ok mail ∧
      ∀ stamp', ∃ mail', build files stamp' { message with headers } = .ok mail' ∧
        ∀ date boundary, mail'.restamped date boundary = mail.restamped date boundary := by
  obtain ⟨given, uses, origin⟩ := exists_builtFrom built
  refine ⟨origin.namesLike_mime named, origin.isBodyType, ?_⟩
  intro headers kept
  have hsame := (build_withoutIdleHeaders files stamp kept).trans built
  refine ⟨hsame, fun stamp' => ?_⟩
  have hmap (date boundary : List Char) := map_restamped_build files stamp' stamp
    { message with headers } date boundary
  rw [hsame] at hmap
  obtain ⟨mail', hbuild, -⟩ := map_eq_ok_iff.1 (hmap [] [])
  refine ⟨mail', hbuild, fun date boundary => ?_⟩
  have heq := hmap date boundary
  rw [hbuild] at heq
  exact Except.ok.inj heq

/-- A message with an attachment that names the fields of its mail in other spellings. -/
def brochure : Message where
  sender := "b@x.com"
  recipients := "a@x.com"
  subject := "S"
  copies := none
  blindCopies := none
  headers := some ⟨[("content-type", "text/html"), ("mime-version", "2.0"), ("X-Empty", ""),
    ("CONTENT-TRANSFER-ENCODING", "8bit"), ("X-Tag", "t"), ("Content-TYPE", "text/Calendar"),
    ("Content-Type", "")], by decide⟩
  attachments := some (.array [.object [("content", .string "a")]])
  body := .text "hello"

/-- The same message without the headers that make no difference. -/
def shortBrochure : Message :=
  { brochure with headers := some ⟨[("content-type", "text/html"), ("X-Tag", "t"),
    ("Content-TYPE", "text/Calendar")], by decide⟩ }

theorem build_mimeFields_brochure :
    ∃ mail mail', build bareFiles newYear brochure = .ok mail ∧
      build bareFiles newYearsEve shortBrochure = .ok mail' ∧
      namesLike "MIME-Version" mail.wire = ["MIME-Version"] ∧
      namesLike "Content-Type" mail.wire = ["Content-Type"] ∧
      MediaType.read "text/Calendar" = .ok mail.body.mediaType ∧
      ∀ date boundary, mail'.restamped date boundary = mail.restamped date boundary := by
  have named : ∀ entry ∈ headerEntries brochure, ∀ c ∈ entry.1.toList, isHeaderNameChar c := by
    have checked : (headerEntries brochure).all
        (fun entry => entry.1.toList.all isHeaderNameChar) = true := by
      decide +kernel
    intro entry hentry
    exact List.all_eq_true.1 (List.all_eq_true.1 checked entry hentry)
  have accepted : (build bareFiles newYear brochure).isOk = true := by decide +kernel
  cases hbuild : build bareFiles newYear brochure with
  | error failure =>
      rw [hbuild] at accepted
      cases accepted
  | ok mail =>
      obtain ⟨⟨hversion, htype, -⟩, hbody, hshort⟩ := build_mimeFields named hbuild
      obtain ⟨mail', hbuild', hmail'⟩ := (hshort shortBrochure.headers rfl).2 newYearsEve
      exact ⟨mail, mail', rfl, hbuild', hversion, htype, hbody, hmail'⟩

end MailMerge.Mail
