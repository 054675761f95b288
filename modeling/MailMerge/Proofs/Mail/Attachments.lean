/-
# Attachments arrive

Every description of an attachment becomes a part of the mail, in the order of the list. The part
has the file name of the description, and a reader finds in it exactly the bytes that the
description holds or names. A description of which the content is said to be base64, and is not the
text of any bytes, keeps a mail from being built.
-/

import MailMerge.Proofs.Mail.BlindCopies
import MailMerge.Proofs.Mail.Multipart

namespace MailMerge.Mail

open MailMerge.Host MailMerge.Json MailMerge.Message MailMerge.Stage MailMerge.Text

/-! ## File names -/

/-- The last name of a path. Behind it stand only parts that lead nowhere, and it leads neither
nowhere nor upwards itself. -/
structure IsLastName (path name : List Char) : Prop where
  parts : ∃ earlier staying, partsAt '/' path = earlier ++ name :: staying ∧
    ∀ part ∈ staying, part = [] ∨ part = ['.']
  filled : name ≠ []
  leads : name ≠ ['.']
  inside : name ≠ ['.', '.']

theorem lastName?_eq_some_iff {path name : List Char} :
    lastName? path = some name ↔ IsLastName path name := by
  -- The last name is the first part from behind that leads somewhere.
  rw [lastName?, Option.filter_eq_some_iff, List.getLast?_eq_head?_reverse, ← List.filter_reverse,
    List.head?_filter, List.find?_eq_some_iff_append]
  constructor
  · rintro ⟨⟨hname, staying, earlier, heq, hstaying⟩, hinside⟩
    rw [Bool.and_eq_true, bne_iff_ne, bne_iff_ne] at hname
    refine ⟨⟨earlier.reverse, staying.reverse, ?_, ?_⟩, hname.1, hname.2, bne_iff_ne.1 hinside⟩
    · rw [List.reverse_eq_append_iff.1 heq, List.reverse_cons, List.append_assoc,
        List.singleton_append]
    · intro part hpart
      have hstays := hstaying part (List.mem_reverse.1 hpart)
      simpa [or_iff_not_imp_left] using hstays
  · rintro ⟨⟨earlier, staying, heq, hstaying⟩, filled, leads, inside⟩
    refine ⟨⟨?_, staying.reverse, earlier.reverse, ?_, ?_⟩, bne_iff_ne.2 inside⟩
    · rw [Bool.and_eq_true, bne_iff_ne, bne_iff_ne]
      exact ⟨filled, leads⟩
    · rw [heq, List.reverse_append, List.reverse_cons, List.append_assoc, List.singleton_append]
    · intro part hpart
      rcases hstaying part (List.mem_reverse.1 hpart) with rfl | rfl
      · rfl
      · rfl

namespace Attachment

/-- The file name of an attachment with the given place in a list: the given one, or else the last
name of its path, or else one made of its place. -/
inductive IsNamed (attachment : Attachment) (index : Nat) : String → Prop
  | given {name : String} (named : attachment.fileName = some name) :
      IsNamed attachment index name
  | ofPath {path : String} {name : List Char} (unnamed : attachment.fileName = none)
      (located : attachment.path = some path) (last : IsLastName path.toList name) :
      IsNamed attachment index (String.ofList name)
  | numbered (unnamed : attachment.fileName = none)
      (nowhere : ∀ path, attachment.path = some path →
        ∀ name, ¬ IsLastName path.toList name) :
      IsNamed attachment index ("attachment-" ++ decimal (index + 1))

/-- A list gives every attachment one file name. -/
theorem isNamed_iff {attachment : Attachment} {index : Nat} {name : String} :
    attachment.IsNamed index name ↔ attachment.nameAt index = name := by
  rw [nameAt]
  constructor
  · intro named
    cases named with
    | given named => rw [named, Option.some_or, Option.getD_some]
    | ofPath unnamed located last =>
        rw [unnamed, located, Option.bind_some, lastName?_eq_some_iff.2 last]
        rfl
    | numbered unnamed nowhere =>
        have hlast : (attachment.path.bind fun path => lastName? path.toList) = none := by
          rw [Option.bind_eq_none_iff]
          intro path located
          rw [Option.eq_none_iff_forall_ne_some]
          exact fun name heq => nowhere path located name (lastName?_eq_some_iff.1 heq)
        rw [unnamed, hlast]
        rfl
  · rintro rfl
    cases hgiven : attachment.fileName with
    | some name => exact .given hgiven
    | none =>
        cases hlast : attachment.path.bind fun path => lastName? path.toList with
        | some name =>
            obtain ⟨path, located, hname⟩ := Option.bind_eq_some_iff.1 hlast
            exact .ofPath hgiven located (lastName?_eq_some_iff.1 hname)
        | none =>
            apply IsNamed.numbered hgiven
            intro path located name last
            rw [located, Option.bind_some, lastName?_eq_some_iff.2 last] at hlast
            cases hlast

/-! ## Bytes -/

/-- The content of an attachment is said to be base64, in any letter case. -/
def SaysBase64 (attachment : Attachment) : Prop :=
  ∃ encoding, attachment.encoding = some encoding ∧ sameIgnoringCase encoding "base64"

theorem isBase64_iff {attachment : Attachment} :
    attachment.isBase64 ↔ attachment.SaysBase64 := by
  rw [isBase64, SaysBase64]
  cases attachment.encoding with
  | none => simp
  | some encoding => simp

/-- The bytes of an attachment: those of which its content is the base64 text, those of its content
as it is, or those of a file when it has no content. -/
inductive Holds (files : FileSystem) (attachment : Attachment) : List UInt8 → Prop
  | base64 {content : String} {bytes : List UInt8} (given : attachment.content = some content)
      (said : attachment.SaysBase64) (written : trim content.toList = base64Encode bytes) :
      Holds files attachment bytes
  | text {content : String} (given : attachment.content = some content)
      (plain : ¬ attachment.SaysBase64) : Holds files attachment (encode content.toList)
  | file {path : String} {bytes : List UInt8} (absent : attachment.content = none)
      (located : attachment.path = some path) (read : files.readBytes path = .ok bytes) :
      Holds files attachment bytes

/-- Loading gives the bytes that an attachment holds, and fails when it holds none. -/
theorem load_eq_ok_iff {files : FileSystem} {fileName : String} {attachment : Attachment}
    {bytes : List UInt8} :
    attachment.load files fileName = .ok bytes ↔ attachment.Holds files bytes := by
  have hwritten {text : List Char} :
      base64Decode (encode text) = .ok bytes ↔ text = base64Encode bytes := by
    rw [base64Decode_eq_ok_iff, encode_injective.eq_iff]
  constructor
  · intro loaded
    unfold load at loaded
    -- A content decides, whether or not there is a path as well.
    cases hcontent : attachment.content with
    | some content =>
        rw [hcontent] at loaded
        by_cases said : attachment.isBase64
        · replace loaded := (if_pos said).symm.trans loaded
          rw [mapError_eq_ok_iff, hwritten] at loaded
          exact .base64 hcontent (isBase64_iff.1 said) loaded
        · cases (if_neg said).symm.trans loaded
          exact .text hcontent fun said' => said (isBase64_iff.2 said')
    | none =>
        cases hpath : attachment.path with
        | some path =>
            rw [hcontent, hpath] at loaded
            exact .file hcontent hpath (mapError_eq_ok_iff.1 loaded)
        | none =>
            rw [hcontent, hpath] at loaded
            cases loaded
  · intro holds
    unfold load
    cases holds with
    | base64 given said written =>
        rw [given]
        exact (if_pos (isBase64_iff.2 said)).trans (mapError_eq_ok_iff.2 (hwritten.2 written))
    | text given plain =>
        rw [given]
        exact if_neg fun said => plain (isBase64_iff.1 said)
    | file absent located read =>
        rw [absent, located]
        exact mapError_eq_ok_iff.2 read

end Attachment

/-! ## Parts -/

/-- How the description with the given place in a list is read in a mail: under its file name, with
the bytes that it holds. -/
inductive Arrives (files : FileSystem) (item : Value × Nat) : PartReading → Prop
  | intro {attachment : Attachment} {name : String} {bytes : List UInt8}
      (described : Attachment.read item.1 = .ok attachment)
      (named : attachment.IsNamed item.2 name) (held : attachment.Holds files bytes) :
      Arrives files item ⟨some name.toList, bytes⟩

/-- A part that was made of a description is read as this description says. -/
theorem arrives_of_part [FileTypes]
    {files : FileSystem} {item : Value × Nat} {attachment : Attachment}
    {part : Part} (described : Attachment.read item.1 = .ok attachment)
    (loaded : attachment.part files item.2 = .ok part) : Arrives files item part.reading := by
  simp only [Attachment.part, bind_eq_ok_iff] at loaded
  obtain ⟨mediaType, -, bytes, hbytes, heq⟩ := loaded
  cases heq
  exact .intro described (Attachment.isNamed_iff.2 rfl) (Attachment.load_eq_ok_iff.1 hbytes)

/-- The parts of attachments are read as their descriptions say, in order. -/
theorem arrives_of_parts [FileTypes]
    {files : FileSystem} {items : List Value} {attachments : List Attachment}
    (described : List.Forall₂ (fun item attachment => Attachment.read item = .ok attachment) items
      attachments)
    {index : Nat} {parts : List Part}
    (loaded : Attachment.parts files index attachments = .ok parts) :
    List.Forall₂ (Arrives files) (items.zipIdx index) (parts.map Part.reading) := by
  induction described generalizing index parts with
  | nil =>
      cases loaded
      exact .nil
  | cons hitem _ ih =>
      simp only [Attachment.parts, bind_eq_ok_iff] at loaded
      obtain ⟨part, hpart, others, hothers, heq⟩ := loaded
      cases heq
      exact .cons (arrives_of_part hitem hpart) (ih hothers)

/-! ## Mails -/

/-- The content of an attachment is said to be base64, and it is the base64 text of no bytes. -/
def Attachment.IsBroken (attachment : Attachment) : Prop :=
  attachment.SaysBase64 ∧ ∃ content, attachment.content = some content ∧
    ∀ bytes, trim content.toList ≠ base64Encode bytes

theorem Attachment.IsBroken.not_holds {attachment : Attachment} (broken : attachment.IsBroken)
    (files : FileSystem) (bytes : List UInt8) : ¬ attachment.Holds files bytes := by
  obtain ⟨said, content, hcontent, unwritten⟩ := broken
  intro held
  cases held with
  | base64 given _ written =>
      cases hcontent.symm.trans given
      exact unwritten bytes written
  | text _ plain => exact plain said
  | file absent => cases hcontent.symm.trans absent

/-- What is at each place of a list is related to something. -/
theorem exists_of_mem_forall₂ {α β : Type} {R : α → β → Prop} {first : List α} {second : List β}
    (related : List.Forall₂ R first second) {a : α} (ha : a ∈ first) : ∃ b, R a b := by
  induction related with
  | nil => cases ha
  | cons hab _ ih =>
      rcases List.mem_cons.1 ha with rfl | ha
      · exact ⟨_, hab⟩
      · exact ih ha

variable {files : FileSystem} {stamp : Stamp} {message : Message} {mail : Mail} {items : List Value}

namespace BuiltFrom

variable [InternationalDomains] [FileTypes] {given : Fields} {uses : List HeaderUse}

theorem reading_body (built : BuiltFrom files stamp message given uses mail) :
    mail.body.reading = ⟨none, encode (breakLines message.body.content.toList)⟩ := by
  rw [built.body]
  rfl

/-- The attachments of a mail are read as their descriptions say, in order. -/
theorem arrives (built : BuiltFrom files stamp message given uses mail)
    (listed : message.attachments = some (.array items)) :
    List.Forall₂ (Arrives files) items.zipIdx (mail.attachments.map Part.reading) := by
  obtain ⟨attachments, hattachments, hparts⟩ := built.attachments
  rw [listed] at hattachments
  exact arrives_of_parts (mapM_eq_ok_iff.1 hattachments) hparts

theorem attachments_ne_nil (built : BuiltFrom files stamp message given uses mail)
    (listed : message.attachments = some (.array items)) (filled : items ≠ []) :
    mail.attachments ≠ [] := by
  intro hnil
  have hlength := (built.arrives listed).length_eq
  rw [hnil, List.length_zipIdx] at hlength
  exact filled (List.length_eq_zero_iff.1 hlength)

/-- No description in the list is broken, since a mail has bytes of every one. -/
theorem not_isBroken (built : BuiltFrom files stamp message given uses mail)
    (listed : message.attachments = some (.array items)) {item : Value} (hitem : item ∈ items)
    {attachment : Attachment} (described : Attachment.read item = .ok attachment) :
    ¬ attachment.IsBroken := by
  obtain ⟨index, hindex⟩ := List.mem_iff_getElem?.1 hitem
  have hmem : (item, index) ∈ items.zipIdx := List.mem_zipIdx_iff_getElem?.2 hindex
  obtain ⟨reading, arrived⟩ := exists_of_mem_forall₂ (built.arrives listed) hmem
  intro broken
  cases arrived with
  | intro described' _ held =>
      cases described.symm.trans described'
      exact broken.not_holds files _ held

end BuiltFrom

/-- Every attachment arrives. Behind the header section a mail is divided into the body and one part
for each description, in order, and every part is read as its description says. As long as no line
of a part begins with the boundary, a reader of the whole finds just these parts. A description that
is base64 of no bytes keeps the mail from being built. -/
theorem build_attachments [InternationalDomains] [FileTypes]
    (listed : message.attachments = some (.array items))
    (filled : items ≠ []) :
    (∀ mail, build files stamp message = .ok mail → ∃ readings,
      List.Forall₂ (Arrives files) items.zipIdx readings ∧
      mail.wire = Fields.write (mail.fields ++ [.ofText "Content-Type"
        ("multipart/mixed; boundary=\"".toList ++ mail.boundary ++ ['"'])]) ++ lineBreak ++
          dividedText mail.boundary mail.texts ∧
      mail.texts.map readPart? =
        (⟨none, encode (breakLines message.body.content.toList)⟩ :: readings).map some ∧
      (Divides mail.boundary mail.texts →
        readParts? mail.boundary (dividedText mail.boundary mail.texts) =
          some (⟨none, encode (breakLines message.body.content.toList)⟩ :: readings))) ∧
    ∀ item ∈ items, ∀ attachment, Attachment.read item = .ok attachment → attachment.IsBroken →
      ∃ failure, build files stamp message = .error failure := by
  constructor
  · intro mail hbuild
    obtain ⟨given, uses, built⟩ := exists_builtFrom hbuild
    have hbody : mail.body.fileName = none := by rw [built.body]
    refine ⟨mail.attachments.map Part.reading, built.arrives listed, ?_, ?_, ?_⟩
    · exact wire_eq_dividedText hbody (built.attachments_ne_nil listed filled)
    · rw [← built.reading_body]
      exact map_readPart?_texts mail
    · intro divides
      rw [readParts?_dividedText divides, List.map_cons, built.reading_body]
  · intro item hitem attachment described broken
    cases hbuild : build files stamp message with
    | error failure => exact ⟨failure, rfl⟩
    | ok mail =>
        obtain ⟨given, uses, built⟩ := exists_builtFrom hbuild
        exact absurd broken (built.not_isBroken listed hitem described)

/-- A directory with a report. -/
def reportFiles : FileSystem := ⟨[(["report.csv"], .file [97, 44, 98] false)], []⟩

/-- Descriptions of each kind: base64 under a name, a text with neither name nor path, and a
file. -/
def dispatchItems : List Value :=
  [.object [("filename", .string "data.bin"), ("content", .string " AAH/\n"),
      ("encoding", .string "BASE64")],
    .array [.null, .null, .string "plain notes", .null, .null],
    .object [("path", .string "./report.csv")]]

/-- A message with these attachments. -/
def dispatch : Message where
  sender := "b@x.com"
  recipients := "a@x.com"
  subject := "S"
  copies := none
  blindCopies := none
  headers := none
  attachments := some (.array dispatchItems)
  body := .text "see attached"

/-- A description in base64 of which the last symbol says more than its bytes can hold. -/
def brokenAttachment : Attachment :=
  { content := some "AAH=", encoding := some "base64" }

/-- The same message with this description. -/
def brokenDispatch : Message :=
  { dispatch with attachments := some (.array [.object [("content", .string "AAH="),
    ("encoding", .string "base64")]]) }

theorem isBroken_brokenAttachment : brokenAttachment.IsBroken := by
  refine ⟨⟨"base64", rfl, by decide⟩, "AAH=", rfl, ?_⟩
  intro bytes hwritten
  have hread : base64Decode (encode (trim "AAH=".toList)) = .ok bytes :=
    base64Decode_eq_ok_iff.2 (congrArg encode hwritten)
  have hrefused : base64Decode (encode (trim "AAH=".toList)) = .error (.lastSymbol 72 2) := rfl
  cases hrefused.symm.trans hread

theorem build_attachments_dispatch :
    (∃ mail readings, build reportFiles newYear dispatch = .ok mail ∧
      List.Forall₂ (Arrives reportFiles) dispatchItems.zipIdx readings ∧
      readParts? mail.boundary (dividedText mail.boundary mail.texts) =
        some (⟨none, encode "see attached".toList⟩ :: readings)) ∧
    ∃ failure, build reportFiles newYear brokenDispatch = .error failure := by
  constructor
  · have checked : (build reportFiles newYear dispatch).toOption.any
        (fun mail => Divides mail.boundary mail.texts) = true := by
      decide +kernel
    cases hbuild : build reportFiles newYear dispatch with
    | error failure =>
        rw [hbuild] at checked
        cases checked
    | ok mail =>
        rw [hbuild] at checked
        have divides : Divides mail.boundary mail.texts := of_decide_eq_true checked
        have listed : dispatch.attachments = some (.array dispatchItems) := rfl
        obtain ⟨readings, harrives, -, -, hread⟩ :=
          (build_attachments listed (List.cons_ne_nil _ _)).1 mail hbuild
        exact ⟨mail, readings, rfl, harrives, hread divides⟩
  · have listed : brokenDispatch.attachments = some (.array [.object [("content", .string "AAH="),
        ("encoding", .string "base64")]]) := rfl
    exact (build_attachments listed (List.cons_ne_nil _ _)).2 _ List.mem_cons_self brokenAttachment
      rfl isBroken_brokenAttachment

end MailMerge.Mail
