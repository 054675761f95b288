/-
# The first failure

Building a mail goes through its stages in a fixed order: the sender, the lists of recipients, the
headers one by one, the descriptions of all attachments, then each attachment, its type before its
bytes, and at last the envelope. The failure that is told is that of the first stage that fails,
whatever is wrong with the stages after it; and when no stage fails there is a mail.
-/

import MailMerge.Proofs.Mail.Stamp

namespace MailMerge.Mail

open MailMerge.Host MailMerge.Json MailMerge.Message MailMerge.Stage MailMerge.Text MailMerge.Time

/-! ## The stages of building a mail -/

/-- A stage of building a mail. -/
inductive BuildStage where
  /-- The sender, of which there is one. -/
  | sender (text : String)
  /-- A list of recipients. -/
  | recipients (line : AddressLine) (text : String)
  | header (name value : String)
  /-- The descriptions of all attachments. -/
  | descriptions (given : Option Value)
  /-- The type of an attachment with its place in the list. -/
  | attachmentType (attachment : Attachment) (index : Nat)
  /-- The bytes of an attachment with its place in the list. -/
  | attachmentBytes (attachment : Attachment) (index : Nat)
  | envelope (message : Message)

/-- How a stage fails. A header that is empty, or that the mail has a field of its own for, does
not fail; neither does the type of the body fail for its name. -/
inductive BuildStage.FailsWith [InternationalDomains] [FileTypes]
    (files : FileSystem) : BuildStage → BuildFailure → Prop where
  | sender {text : String} {fault : AddressFault}
      (refused : readMailbox text.toList = .error fault) :
      FailsWith files (.sender text) (.address .sender fault)
  | recipients {line : AddressLine} {text : String} {fault : AddressFault}
      (refused : readMailboxes text.toList = .error fault) :
      FailsWith files (.recipients line text) (.address line fault)
  | bodyType {name value : String} {fault : MediaTypeFault} (filled : value ≠ "")
      (named : sameIgnoringCase name "Content-Type")
      (refused : MediaType.read value = .error fault) :
      FailsWith files (.header name value) (.header name (.mediaType fault))
  | headerName {name value : String} (filled : value ≠ "") (free : IsHeaderField name)
      (refused : ¬ isFieldName name) :
      FailsWith files (.header name value) (.header name .name)
  | notAList {given : Value} (other : given ≠ .null) (noList : ∀ items, given ≠ .array items) :
      FailsWith files (.descriptions (some given)) (.attachment .notAList)
  | description {items : List Value} {fault : AttachmentFault}
      (refused : FirstFault (fun item fault => Attachment.read item = .error fault) items fault) :
      FailsWith files (.descriptions (some (.array items))) (.attachment fault)
  | attachmentType {attachment : Attachment} {index : Nat} {fault : MediaTypeFault}
      (refused : MediaType.read (attachment.contentType.getD
        (FileTypes.textOf (attachment.nameAt index))) = .error fault) :
      FailsWith files (.attachmentType attachment index)
        (.attachment (.contentType (attachment.nameAt index) fault))
  | attachmentBytes {attachment : Attachment} {index : Nat} {fault : AttachmentFault}
      (refused : attachment.load files (attachment.nameAt index) = .error fault) :
      FailsWith files (.attachmentBytes attachment index) (.attachment fault)
  | envelope {message : Message} {given : Fields} {uses : List HeaderUse} {fault : EnvelopeFault}
      (fieldsGiven : messageFields message = .ok given)
      (headersUsed : useHeaders (headerEntries message) = .ok uses)
      (refused : readEnvelope ((uses.foldl applyUse given).set
        (.ofText "MIME-Version" "1.0".toList)) = .error fault) :
      FailsWith files (.envelope message) (.envelope fault)

namespace BuildStage

/-- The stage of a list of recipients; none when the message lacks it. -/
def ofLine (message : Message) (line : AddressLine) : List BuildStage :=
  ((line.text? message).map (recipients line)).toList

/-- The stage of a header. -/
def ofHeader (entry : String × String) : BuildStage :=
  .header entry.1 entry.2

/-- The stages of attachments, the first of which has the given place in the list. -/
def ofAttachments (index : Nat) : List Attachment → List BuildStage
  | [] => []
  | attachment :: attachments =>
    .attachmentType attachment index :: .attachmentBytes attachment index ::
      ofAttachments (index + 1) attachments

/-- The stages of building a mail, in order. There are no attachments when their descriptions
cannot be read. -/
def all (message : Message) : List BuildStage :=
  .sender message.sender :: recipientLines.flatMap (ofLine message) ++
    ((headerEntries message).map ofHeader ++
    (.descriptions message.attachments ::
      ofAttachments 0 ((Attachment.readAll message.attachments).toOption.getD []) ++
    [.envelope message]))

/-- A stage fails in one way. -/
theorem FailsWith.determined [InternationalDomains] [FileTypes]
    {files : FileSystem} {stage : BuildStage}
    {failure failure' : BuildFailure} (fails : stage.FailsWith files failure)
    (fails' : stage.FailsWith files failure') : failure = failure' := by
  cases fails with
  | sender refused =>
      cases fails' with
      | sender refused' => rw [Except.error.inj (refused.symm.trans refused')]
  | recipients refused =>
      cases fails' with
      | recipients refused' => rw [Except.error.inj (refused.symm.trans refused')]
  | bodyType filled named refused =>
      cases fails' with
      | bodyType filled' named' refused' => rw [Except.error.inj (refused.symm.trans refused')]
      | headerName filled' free refused' =>
          rw [free "Content-Type" List.mem_cons_self] at named
          cases named
  | headerName filled free refused =>
      cases fails' with
      | bodyType filled' named refused' =>
          rw [free "Content-Type" List.mem_cons_self] at named
          cases named
      | headerName => rfl
  | notAList other noList =>
      cases fails' with
      | notAList => rfl
      | description => exact absurd rfl (noList _)
  | description refused =>
      cases fails' with
      | notAList other noList => exact absurd rfl (noList _)
      | description refused' =>
          rw [refused.unique (fun _ _ _ read read' => Except.error.inj (read.symm.trans read'))
            refused']
  | attachmentType refused =>
      cases fails' with
      | attachmentType refused' => rw [Except.error.inj (refused.symm.trans refused')]
  | attachmentBytes refused =>
      cases fails' with
      | attachmentBytes refused' => rw [Except.error.inj (refused.symm.trans refused')]
  | envelope fieldsGiven headersUsed refused =>
      cases fails' with
      | envelope fieldsGiven' headersUsed' refused' =>
          cases fieldsGiven.symm.trans fieldsGiven'
          cases headersUsed.symm.trans headersUsed'
          rw [Except.error.inj (refused.symm.trans refused')]

/-- An attachment without a type does not fail for its type: whatever its name stands for is written
as a media type. -/
theorem FailsWith.exists_contentType [InternationalDomains] [FileTypes] {files : FileSystem}
    {attachment : Attachment} {index : Nat} {failure : BuildFailure}
    (fails : (BuildStage.attachmentType attachment index).FailsWith files failure) :
    ∃ text ∈ attachment.contentType, ∃ fault, MediaType.read text = .error fault ∧
      failure = .attachment (.contentType (attachment.nameAt index) fault) := by
  cases fails with
  | attachmentType refused =>
      cases hgiven : attachment.contentType with
      | some text => exact ⟨text, rfl, _, by rwa [hgiven] at refused, rfl⟩
      | none =>
          have hread := FileTypes.isOk_read (attachment.nameAt index)
          rw [hgiven, Option.getD_none] at refused
          rw [refused] at hread
          cases hread

end BuildStage

open BuildStage

theorem readAll_of_notAList {given : Value} (other : given ≠ .null)
    (noList : ∀ items, given ≠ .array items) :
    Attachment.readAll (some given) = .error .notAList := by
  cases given with
  | null => exact absurd rfl other
  | array items => exact absurd rfl (noList items)
  | bool | number | string | object => rfl

variable [InternationalDomains] [FileTypes] (files : FileSystem) (message : Message)

/-! ## One stage after another -/

theorem follows_sender :
    Follows (FailsWith files) [.sender message.sender]
      ((readMailbox message.sender.toList).mapError (.address .sender)) := by
  apply Follows.single
  intro failure
  rw [mapError_eq_error_iff]
  constructor
  · intro fails
    cases fails with
    | sender refused => exact ⟨_, refused, rfl⟩
  · rintro ⟨fault, refused, rfl⟩
    exact .sender refused

theorem follows_readLine (line : AddressLine) (text : String) :
    Follows (FailsWith files) [.recipients line text] (readLine line text) := by
  apply Follows.single
  intro failure
  rw [readLine, mapError_eq_error_iff]
  constructor
  · intro fails
    cases fails with
    | recipients refused => exact ⟨_, refused, rfl⟩
  · rintro ⟨fault, refused, rfl⟩
    exact .recipients refused

theorem follows_readOptionalLine (line : AddressLine) :
    Follows (FailsWith files) (ofLine message line)
      (readOptionalLine line (line.text? message)) := by
  rw [ofLine]
  cases line.text? message with
  | none => exact .nil _
  | some text => exact (follows_readLine files line text).map _

/-- The fields of a message follow from its addresses. -/
theorem follows_messageFields :
    Follows (FailsWith files)
      (.sender message.sender :: recipientLines.flatMap (ofLine message))
      (messageFields message) := by
  have hlines : recipientLines.flatMap (ofLine message) =
      ofLine message .recipients ++ (ofLine message .copies ++ ofLine message .blindCopies) := by
    simp [recipientLines]
  rw [hlines]
  apply Follows.cons (follows_sender files message)
  intro sender _
  apply Follows.bind (follows_readOptionalLine files message .recipients)
  intro recipients _
  apply Follows.bind (follows_readOptionalLine files message .copies)
  intro copies _
  exact (follows_readOptionalLine files message .blindCopies).finish _

/-- A header fails for its type when it gives the type of the body, and else for its name. -/
theorem useHeader_eq_error_iff {entry : String × String} {failure : BuildFailure} :
    useHeader entry.1 entry.2 = .error failure ↔ (ofHeader entry).FailsWith files failure := by
  obtain ⟨name, value⟩ := entry
  rw [useHeader]
  constructor
  · intro refused
    split at refused
    · cases refused
    · next hempty =>
      have filled : value ≠ "" := by simpa using hempty
      split at refused
      · next named =>
        split at refused
        · cases refused
        · next fault hread =>
          cases refused
          exact .bodyType filled named hread
      · next hnamed =>
        split at refused
        · cases refused
        · next hown =>
          split at refused
          · cases refused
          · next hname =>
            cases refused
            refine .headerName filled ?_ hname
            rw [IsHeaderField, List.forall_mem_cons]
            exact ⟨by simpa using hnamed, by simpa using hown⟩
  · intro fails
    cases fails with
    | bodyType filled named refused =>
        rw [if_neg (by simpa using filled), if_pos named, refused]
    | headerName filled free refused =>
        have hown : ¬ ownFieldNames.any (sameIgnoringCase name) := by
          simpa using fun own hown => free own (List.mem_cons_of_mem _ hown)
        rw [if_neg (by simpa using filled), if_neg (by simp [free "Content-Type"]), if_neg hown,
          if_neg refused]

/-- The headers are judged in order. -/
theorem follows_useHeaders (entries : List (String × String)) :
    Follows (FailsWith files) (entries.map ofHeader) (useHeaders entries) := by
  induction entries with
  | nil => exact .nil _
  | cons entry entries ih =>
      apply Follows.cons
      · exact .single fun failure => (useHeader_eq_error_iff files).symm
      · intro use _
        exact ih.finish _

/-- The descriptions are judged in order, before any attachment is. -/
theorem follows_readAll (given : Option Value) :
    Follows (FailsWith files) [.descriptions given]
      ((Attachment.readAll given).mapError .attachment) := by
  apply Follows.single
  intro failure
  rw [mapError_eq_error_iff]
  constructor
  · intro fails
    cases fails with
    | notAList other noList => exact ⟨_, readAll_of_notAList other noList, rfl⟩
    | @description items fault refused =>
        have hread : Attachment.readAll (some (.array items)) = .error fault := by
          rw [Attachment.readAll, (Follows.mapM Attachment.read items).eq_error_iff]
          · exact refused
          · exact fun _ _ _ read read' => Except.error.inj (read.symm.trans read')
        exact ⟨fault, hread, rfl⟩
  · rintro ⟨fault, refused, rfl⟩
    unfold Attachment.readAll at refused
    split at refused
    · cases refused
    · cases refused
    · next items =>
      have hfollows := Follows.mapM Attachment.read items
      rw [refused] at hfollows
      exact .description hfollows
    · next given hnull hlist =>
      cases refused
      exact .notAList hnull hlist

/-- An attachment is judged by its type and then by its bytes. -/
theorem follows_part (attachment : Attachment) (index : Nat) :
    Follows (FailsWith files)
      [.attachmentType attachment index, .attachmentBytes attachment index]
      ((attachment.part files index).mapError .attachment) := by
  rw [Attachment.part, mapError_bind]
  apply Follows.cons
  · apply Follows.single
    intro failure
    rw [mapError_eq_error_iff]
    constructor
    · intro fails
      cases fails with
      | attachmentType refused => exact ⟨_, mapError_eq_error_iff.2 ⟨_, refused, rfl⟩, rfl⟩
    · rintro ⟨fault, hfault, rfl⟩
      obtain ⟨fault, refused, rfl⟩ := mapError_eq_error_iff.1 hfault
      exact .attachmentType refused
  · intro mediaType _
    rw [mapError_bind]
    apply Follows.finish
    apply Follows.single
    intro failure
    rw [mapError_eq_error_iff]
    constructor
    · intro fails
      cases fails with
      | attachmentBytes refused => exact ⟨_, refused, rfl⟩
    · rintro ⟨fault, refused, rfl⟩
      exact .attachmentBytes refused

/-- The attachments are judged in order. -/
theorem follows_parts (index : Nat) (attachments : List Attachment) :
    Follows (FailsWith files) (ofAttachments index attachments)
      ((Attachment.parts files index attachments).mapError .attachment) := by
  induction attachments generalizing index with
  | nil => exact .nil _
  | cons attachment attachments ih =>
      rw [Attachment.parts, mapError_bind]
      apply Follows.bind (follows_part files attachment index)
      intro part _
      rw [mapError_bind]
      exact (ih (index + 1)).finish _

/-- The envelope is judged by the fields that the message and its headers give. -/
theorem follows_envelope (now : Utc) {given : Fields} {uses : List HeaderUse}
    (fieldsGiven : messageFields message = .ok given)
    (headersUsed : useHeaders (headerEntries message) = .ok uses) :
    Follows (FailsWith files) [.envelope message]
      ((readEnvelope (dated now ((uses.foldl applyUse given).set
        (.ofText "MIME-Version" "1.0".toList)))).mapError .envelope) := by
  apply Follows.single
  intro failure
  rw [readEnvelope_dated, mapError_eq_error_iff]
  constructor
  · intro fails
    cases fails with
    | envelope fieldsGiven' headersUsed' refused =>
        cases fieldsGiven.symm.trans fieldsGiven'
        cases headersUsed.symm.trans headersUsed'
        exact ⟨_, refused, rfl⟩
  · rintro ⟨fault, refused, rfl⟩
    exact .envelope fieldsGiven headersUsed refused

/-- A mail, or the failure to build it, follows from the stages in order. -/
theorem follows_build (stamp : Stamp) :
    Follows (FailsWith files) (BuildStage.all message) (build files stamp message) := by
  rw [build, BuildStage.all]
  apply Follows.bind (follows_messageFields files message)
  intro given fieldsGiven
  apply Follows.bind (follows_useHeaders files (headerEntries message))
  intro uses headersUsed
  apply Follows.cons (follows_readAll files message.attachments)
  intro attachments described
  rw [mapError_eq_ok_iff] at described
  rw [described]
  apply Follows.bind (follows_parts files 0 attachments)
  intro parts _
  exact (follows_envelope files message stamp.now fieldsGiven headersUsed).finish _

variable {files message}

/-- Building a mail fails just as the first of its stages that fails, in their fixed order, and it
gives a mail just when none of them fails. -/
theorem build_firstFailure (stamp : Stamp) :
    (∀ failure, build files stamp message = .error failure ↔
      FirstFault (FailsWith files) (BuildStage.all message) failure) ∧
    ((∃ mail, build files stamp message = .ok mail) ↔
      ∀ stage ∈ BuildStage.all message, ∀ failure, ¬ stage.FailsWith files failure) := by
  have hfollows := follows_build files message stamp
  constructor
  · intro failure
    apply hfollows.eq_error_iff
    intro stage fault fault' fails fails'
    exact fails.determined fails'
  · exact hfollows.exists_eq_ok_iff

end MailMerge.Mail
