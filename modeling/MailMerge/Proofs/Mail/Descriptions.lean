/-
# Forms of a description

A description of an attachment is written as an object or as an array, and the items of one list
may differ in this. An object names what it gives, may leave out what there is nothing to say of and
may hold more than is asked for; an array gives everything in its place. Reading a list accepts
exactly the lists of which every item has one of these forms, and finds in each what was written.
-/

import MailMerge.Proofs.Mail.FirstFailure

namespace MailMerge.Mail

open MailMerge.Json MailMerge.Stage

/-! ## Members of a description -/

namespace AttachmentField

/-- The keys of a member of a description. -/
def keys : AttachmentField → List String
  | .fileName => ["filename"]
  | .path => ["path"]
  | .content => ["content"]
  | .encoding => ["encoding"]
  | .contentType => ["contentType", "content_type"]

/-- What a description holds in a member. -/
def get (attachment : Attachment) : AttachmentField → Option String
  | .fileName => attachment.fileName
  | .path => attachment.path
  | .content => attachment.content
  | .encoding => attachment.encoding
  | .contentType => attachment.contentType

theorem ofKey?_eq_some_iff {key : String} {field : AttachmentField} :
    ofKey? key = some field ↔ key ∈ field.keys := by
  constructor
  · intro found
    rw [ofKey?] at found
    split at found
    · next hkey =>
        cases found
        simp [keys, hkey]
    · have hname : field.name = key := by simpa using List.find?_some found
      rw [← hname]
      cases field <;> simp [keys, name]
  · intro hkey
    cases field <;> simp only [keys, List.mem_cons, List.not_mem_nil, or_false] at hkey
    case contentType =>
      rcases hkey with rfl | rfl
      · rfl
      · rfl
    all_goals
      subst hkey
      rfl

theorem mem_all (field : AttachmentField) : field ∈ all := by
  cases field <;> decide

theorem get_empty (field : AttachmentField) : field.get {} = none := by
  cases field <;> rfl

theorem get_put_self (field : AttachmentField) (text : Option String) (attachment : Attachment) :
    field.get (field.put text attachment) = text := by
  cases field <;> rfl

theorem get_put_of_ne {field other : AttachmentField} (different : other ≠ field)
    (text : Option String) (attachment : Attachment) :
    other.get (field.put text attachment) = other.get attachment := by
  cases field <;> cases other <;> first | rfl | exact absurd rfl different

end AttachmentField

/-- A description is what it holds in its members. -/
theorem Attachment.ext_get {first second : Attachment}
    (same : ∀ field : AttachmentField, field.get first = field.get second) : first = second := by
  obtain ⟨fileName, path, content, encoding, contentType⟩ := first
  have hname : fileName = second.fileName := same .fileName
  have hpath : path = second.path := same .path
  have hcontent : content = second.content := same .content
  have hencoding : encoding = second.encoding := same .encoding
  have htype : contentType = second.contentType := same .contentType
  rw [hname, hpath, hcontent, hencoding, htype]

/-! ## Forms -/

/-- A text as a value. Null stands for none. -/
def textOrNull : Option String → Value
  | none => .null
  | some text => .string text

theorem AttachmentField.read_eq_ok_iff {field : AttachmentField} {value : Value}
    {text : Option String} : field.read value = .ok text ↔ value = textOrNull text := by
  cases text <;> cases value <;> simp [read, textOrNull]

/-- The entries of an object under the keys of a member. -/
def AttachmentField.entries (field : AttachmentField) (members : Members) : Members :=
  members.filter fun member => member.1 ∈ field.keys

/-- How an object gives a member of a description: under one of its keys and under no other, or, if
there is nothing to give, not at all. -/
inductive AttachmentField.GivenBy (field : AttachmentField) (members : Members) :
    Option String → Prop
  | leftOut (absent : field.entries members = []) : GivenBy field members none
  | entry {key : String} {text : Option String}
      (only : field.entries members = [(key, textOrNull text)]) : GivenBy field members text

/-- The forms in which a description is written: an object that gives every member, whatever else it
holds, or an array of the members in their order. -/
inductive Attachment.WrittenAs (attachment : Attachment) : Value → Prop
  | object {members : Members}
      (given : ∀ field : AttachmentField, field.GivenBy members (field.get attachment)) :
      WrittenAs attachment (.object members)
  | array : WrittenAs attachment (.array [textOrNull attachment.fileName,
      textOrNull attachment.path, textOrNull attachment.content, textOrNull attachment.encoding,
      textOrNull attachment.contentType])

/-! ## Reading one description -/

theorem AttachmentField.entries_cons (field : AttachmentField) (key : String) (value : Value)
    (members : Members) :
    field.entries ((key, value) :: members) =
      if ofKey? key = some field then (key, value) :: field.entries members
      else field.entries members := by
  by_cases hkey : key ∈ field.keys
  · simp [entries, hkey, ofKey?_eq_some_iff]
  · simp [entries, hkey, ofKey?_eq_some_iff]

/-- What the entries of an object make of a member: without one it stays as it is, and with one, if
it was not seen before, it is what this entry says. -/
def AttachmentField.ReadFrom (seen : List AttachmentField) (members : Members)
    (attachment result : Attachment) (field : AttachmentField) : Prop :=
  (field.entries members = [] ∧ field.get result = field.get attachment) ∨
    (field ∉ seen ∧ ∃ key, field.entries members = [(key, textOrNull (field.get result))])

namespace Attachment

variable {attachment result : Attachment} {seen : List AttachmentField} {members : Members}
  {key : String} {value : Value}

theorem readFrom_nil_iff :
    (∀ field : AttachmentField, field.ReadFrom seen [] attachment result) ↔
      attachment = result := by
  constructor
  · intro same
    refine ext_get fun field => ?_
    rcases same field with ⟨-, heq⟩ | ⟨-, key, hentry⟩
    · exact heq.symm
    · cases hentry
  · rintro rfl field
    exact .inl ⟨rfl, rfl⟩

theorem readFrom_cons_of_eq_none (foreign : AttachmentField.ofKey? key = none)
    (field : AttachmentField) :
    field.ReadFrom seen ((key, value) :: members) attachment result ↔
      field.ReadFrom seen members attachment result := by
  simp [AttachmentField.ReadFrom, AttachmentField.entries_cons, foreign]

/-- The entry of a member is its only one if the member counts as seen for those that follow. -/
theorem readFrom_cons_iff {found : AttachmentField}
    (named : AttachmentField.ofKey? key = some found) :
    (∀ field : AttachmentField,
        field.ReadFrom seen ((key, value) :: members) attachment result) ↔
      found ∉ seen ∧ ∃ text, value = textOrNull text ∧
        ∀ field : AttachmentField,
          field.ReadFrom (found :: seen) members (found.put text attachment) result := by
  have hself : found.entries ((key, value) :: members) = (key, value) :: found.entries members := by
    rw [AttachmentField.entries_cons, if_pos named]
  have hother : ∀ field, field ≠ found →
      field.entries ((key, value) :: members) = field.entries members := by
    intro field different
    rw [AttachmentField.entries_cons, named, if_neg fun heq => different (Option.some.inj heq).symm]
  constructor
  · intro given
    obtain ⟨hnew, hvalue, hnil⟩ : found ∉ seen ∧ value = textOrNull (found.get result) ∧
        found.entries members = [] := by
      simpa [AttachmentField.ReadFrom, hself] using given found
    refine ⟨hnew, found.get result, hvalue, fun field => ?_⟩
    by_cases hfield : field = found
    · subst hfield
      exact .inl ⟨hnil, (AttachmentField.get_put_self ..).symm⟩
    · rw [AttachmentField.ReadFrom, AttachmentField.get_put_of_ne hfield, ← hother field hfield,
        List.mem_cons, not_or, and_iff_right hfield]
      exact given field
  · rintro ⟨hnew, text, rfl, given⟩ field
    by_cases hfield : field = found
    · subst hfield
      obtain ⟨hnil, hget⟩ : field.entries members = [] ∧ field.get result = text := by
        simpa [AttachmentField.ReadFrom, AttachmentField.get_put_self] using given field
      exact .inr ⟨hnew, key, by rw [hself, hnil, hget]⟩
    · have hgiven := given field
      rwa [AttachmentField.ReadFrom, AttachmentField.get_put_of_ne hfield, ← hother field hfield,
        List.mem_cons, not_or, and_iff_right hfield] at hgiven

theorem readMembers_eq_ok_iff :
    readMembers attachment seen members = .ok result ↔
      ∀ field : AttachmentField, field.ReadFrom seen members attachment result := by
  induction members generalizing attachment seen with
  | nil => rw [readMembers, readFrom_nil_iff, Except.ok.injEq]
  | cons member members ih =>
      obtain ⟨key, value⟩ := member
      rw [readMembers]
      cases named : AttachmentField.ofKey? key with
      | none => simp only [readFrom_cons_of_eq_none named, ih]
      | some found =>
          rw [readFrom_cons_iff named]
          by_cases hseen : found ∈ seen
          · simp [hseen]
          · simp only [List.contains_iff_mem, hseen, ↓reduceIte, not_false_eq_true, true_and,
              bind_eq_ok_iff, AttachmentField.read_eq_ok_iff, ih]

/-- Reading an array goes through when its items are the members in their order. -/
theorem readItems_eq_ok_iff {length : Nat} {fields : List AttachmentField} {items : List Value}
    (distinct : fields.Nodup) :
    readItems length attachment fields items = .ok result ↔
      items = fields.map (fun field => textOrNull (field.get result)) ∧
        ∀ field ∉ fields, field.get result = field.get attachment := by
  induction fields generalizing attachment items with
  | nil =>
      cases items with
      | nil =>
          rw [readItems, Except.ok.injEq]
          constructor
          · rintro rfl
            exact ⟨rfl, fun _ _ => rfl⟩
          · exact fun same => ext_get fun field => (same.2 field List.not_mem_nil).symm
      | cons item items => simp [readItems]
  | cons field fields ih =>
      obtain ⟨hfresh, hdistinct⟩ := List.nodup_cons.1 distinct
      cases items with
      | nil => simp [readItems]
      | cons item items =>
          rw [readItems]
          simp only [bind_eq_ok_iff, AttachmentField.read_eq_ok_iff, ih hdistinct, List.map_cons,
            List.cons.injEq]
          constructor
          · rintro ⟨text, rfl, hitems, hrest⟩
            have hget := hrest field hfresh
            rw [AttachmentField.get_put_self] at hget
            refine ⟨⟨by rw [hget], hitems⟩, fun other hother => ?_⟩
            obtain ⟨hne, hnot⟩ := not_or.1 (mt List.mem_cons.2 hother)
            rw [hrest other hnot, AttachmentField.get_put_of_ne hne]
          · rintro ⟨⟨hitem, hitems⟩, hrest⟩
            refine ⟨field.get result, hitem, hitems, fun other hother => ?_⟩
            by_cases hsame : other = field
            · rw [hsame, AttachmentField.get_put_self]
            · rw [AttachmentField.get_put_of_ne hsame]
              exact hrest other fun hmem => (List.mem_cons.1 hmem).elim hsame hother

/-- Before anything is read, a member is nothing and none was seen. -/
theorem readFrom_iff_givenBy {field : AttachmentField} :
    field.ReadFrom [] members {} attachment ↔ field.GivenBy members (field.get attachment) := by
  constructor
  · rintro (⟨hnil, hget⟩ | ⟨-, key, hentry⟩)
    · rw [hget, AttachmentField.get_empty]
      exact .leftOut hnil
    · exact .entry hentry
  · intro given
    generalize hget : field.get attachment = text at given
    cases given with
    | leftOut absent => exact .inl ⟨absent, hget.trans (AttachmentField.get_empty field).symm⟩
    | entry only => exact .inr ⟨List.not_mem_nil, _, by rw [hget, only]⟩

/-- A value is read as a description exactly when it is one of its forms. -/
theorem read_eq_ok_iff : read value = .ok attachment ↔ attachment.WrittenAs value := by
  constructor
  · intro accepted
    cases value with
    | object members =>
        have hread := readMembers_eq_ok_iff.1 accepted
        exact .object fun field => readFrom_iff_givenBy.1 (hread field)
    | array items =>
        obtain ⟨rfl, -⟩ := (readItems_eq_ok_iff (by decide)).1 accepted
        exact .array
    | null | bool _ | number _ | string _ => cases accepted
  · intro written
    cases written with
    | object given =>
        exact readMembers_eq_ok_iff.2 fun field => readFrom_iff_givenBy.2 (given field)
    | array =>
        refine (readItems_eq_ok_iff (by decide)).2 ⟨rfl, fun field hfield => ?_⟩
        exact absurd (AttachmentField.mem_all field) hfield

end Attachment

/-! ## Lists of descriptions -/

/-- What is given as the attachments lists descriptions: nothing and null list none, and an array
lists those of which its items are forms, in order. -/
inductive Attachment.Listed : Option Value → List Attachment → Prop
  | absent : Listed none []
  | null : Listed (some .null) []
  | items {items : List Value} {attachments : List Attachment}
      (written : List.Forall₂ (fun item attachment => WrittenAs attachment item) items
        attachments) :
      Listed (some (.array items)) attachments

/-- What is given as the attachments is refused: it is another value than null and an array, or an
array with an item that is no form of any description. -/
inductive Attachment.IsRefused : Option Value → Prop
  | notAList {given : Value} (other : given ≠ .null) (noList : ∀ items, given ≠ .array items) :
      IsRefused (some given)
  | item {items : List Value} {item : Value} (hitem : item ∈ items)
      (formless : ∀ attachment, ¬ WrittenAs attachment item) : IsRefused (some (.array items))

namespace Attachment

theorem readAll_eq_ok_iff {given : Option Value} {attachments : List Attachment} :
    readAll given = .ok attachments ↔ Listed given attachments := by
  constructor
  · intro accepted
    match given with
    | none =>
        cases accepted
        exact .absent
    | some .null =>
        cases accepted
        exact .null
    | some (.array items) =>
        rw [readAll, mapM_eq_ok_iff] at accepted
        exact .items (accepted.imp fun _ _ => read_eq_ok_iff.1)
    | some (.bool _) | some (.number _) | some (.string _) | some (.object _) => cases accepted
  · intro listed
    cases listed with
    | absent => rfl
    | null => rfl
    | items written =>
        rw [readAll, mapM_eq_ok_iff]
        exact written.imp fun _ _ => read_eq_ok_iff.2

/-- A value is no form of any description exactly when reading it fails. -/
theorem exists_read_eq_error_iff {item : Value} :
    (∃ fault, read item = .error fault) ↔ ∀ attachment, ¬ WrittenAs attachment item := by
  simp only [← read_eq_ok_iff]
  cases read item with
  | error fault => simp
  | ok attachment => simp

theorem exists_readAll_eq_error_iff {given : Option Value} :
    (∃ fault, readAll given = .error fault) ↔ IsRefused given := by
  constructor
  · rintro ⟨fault, refused⟩
    match given with
    | none | some .null => cases refused
    | some (.array items) =>
        refine by_contra fun unrefused => ?_
        have clean : ∀ item ∈ items, ∀ fault, ¬ read item = .error fault :=
          fun item hitem fault hfault =>
            unrefused (.item hitem (exists_read_eq_error_iff.1 ⟨fault, hfault⟩))
        obtain ⟨attachments, accepted⟩ := (Follows.mapM read items).exists_eq_ok_iff.2 clean
        cases accepted.symm.trans refused
    | some (.bool _) | some (.number _) | some (.string _) | some (.object _) =>
        exact .notAList (by simp) (by simp)
  · intro refused
    cases refused with
    | notAList other noList => exact ⟨_, readAll_of_notAList other noList⟩
    | @item items item hitem formless =>
        obtain ⟨fault, hfault⟩ := exists_read_eq_error_iff.2 formless
        cases hread : readAll (some (.array items)) with
        | error fault => exact ⟨fault, rfl⟩
        | ok attachments =>
            have hnone := (Follows.mapM read items).exists_eq_ok_iff.1 ⟨attachments, hread⟩
            exact absurd hfault (hnone item hitem fault)

/-- Reading accepts exactly the lists of which every item is a form of a description. It gives the
descriptions that were written, all of them and in order, and none where nothing or null is given.
Everything else is refused as a whole. -/
theorem readAll_listed (given : Option Value) :
    (∀ attachments, readAll given = .ok attachments ↔ Listed given attachments) ∧
      ((∃ fault, readAll given = .error fault) ↔ IsRefused given) :=
  ⟨fun _ => readAll_eq_ok_iff, exists_readAll_eq_error_iff⟩

/-- The two forms in one list: an object with a foreign member and the second key of the type, and
an array. -/
example :
    readAll (some (.array
      [.object [("content", .string "a,b"), ("content_type", .string "text/csv"),
          ("encoding", .null), ("size", .ofNat 3)],
        .array [.string "b.txt", .null, .string "b", .null, .null]])) =
      .ok [{ content := some "a,b", contentType := some "text/csv" },
        { fileName := some "b.txt", content := some "b" }] :=
  rfl

end Attachment

end MailMerge.Mail
