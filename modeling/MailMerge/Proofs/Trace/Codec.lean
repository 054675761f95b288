/-
# Entries survive their text

An entry that was recorded or read keeps its own names clear of annotations and its
annotations in order. The text of such an entry spells one object whose keys are distinct
throughout, and it reads as the entry itself.
-/

import MailMerge.Proofs.Json.Reader
import MailMerge.Proofs.Json.Spelling
import MailMerge.Proofs.Time.Timestamp
import MailMerge.Trace.Codec

namespace MailMerge.Trace

open MailMerge.Json MailMerge.Stage MailMerge.Text MailMerge.Time

/-! ## Entries that arise -/

/-- Annotations in order, none under a name that belongs to the entry. -/
structure AreAnnotations (extra : Members) : Prop where
  unreserved : ∀ name ∈ reservedNames, name ∉ extra.keys
  ordered : (Value.object extra).IsOrdered

theorem areAnnotations_nil : AreAnnotations [] where
  unreserved := by simp [Members.keys]
  ordered := Value.isOrdered_object List.Pairwise.nil (by simp)

theorem AreAnnotations.insert {extra : Members} (annotations : AreAnnotations extra)
    {name : String} (hname : name ∉ reservedNames) {value : Value} (hvalue : value.IsOrdered) :
    AreAnnotations (extra.insert name value) where
  unreserved := by
    intro reserved hreserved hkey
    rcases Members.mem_keys_insert hkey with rfl | hkey
    · exact hname hreserved
    · exact annotations.unreserved reserved hreserved hkey
  ordered := annotations.ordered.insert name hvalue

theorem AreAnnotations.foldl_insert {pairs : List (String × Value)}
    (hpairs : ∀ pair ∈ pairs, pair.1 ∉ reservedNames ∧ pair.2.IsOrdered) {extra : Members}
    (annotations : AreAnnotations extra) :
    AreAnnotations (pairs.foldl (fun members pair => members.insert pair.1 pair.2) extra) := by
  induction pairs generalizing extra with
  | nil => exact annotations
  | cons pair pairs ih =>
      obtain ⟨⟨hname, hvalue⟩, hpairs⟩ := List.forall_mem_cons.1 hpairs
      exact ih hpairs (annotations.insert hname hvalue)

/-- The name of an annotation belongs to no entry. -/
theorem annotationName_not_mem (name : String) : annotationName name ∉ reservedNames := by
  have hlong : ∀ reserved ∈ reservedNames, "annotation." ++ reserved ∉ reservedNames := by decide
  unfold annotationName
  split
  · next hreserved => exact hlong name (by simpa using hreserved)
  · next hfree => simpa using hfree

/-- The time can be told and the annotations are in order. -/
structure Entry.IsSound (entry : Entry) : Prop where
  timestamp : entry.timestamp.isValid
  annotations : AreAnnotations entry.extra

/-- An entry arises by recording an event at some time or by reading a text. -/
inductive Entry.Arises : Entry → Prop
  | recorded (event : Event) (now : Utc) (hnow : now.isValid)
      (hvalues : ∀ annotation ∈ event.annotations, annotation.2.IsOrdered) :
      Arises (event.entry now)
  | read (text : String) {entry : Entry} (hread : Entry.parse text = .ok entry) : Arises entry

/-- A recorded event keeps its annotations clear of the names of the entry. -/
theorem Event.isSound_entry {event : Event} {now : Utc} (hnow : now.isValid)
    (hvalues : ∀ annotation ∈ event.annotations, annotation.2.IsOrdered) :
    (event.entry now).IsSound := by
  refine ⟨hnow, AreAnnotations.foldl_insert ?_ areAnnotations_nil⟩
  rw [List.forall_mem_map]
  exact fun annotation hannotation =>
    ⟨annotationName_not_mem annotation.1, hvalues annotation hannotation⟩

/-! ## Entries that were read -/

theorem isValid_of_readTimestamp {outline : Outline} {time : Utc}
    (hread : readTimestamp outline = .ok time) : time.isValid := by
  obtain ⟨text, -, hread⟩ := bind_eq_ok_iff.1 hread
  split at hread
  · next htime =>
      cases hread
      exact Utc.isValid_of_mem_read? _ time htime
  · cases hread

namespace MetadataDraft

/-- What has been read of the metadata so far is sound. -/
structure IsSound (draft : MetadataDraft) : Prop where
  timestamp : ∀ time ∈ draft.timestamp, time.isValid
  annotations : AreAnnotations draft.extra

/-- Reading more members keeps the metadata sound: the names of the entry are taken up by its
fields, and every other name is an annotation. -/
theorem IsSound.readMembers {members : List (Option String × Outline)}
    {draft result : MetadataDraft} (sound : draft.IsSound)
    (hread : draft.readMembers members = .ok result) : result.IsSound := by
  induction members generalizing draft with
  | nil =>
      cases hread
      exact sound
  | cons member members ih =>
      obtain ⟨key, outline⟩ := member
      rw [MetadataDraft.readMembers] at hread
      obtain ⟨name, -, hread⟩ := bind_eq_ok_iff.1 hread
      split_ifs at hread with htimestamp _ hlevel
      · cases hread
      · obtain ⟨_, hfield, hread⟩ := bind_eq_ok_iff.1 hread
        obtain ⟨time, htime, rfl⟩ := map_eq_ok_iff.1 hfield
        have hnext : IsSound { draft with timestamp := some time } :=
          ⟨by simpa using isValid_of_readTimestamp htime, sound.annotations⟩
        exact ih hnext hread
      · cases hread
      · obtain ⟨_, hfield, hread⟩ := bind_eq_ok_iff.1 hread
        obtain ⟨level, -, rfl⟩ := map_eq_ok_iff.1 hfield
        have hnext : IsSound { draft with level := some level } :=
          ⟨sound.timestamp, sound.annotations⟩
        exact ih hnext hread
      · obtain ⟨_, hfield, hread⟩ := bind_eq_ok_iff.1 hread
        obtain ⟨value, hvalue, rfl⟩ := map_eq_ok_iff.1 hfield
        have hfree : name ∉ reservedNames := by simp [reservedNames, htimestamp, hlevel]
        have hnext : IsSound { draft with extra := draft.extra.insert name value } :=
          ⟨sound.timestamp,
            sound.annotations.insert hfree (outline.isOrdered_of_toValue hvalue)⟩
        exact ih hnext hread

end MetadataDraft

theorem isSound_of_readMetadata {outline : Outline} {metadata : MetadataDraft}
    (hread : readMetadata outline = .ok metadata) : metadata.IsSound := by
  unfold readMetadata at hread
  split at hread
  · obtain ⟨draft, hdraft, hread⟩ := bind_eq_ok_iff.1 hread
    obtain ⟨_, -, hread⟩ := bind_eq_ok_iff.1 hread
    split at hread
    · cases hread
      exact MetadataDraft.IsSound.readMembers ⟨by simp, areAnnotations_nil⟩ hdraft
    · cases hread
  · cases hread

namespace EntryDraft

/-- The metadata read so far is sound, if it was read. -/
def IsSound (draft : EntryDraft) : Prop :=
  ∀ metadata ∈ draft.metadata, metadata.IsSound

theorem IsSound.readMembers {members : List (Option String × Outline)}
    {draft result : EntryDraft} (sound : draft.IsSound)
    (hread : draft.readMembers members = .ok result) : result.IsSound := by
  induction members generalizing draft with
  | nil =>
      cases hread
      exact sound
  | cons member members ih =>
      obtain ⟨key, outline⟩ := member
      rw [EntryDraft.readMembers] at hread
      obtain ⟨name, -, hread⟩ := bind_eq_ok_iff.1 hread
      split_ifs at hread
      · cases hread
      · obtain ⟨_, hfield, hread⟩ := bind_eq_ok_iff.1 hread
        obtain ⟨message, -, rfl⟩ := map_eq_ok_iff.1 hfield
        have hnext : IsSound { draft with message := some message } := sound
        exact ih hnext hread
      · cases hread
      · obtain ⟨_, hfield, hread⟩ := bind_eq_ok_iff.1 hread
        obtain ⟨metadata, hmetadata, rfl⟩ := map_eq_ok_iff.1 hfield
        have hnext : IsSound { draft with metadata := some metadata } := by
          simpa [IsSound] using isSound_of_readMetadata hmetadata
        exact ih hnext hread
      · obtain ⟨_, -, hread⟩ := bind_eq_ok_iff.1 hread
        exact ih sound hread

theorem IsSound.finish {draft : EntryDraft} (sound : draft.IsSound) {entry : Entry}
    (hfinish : draft.finish = .ok entry) : entry.IsSound := by
  unfold EntryDraft.finish at hfinish
  split at hfinish
  · next hmetadata =>
      cases hfinish
      have hsound := sound _ hmetadata
      exact ⟨hsound.timestamp _ rfl, hsound.annotations⟩
  · cases hfinish

end EntryDraft

/-- An entry that was read is sound, be it given as an object or as an array. -/
theorem Entry.isSound_of_ofOutline {outline : Outline} {entry : Entry}
    (hread : Entry.ofOutline outline = .ok entry) : entry.IsSound := by
  unfold Entry.ofOutline at hread
  split at hread
  · obtain ⟨draft, hdraft, hread⟩ := bind_eq_ok_iff.1 hread
    obtain ⟨_, -, hread⟩ := bind_eq_ok_iff.1 hread
    have hstart : EntryDraft.IsSound {} := by simp [EntryDraft.IsSound]
    exact (hstart.readMembers hdraft).finish hread
  · split at hread
    · obtain ⟨_, -, hread⟩ := bind_eq_ok_iff.1 hread
      cases hread
    · obtain ⟨_, -, hread⟩ := bind_eq_ok_iff.1 hread
      obtain ⟨_, -, hread⟩ := bind_eq_ok_iff.1 hread
      cases hread
    · obtain ⟨message, -, hread⟩ := bind_eq_ok_iff.1 hread
      obtain ⟨metadata, hmetadata, hread⟩ := bind_eq_ok_iff.1 hread
      split at hread
      · obtain ⟨_, -, hread⟩ := bind_eq_ok_iff.1 hread
        have hdraft : EntryDraft.IsSound ⟨some message, some metadata⟩ := by
          simpa [EntryDraft.IsSound] using isSound_of_readMetadata hmetadata
        exact hdraft.finish hread
      · cases hread
  · cases hread

/-- An entry is sound however it arises. -/
theorem Entry.Arises.isSound {entry : Entry} (arises : entry.Arises) : entry.IsSound := by
  cases arises with
  | recorded event now hnow hvalues => exact Event.isSound_entry hnow hvalues
  | read text hread =>
      obtain ⟨result, hresult, hread⟩ := bind_eq_ok_iff.1 hread
      split at hread
      · cases hread
        exact Entry.isSound_of_ofOutline hresult
      · cases hread

/-! ## Outlines of entries -/

/-- The outline of the metadata of an entry. -/
def Entry.metadataOutline (entry : Entry) : Outline :=
  .object ((some "timestamp", .string (some (String.ofList entry.timestamp.write))) ::
    (some "level", .string (some entry.level.name)) :: outlineMembers entry.extra) .closed

/-- The outline of an entry. -/
def Entry.outline (entry : Entry) : Outline :=
  .object [(some "message", .string (some entry.message)),
    (some "metadata", entry.metadataOutline)] .closed

/-- Nothing in a timestamp is escaped. -/
theorem escapeChar_of_isTimestampChar {c : Char} (hc : IsTimestampChar c) : escapeChar c = [c] := by
  rcases hc with hdigit | hmark
  · have hlow : 48 ≤ c.toNat := by
      simp only [isAsciiDigit, Bool.and_eq_true, decide_eq_true_eq] at hdigit
      exact hdigit.1
    have hquote : c ≠ '"' := fun heq => absurd (heq ▸ hlow) (by decide)
    have hbackslash : c ≠ '\\' := fun heq => absurd (heq ▸ hdigit) (by decide)
    unfold escapeChar
    rw [if_neg hquote, if_neg hbackslash]
    repeat rw [if_neg (by omega)]
  · simp only [List.mem_cons, List.not_mem_nil, or_false] at hmark
    rcases hmark with rfl | rfl | rfl | rfl | rfl | rfl
    all_goals rfl

theorem writeString_timestamp (t : Utc) :
    writeString (String.ofList t.write) = '"' :: t.write ++ ['"'] := by
  have hkept : t.write.flatMap escapeChar = t.write.flatMap fun c => [c] :=
    List.flatMap_congr fun c hc => escapeChar_of_isTimestampChar (t.isTimestampChar_write c hc)
  rw [writeString, String.toList_ofList, hkept, List.flatMap_singleton']

/-- The text of an entry with exact annotations spells its outline. -/
theorem Entry.spells_write {entry : Entry}
    (exact : ∀ annotation ∈ entry.extra, annotation.2.IsExact) :
    Spells entry.write entry.outline := by
  have hmessage := (spells_string entry.message).member "message"
  have htimestamp := (spells_string (String.ofList entry.timestamp.write)).member "timestamp"
  have hlevel := (spells_string entry.level.name).member "level"
  have hextra := spellsMember_writeMembers fun annotation hannotation =>
    Value.spells_write (exact annotation hannotation)
  have hmetadata := (spells_object (.cons htimestamp (.cons hlevel hextra))).member "metadata"
  rw [writeString_timestamp] at hmetadata
  exact spells_object (.cons hmessage (.cons hmetadata .nil))

/-- No object within the outline of a sound entry gives a key twice. -/
theorem Entry.IsSound.hasDistinctKeys {entry : Entry} (sound : entry.IsSound) :
    entry.outline.HasDistinctKeys := by
  have hextra := sound.annotations.ordered.hasDistinctKeys
  have hfree (name : String) (hname : name ∈ reservedNames) :
      some name ∉ (outlineMembers entry.extra).map Prod.fst := by
    rw [keys_outlineMembers]
    simpa using sound.annotations.unreserved name hname
  have hmetadata : entry.metadataOutline.HasDistinctKeys := by
    refine Outline.hasDistinctKeys_object ?_ ?_
    · rw [List.map_cons, List.map_cons, List.nodup_cons, List.nodup_cons]
      refine ⟨?_, hfree "level" (by decide),
        nodup_keys_outlineMembers sound.annotations.ordered.keys⟩
      simpa using hfree "timestamp" (by decide)
    · rw [List.forall_mem_cons, List.forall_mem_cons]
      exact ⟨Outline.hasDistinctKeys_string _, Outline.hasDistinctKeys_string _,
        fun _ hmember => hextra.member hmember⟩
  refine Outline.hasDistinctKeys_object (by simp) ?_
  simp only [List.forall_mem_cons]
  exact ⟨Outline.hasDistinctKeys_string _, hmetadata, List.forall_mem_nil _⟩

/-! ## Reading an entry back -/

theorem readTimestamp_write {t : Utc} (valid : t.isValid) :
    readTimestamp (.string (some (String.ofList t.write))) = .ok t := by
  have hread : Utc.read? (String.ofList t.write).toList = some t := by
    rw [String.toList_ofList]
    exact Utc.read?_write valid
  refine bind_eq_ok_iff.2 ⟨_, rfl, ?_⟩
  rw [hread]

theorem readLevel_name (level : Level) : readLevel (.string (some level.name)) = .ok level := by
  cases level <;> rfl

/-- Annotations in order are read one behind the other. -/
theorem MetadataDraft.readMembers_outlineMembers {extra : Members} {draft : MetadataDraft}
    (annotations : AreAnnotations (draft.extra ++ extra))
    (hdepth : ∀ annotation ∈ extra, annotation.2.depth ≤ annotationRoom) :
    draft.readMembers (outlineMembers extra) =
      .ok { draft with extra := draft.extra ++ extra } := by
  induction extra generalizing draft with
  | nil => rw [outlineMembers, MetadataDraft.readMembers, List.append_nil]
  | cons annotation extra ih =>
      obtain ⟨name, value⟩ := annotation
      obtain ⟨hroom, hdepth⟩ := List.forall_mem_cons.1 hdepth
      have hmember : (name, value) ∈ draft.extra ++ (name, value) :: extra := by simp
      have hfree : name ∉ reservedNames := fun hreserved =>
        annotations.unreserved name hreserved (List.mem_map_of_mem hmember)
      have hname : name ≠ "timestamp" ∧ name ≠ "level" := by simpa [reservedNames] using hfree
      have hvalue := Value.toValue_outline (annotations.ordered.member hmember) hroom
      have greatest := Members.forall_lt_of_pairwise annotations.ordered.keys
      rw [List.append_cons, ← Members.insert_eq_append greatest] at annotations ⊢
      have hrest := @ih { draft with extra := draft.extra.insert name value } annotations hdepth
      rw [outlineMembers, MetadataDraft.readMembers, ← hrest]
      simp only [readKey, ok_bind, if_neg hname.1, if_neg hname.2, hvalue, Except.map]

/-- The metadata of a sound entry are read back. -/
theorem readMetadata_metadataOutline {entry : Entry} (sound : entry.IsSound)
    (hdepth : ∀ annotation ∈ entry.extra, annotation.2.depth ≤ annotationRoom) :
    readMetadata entry.metadataOutline =
      .ok ⟨some entry.timestamp, some entry.level, entry.extra⟩ := by
  have hextra := @MetadataDraft.readMembers_outlineMembers entry.extra
    ⟨some entry.timestamp, some entry.level, []⟩ sound.annotations hdepth
  have hmembers : MetadataDraft.readMembers {}
      ((some "timestamp", .string (some (String.ofList entry.timestamp.write))) ::
        (some "level", .string (some entry.level.name)) :: outlineMembers entry.extra) =
      .ok ⟨some entry.timestamp, some entry.level, entry.extra⟩ := by
    simp only [MetadataDraft.readMembers, readKey, ok_bind, if_true, Option.isSome_none,
      Bool.false_eq_true, if_false, readTimestamp_write sound.timestamp, readLevel_name, Except.map,
      String.reduceEq]
    exact hextra
  rw [Entry.metadataOutline, readMetadata, hmembers]
  rfl

/-- The outline of a sound entry reads as the entry. -/
theorem Entry.ofOutline_outline {entry : Entry} (sound : entry.IsSound)
    (hdepth : ∀ annotation ∈ entry.extra, annotation.2.depth ≤ annotationRoom) :
    Entry.ofOutline entry.outline = .ok entry := by
  have hmetadata := readMetadata_metadataOutline sound hdepth
  simp only [Entry.outline, Entry.ofOutline, EntryDraft.readMembers, readKey, ok_bind, if_true,
    Option.isSome_none, Bool.false_eq_true, if_false, Outline.toText, hmetadata, Except.map,
    String.reduceEq]
  rfl

/-- Entries survive their text. However an entry arises, its annotations leave the names of the
entry alone; and when they are exact and nest no deeper than there is room for, no object of its
text gives a key twice, and the text reads as the entry. -/
theorem Entry.parse_write_of_arises {entry : Entry} (arises : entry.Arises)
    (hannotations : ∀ annotation ∈ entry.extra,
      annotation.2.IsExact ∧ annotation.2.depth ≤ 125) :
    (∀ name ∈ reservedNames, name ∉ entry.extra.keys) ∧
      (Document.of (String.ofList entry.write)).root.HasDistinctKeys ∧
      Entry.parse (String.ofList entry.write) = .ok entry := by
  have sound := arises.isSound
  have spelled := Entry.spells_write fun annotation hmember => (hannotations annotation hmember).1
  have hread := Entry.ofOutline_outline sound fun annotation hmember =>
    (hannotations annotation hmember).2
  refine ⟨sound.annotations.unreserved, ?_, ?_⟩
  · rw [spelled.document_of]
    exact sound.hasDistinctKeys
  · rw [Entry.parse, readDocument, spelled.document_of, hread]
    rfl

/-- An annotation with an object inside. -/
def nestedRoutes : Value :=
  .array [.object [("host", .null), ("open", .bool true)], .number (.integer ⟨-25, by decide⟩)]

/-- An event with annotations under both names that belong to entries. -/
def collidingEvent : Event where
  level := .fatal
  message := "gave up:\n\"no route\""
  annotations := [("level", .string "late\\"), ("routes", nestedRoutes), ("timestamp", .null)]

/-- The event recorded in the leap second of a year with five digits. -/
def collidingEntry : Entry :=
  collidingEvent.entry ⟨⟨12016, 12, 31⟩, 23, 59, 60, 123456000⟩

theorem nestedRoutes_isOrdered : nestedRoutes.IsOrdered := by
  refine Value.isOrdered_array (List.forall_mem_cons.2 ⟨Value.isOrdered_object ?_ ?_, ?_⟩)
  · decide
  · simp only [List.forall_mem_cons]
    exact ⟨Value.isOrdered_of_depth_eq_zero rfl, Value.isOrdered_of_depth_eq_zero rfl,
      List.forall_mem_nil _⟩
  · exact List.forall_mem_singleton.2 (Value.isOrdered_of_depth_eq_zero rfl)

theorem nestedRoutes_isExact : nestedRoutes.IsExact := by
  refine Value.isExact_array (List.forall_mem_cons.2 ⟨Value.isExact_object ?_, ?_⟩)
  · simp only [List.forall_mem_cons]
    exact ⟨(fun _ hx => nomatch hx), (fun _ hx => nomatch hx), List.forall_mem_nil _⟩
  · exact List.forall_mem_singleton.2 fun _ hx => nomatch hx

theorem Entry.parse_write_collidingEntry :
    (∀ name ∈ reservedNames, name ∉ collidingEntry.extra.keys) ∧
      (Document.of (String.ofList collidingEntry.write)).root.HasDistinctKeys ∧
      Entry.parse (String.ofList collidingEntry.write) = .ok collidingEntry := by
  have hextra : collidingEntry.extra =
      [("annotation.level", .string "late\\"), ("annotation.timestamp", .null),
        ("routes", nestedRoutes)] := rfl
  refine Entry.parse_write_of_arises (.recorded collidingEvent _ (by decide) ?_) ?_
  · simp only [collidingEvent, List.forall_mem_cons]
    exact ⟨Value.isOrdered_of_depth_eq_zero rfl, nestedRoutes_isOrdered,
      Value.isOrdered_of_depth_eq_zero rfl, List.forall_mem_nil _⟩
  · rw [hextra]
    simp only [List.forall_mem_cons]
    exact ⟨⟨(fun _ hx => nomatch hx), by decide⟩, ⟨(fun _ hx => nomatch hx), by decide⟩,
      ⟨nestedRoutes_isExact, by decide⟩, List.forall_mem_nil _⟩

end MailMerge.Trace
