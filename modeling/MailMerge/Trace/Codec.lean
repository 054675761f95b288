/-
# Trace entries in JSON

An entry as an object of its message and its metadata. The metadata is one flat object: the time,
the level and the annotations in the order of their names.
-/

import MailMerge.Json.Tagged
import MailMerge.Time.Timestamp
import MailMerge.Trace.Basic

namespace MailMerge.Trace

open MailMerge.Json MailMerge.Time

/-- The text of an entry. -/
def Entry.write (entry : Entry) : List Char :=
  writeObject [("message", writeString entry.message),
    ("metadata", writeObject
      ([("timestamp", '"' :: entry.timestamp.write ++ ['"']),
        ("level", writeString entry.level.name)] ++ writeMembers entry.extra))]

/-- Null, which a level tag may carry. -/
def readNull (level : Level) : Outline → Except ReadFailure Level
  | .null => .ok level
  | other => .error other.mismatch

/-- Read a level: its name, alone or as a tag that carries null. -/
def readLevel : Outline → Except ReadFailure Level :=
  readTagged (fun tag => (Level.ofName? tag).map readNull) fun tag =>
    match Level.ofName? tag with
    | some level => .ok level
    | none => .error .unexpected

/-- Read a timestamp. -/
def readTimestamp (outline : Outline) : Except ReadFailure Utc := do
  let text ← outline.toText
  match Utc.read? text.toList with
  | some time => .ok time
  | none => .error .unexpected

/-- The metadata of an entry while it is being read. -/
structure MetadataDraft where
  timestamp : Option Utc := none
  level : Option Level := none
  extra : Members := []

/-- How deep an annotation may nest inside its entry. -/
def annotationRoom : Nat := nestingLimit - 2

namespace MetadataDraft

/-- Read the members of the metadata in text order. The two fields of its own may not be given
twice; of two annotations with one name the later counts. -/
def readMembers (draft : MetadataDraft) :
    List (Option String × Outline) → Except ReadFailure MetadataDraft
  | [] => .ok draft
  | (name, outline) :: members => do
    let name ← readKey name
    let draft ←
      if name = "timestamp" then
        if draft.timestamp.isSome then .error .unexpected
        else (readTimestamp outline).map fun time => { draft with timestamp := some time }
      else if name = "level" then
        if draft.level.isSome then .error .unexpected
        else (readLevel outline).map fun level => { draft with level := some level }
      else
        (outline.toValue annotationRoom).map fun value =>
          { draft with extra := draft.extra.insert name value }
    readMembers draft members

end MetadataDraft

/-- Read the metadata of an entry, which must be an object. -/
def readMetadata : Outline → Except ReadFailure MetadataDraft
  | .object members ending => do
    let draft ← MetadataDraft.readMembers {} members
    ending.check
    if draft.timestamp.isSome ∧ draft.level.isSome then return draft else .error .unexpected
  | other => .error other.mismatch

/-- The two fields of an entry while it is being read. -/
structure EntryDraft where
  message : Option String := none
  metadata : Option MetadataDraft := none

namespace EntryDraft

/-- Read the members of an entry in text order. -/
def readMembers (draft : EntryDraft) :
    List (Option String × Outline) → Except ReadFailure EntryDraft
  | [] => .ok draft
  | (name, outline) :: members => do
    let name ← readKey name
    let draft ←
      if name = "message" then
        if draft.message.isSome then .error .unexpected
        else outline.toText.map fun message => { draft with message := some message }
      else if name = "metadata" then
        if draft.metadata.isSome then .error .unexpected
        else (readMetadata outline).map fun metadata => { draft with metadata := some metadata }
      else do
        outline.skip
        pure draft
    readMembers draft members

/-- The entry of a draft that has all its fields. -/
def finish (draft : EntryDraft) : Except ReadFailure Entry :=
  match draft.message, draft.metadata with
  | some message, some ⟨some timestamp, some level, extra⟩ => .ok ⟨message, timestamp, level, extra⟩
  | _, _ => .error .unexpected

end EntryDraft

/-- Read an entry from an outline: an object, or an array of the message and the metadata. -/
def Entry.ofOutline : Outline → Except ReadFailure Entry
  | .object members ending => do
    let draft ← EntryDraft.readMembers {} members
    ending.check
    draft.finish
  | .array items ending => do
    match items with
    | [] =>
      ending.check
      .error .unexpected
    | [message] =>
      let _ ← message.toText
      ending.check
      .error .unexpected
    | message :: metadata :: more =>
      let message ← message.toText
      let metadata ← readMetadata metadata
      if more.isEmpty then
        ending.check
        EntryDraft.finish ⟨some message, some metadata⟩
      else .error .malformed
  | other => .error other.mismatch

/-- Read an entry from a JSON text. -/
def Entry.parse (text : String) : Except ReadFailure Entry :=
  readDocument Entry.ofOutline text

end MailMerge.Trace
