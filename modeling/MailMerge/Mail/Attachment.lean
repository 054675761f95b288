/-
# Attachments

The description of an attachment and how it becomes a part of a mail. An attachment is described by
an object, of which unknown members are ignored, or by an array of its five members. What it holds
stands in the description, as text or in base64, or else in a file.
-/

import MailMerge.Host.FileSystem
import MailMerge.Json.Printer
import MailMerge.Mail.FileType
import MailMerge.Mail.Part
import MailMerge.Text.Blank
import MailMerge.Text.Quoted

namespace MailMerge.Mail

open MailMerge.Host MailMerge.Json MailMerge.Text

/-- The description of an attachment. -/
structure Attachment where
  fileName : Option String := none
  path : Option String := none
  content : Option String := none
  encoding : Option String := none
  contentType : Option String := none
  deriving DecidableEq, Repr

/-- A member of a description. -/
inductive AttachmentField where
  | fileName
  | path
  | content
  | encoding
  | contentType
  deriving DecidableEq, Repr

namespace AttachmentField

/-- The members in the order of an array. -/
def all : List AttachmentField := [.fileName, .path, .content, .encoding, .contentType]

/-- The name of a member. -/
def name : AttachmentField → String
  | .fileName => "filename"
  | .path => "path"
  | .content => "content"
  | .encoding => "encoding"
  | .contentType => "contentType"

/-- The member that a key denotes. The type has a second key. -/
def ofKey? (key : String) : Option AttachmentField :=
  if key = "content_type" then some .contentType else all.find? fun field => field.name == key

/-- What a member is expected to be. -/
def expectation : AttachmentField → String
  | .path => "path string"
  | _ => "a string"

/-- Give a member of a description its value. -/
def put (text : Option String) (attachment : Attachment) : AttachmentField → Attachment
  | .fileName => { attachment with fileName := text }
  | .path => { attachment with path := text }
  | .content => { attachment with content := text }
  | .encoding => { attachment with encoding := text }
  | .contentType => { attachment with contentType := text }

end AttachmentField

/-- Why an attachment cannot be described or loaded. -/
inductive AttachmentFault where
  | notAList
  /-- A value of another kind than expected. -/
  | wrongKind (found : Value) (expectation : String)
  /-- A member under both its keys. -/
  | duplicate (field : AttachmentField)
  /-- An array with too few members. -/
  | tooShort (length : Nat)
  /-- An array with too many members. -/
  | tooLong (length : Nat)
  /-- Neither a content nor a path. -/
  | noSource (fileName : String)
  | base64 (fileName : String) (fault : Base64Fault)
  | contentType (fileName : String) (fault : MediaTypeFault)
  | unreadable (path : String) (fault : FileFault)

/-- The kind of a value, and what it says when that is short. -/
def describeValue : Value → List Char
  | .null => "null".toList
  | .bool b => "boolean `".toList ++ (Value.bool b).write ++ ['\x60']
  | .number (.integer n) => "integer `".toList ++ (Number.integer n).write ++ ['\x60']
  | .number (.float x) => "floating point `".toList ++ (Number.float x).write ++ ['\x60']
  | .string s => "string ".toList ++ quoted s
  | .array _ => "sequence".toList
  | .object _ => "map".toList

/-- The text of a fault. -/
def AttachmentFault.message : AttachmentFault → String
  | .notAList => "attachments must be a list"
  | .wrongKind found expectation =>
    "invalid type: " ++ String.ofList (describeValue found) ++ ", expected " ++ expectation
  | .duplicate field => "duplicate field `" ++ field.name ++ "`"
  | .tooShort length =>
    "invalid length " ++ decimal length ++ ", expected struct AttachmentSpec with 5 elements"
  | .tooLong length =>
    "invalid length " ++ decimal length ++ ", expected fewer elements in array"
  | .noSource fileName => fileName ++ ": needs either content or path"
  | .base64 fileName fault => fileName ++ ": invalid base64: " ++ fault.message
  | .contentType fileName fault => fileName ++ ": invalid content type: " ++ fault.message
  | .unreadable path fault => path ++ ": " ++ fault.message

/-! ## Descriptions -/

/-- Read the value of a member, which null leaves out. -/
def AttachmentField.read (field : AttachmentField) :
    Value → Except AttachmentFault (Option String)
  | .null => .ok none
  | .string s => .ok (some s)
  | other => .error (.wrongKind other field.expectation)

namespace Attachment

/-- Read the members of an object in order. `seen` holds those that were read before. -/
def readMembers (attachment : Attachment) (seen : List AttachmentField) :
    Members → Except AttachmentFault Attachment
  | [] => .ok attachment
  | (key, value) :: members =>
    match AttachmentField.ofKey? key with
    | none => readMembers attachment seen members
    | some field =>
      if seen.contains field then .error (.duplicate field)
      else do
        let text ← field.read value
        readMembers (field.put text attachment) (field :: seen) members

/-- Read the items of an array as the members in order. `length` is the length of the array. -/
def readItems (length : Nat) (attachment : Attachment) :
    List AttachmentField → List Value → Except AttachmentFault Attachment
  | [], [] => .ok attachment
  | [], _ :: _ => .error (.tooLong length)
  | _ :: _, [] => .error (.tooShort length)
  | field :: fields, item :: items => do
    let text ← field.read item
    readItems length (field.put text attachment) fields items

/-- Read a description. -/
def read : Value → Except AttachmentFault Attachment
  | .object members => readMembers {} [] members
  | .array items => readItems items.length {} AttachmentField.all items
  | other => .error (.wrongKind other "struct AttachmentSpec")

/-- Read the descriptions of all attachments. Null stands for none. -/
def readAll : Option Value → Except AttachmentFault (List Attachment)
  | none | some .null => .ok []
  | some (.array items) => items.mapM read
  | some _ => .error .notAList

/-! ## Loading -/

/-- The file name of an attachment with the given place in the list: the given one, the last name
of its path, or one made of its place. -/
def nameAt (attachment : Attachment) (index : Nat) : String :=
  let ofPath := (attachment.path.bind fun path => lastName? path.toList).map String.ofList
  (attachment.fileName.or ofPath).getD ("attachment-" ++ decimal (index + 1))

/-- The content stands in the description in base64. -/
def isBase64 (attachment : Attachment) : Bool :=
  (attachment.encoding.map fun encoding => sameIgnoringCase encoding "base64").getD false

/-- The bytes of an attachment. A content is preferred to a path. -/
def load (files : FileSystem) (fileName : String) (attachment : Attachment) :
    Except AttachmentFault (List UInt8) :=
  match attachment.content, attachment.path with
  | some content, _ =>
    if attachment.isBase64 then
      (base64Decode (encode (trim content.toList))).mapError (.base64 fileName)
    else .ok (encode content.toList)
  | none, some path => (files.readBytes path).mapError (.unreadable path)
  | none, none => .error (.noSource fileName)

/-- The part of an attachment with the given place in the list. The type is judged before the
bytes are looked for. -/
def part [FileTypes] (files : FileSystem) (attachment : Attachment) (index : Nat) :
    Except AttachmentFault Part := do
  let fileName := attachment.nameAt index
  let typeText := attachment.contentType.getD (FileTypes.textOf fileName)
  let mediaType ← (MediaType.read typeText).mapError (.contentType fileName)
  let bytes ← attachment.load files fileName
  return ⟨some fileName.toList, mediaType, .bytes bytes⟩

/-- The parts of attachments, the first of which has the given place in the list. -/
def parts [FileTypes] (files : FileSystem) (index : Nat) :
    List Attachment → Except AttachmentFault (List Part)
  | [] => .ok []
  | attachment :: attachments => do
    let part ← attachment.part files index
    let parts ← parts files (index + 1) attachments
    return part :: parts

end Attachment

end MailMerge.Mail
