/-
# Media types of files

The media type that the name of a file stands for. Which name has which type is kept in a registry,
and any registry will do that knows a type for every name. A short one goes by the endings of names;
endings that it does not know stand for a row of bytes.
-/

import MailMerge.Host.FileName
import MailMerge.Mail.MediaType

namespace MailMerge.Mail

open MailMerge.Host MailMerge.Text

/-- The media types that the names of files stand for. -/
class FileTypes where
  /-- The text of the media type of a file with the given name. -/
  textOf : String → String
  /-- The text is that of a media type. -/
  isOk_read (name : String) : (MediaType.read (textOf name)).isOk

/-! ## A short registry -/

/-- The types of known endings. -/
def knownTypes : List (String × String) := [
  ("txt", "text/plain"), ("c", "text/plain"), ("html", "text/html"), ("htm", "text/html"),
  ("pdf", "application/pdf"), ("png", "image/png"), ("jpg", "image/jpeg"),
  ("jpeg", "image/jpeg"), ("gif", "image/gif"), ("csv", "text/csv"),
  ("json", "application/json"), ("xml", "text/xml"), ("zip", "application/zip"),
  ("md", "text/markdown"), ("js", "text/javascript"), ("css", "text/css"),
  ("svg", "image/svg+xml"), ("mp3", "audio/mpeg"), ("doc", "application/msword"),
  ("docx", "application/vnd.openxmlformats-officedocument.wordprocessingml.document"),
  ("xlsx", "application/vnd.openxmlformats-officedocument.spreadsheetml.sheet"),
  ("ics", "text/calendar"), ("eml", "message/rfc822"), ("gz", "application/gzip")]

/-- The type of a row of bytes. -/
def unknownType : String := "application/octet-stream"

/-- The type of a file by the ending of its name. -/
def typeByEnding (name : String) : String :=
  match (lastName? name.toList).bind ending? with
  | some ending => (knownTypes.lookup (lowercase (String.ofList ending))).getD unknownType
  | none => unknownType

theorem typeByEnding_mem (name : String) :
    typeByEnding name ∈ unknownType :: knownTypes.map Prod.snd := by
  unfold typeByEnding
  split
  · next ending _ =>
    cases hfound : knownTypes.lookup (lowercase (String.ofList ending)) with
    | none => exact List.mem_cons_self
    | some known =>
      obtain ⟨before, after, hsplit, -⟩ := List.lookup_eq_some_iff.1 hfound
      rw [hsplit]
      simp
  · exact List.mem_cons_self

/-- Every type of a known ending is written as a media type, and so is that of the others. -/
theorem isOk_read_typeByEnding (name : String) : (MediaType.read (typeByEnding name)).isOk := by
  have written : ∀ text ∈ unknownType :: knownTypes.map Prod.snd,
      (MediaType.read text).isOk := by decide +kernel
  exact written _ (typeByEnding_mem name)

/-- The types of known endings, where no other registry is given. -/
instance (priority := low) knownEndings : FileTypes where
  textOf := typeByEnding
  isOk_read := isOk_read_typeByEnding

end MailMerge.Mail
