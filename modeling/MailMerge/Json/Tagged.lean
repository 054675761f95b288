/-
# Tagged values

A value whose kind is told by a tag: an object with the tag as its only key, or the tag alone as a
string where the kind carries nothing. Bodies and trace levels are written this way.
-/

import MailMerge.Json.Reader

namespace MailMerge.Json

/-- The failure where a tag is due. A token that is a value of its own is unexpected; anything
else breaks the text. -/
def tagMismatch : Ending → ReadFailure
  | .broken (some (.number (some _))) | .broken (some (.bool _)) | .broken (some .null)
  | .broken (some .openBrace) | .broken (some .openBracket) => .unexpected
  | _ => .malformed

/-- Read a tagged value. `known` gives the reader of what a tag carries, and `alone` says what a
tag by itself means. -/
def readTagged {α : Type} (known : String → Option (Outline → Except ReadFailure α))
    (alone : String → Except ReadFailure α) : Outline → Except ReadFailure α
  | .object [] ending => .error (tagMismatch ending)
  | .object ((tag, value) :: more) ending => do
    let tag ← readKey tag
    match known tag with
    | none => .error .unexpected
    | some read =>
      let result ← read value
      if more.isEmpty then
        ending.check
        return result
      else .error .malformed
  | .string (some tag) => alone tag
  | _ => .error .malformed

end MailMerge.Json
