/-
# Reading JSON

Values and formats read from outlines. A reader fails in one of two ways: the text breaks off being
JSON, or it is JSON so far and says something else than the format asks for. Arrays and objects
nest at most 127 deep wherever a value is kept; what a format ignores may nest deeper.
-/

import MailMerge.Json.Outline

namespace MailMerge.Json

/-- Why a text cannot be read. -/
inductive ReadFailure where
  /-- The text is not JSON, or nests too deep. -/
  | malformed
  /-- The text is JSON so far, but not of the wanted format. -/
  | unexpected
  deriving DecidableEq, Repr

/-- How deep arrays and objects may nest. -/
def nestingLimit : Nat := 127

namespace Ending

/-- An array or an object must be closed where its parts are used up. -/
def check : Ending → Except ReadFailure Unit
  | .closed => .ok ()
  | .broken _ => .error .malformed

end Ending

/-- A key has a value, or the text is malformed. -/
def readKey (key : Option String) : Except ReadFailure String :=
  match key with
  | some key => .ok key
  | none => .error .malformed

mutual

/-- Read a value that may hold `room` levels of arrays and objects. -/
def Outline.toValue (room : Nat) : Outline → Except ReadFailure Value
  | .null => .ok .null
  | .bool b => .ok (.bool b)
  | .number (some n) => .ok (.number n)
  | .number none => .error .malformed
  | .string (some s) => .ok (.string s)
  | .string none => .error .malformed
  | .missing => .error .malformed
  | .array items ending =>
    if room = 0 then .error .malformed
    else do
      let items ← readItems (room - 1) items
      ending.check
      .ok (.array items)
  | .object members ending =>
    if room = 0 then .error .malformed
    else do
      let members ← readMembers (room - 1) [] members
      ending.check
      .ok (.object members)

/-- Read the items of an array in order. -/
def readItems (room : Nat) : List Outline → Except ReadFailure (List Value)
  | [] => .ok []
  | item :: items => do
    let value ← item.toValue room
    let values ← readItems room items
    .ok (value :: values)

/-- Read the members of an object in order, on top of those read before. -/
def readMembers (room : Nat) (before : Members) :
    List (Option String × Outline) → Except ReadFailure Members
  | [] => .ok before
  | (key, outline) :: members => do
    let key ← readKey key
    let value ← outline.toValue room
    readMembers room (before.insert key value) members

end

mutual

/-- The outline is complete: what an ignored part of a text must be. Tokens without a value do no
harm there. -/
def Outline.isComplete : Outline → Bool
  | .missing => false
  | .array items .closed => areComplete items
  | .object members .closed => areCompleteMembers members
  | .array _ (.broken _) => false
  | .object _ (.broken _) => false
  | _ => true

/-- Every item is complete. -/
def areComplete : List Outline → Bool
  | [] => true
  | item :: items => item.isComplete && areComplete items

/-- Every member is complete. -/
def areCompleteMembers : List (Option String × Outline) → Bool
  | [] => true
  | (_, value) :: members => value.isComplete && areCompleteMembers members

end

namespace Outline

/-- Pass over a part that the format ignores. -/
def skip (outline : Outline) : Except ReadFailure Unit :=
  if outline.isComplete then .ok () else .error .malformed

/-- The failure of a reader that finds this outline where it wants something else. A token is read
before its kind is judged. -/
def mismatch : Outline → ReadFailure
  | .missing | .number none | .string none => .malformed
  | _ => .unexpected

/-- Read a string. -/
def toText : Outline → Except ReadFailure String
  | .string (some s) => .ok s
  | other => .error other.mismatch

/-- Read something that may be absent, which null stands for. -/
def toOptional {α : Type} (read : Outline → Except ReadFailure α) :
    Outline → Except ReadFailure (Option α)
  | .null => .ok none
  | other => (read other).map some

end Outline

/-- Read a whole text with a reader for its outline. Nothing may follow the value. -/
def readDocument {α : Type} (read : Outline → Except ReadFailure α) (text : String) :
    Except ReadFailure α := do
  let document := Document.of text
  let result ← read document.root
  if document.after.isEmpty then .ok result else .error .malformed

/-- Read a whole text as a value. -/
def Value.parse (text : String) : Except ReadFailure Value :=
  readDocument (Outline.toValue nestingLimit) text

mutual

/-- The outline of a value. -/
def Value.outline : Value → Outline
  | .null => .null
  | .bool b => .bool b
  | .number n => .number (some n)
  | .string s => .string (some s)
  | .array items => .array (outlineItems items) .closed
  | .object members => .object (outlineMembers members) .closed

/-- The outlines of the items of an array. -/
def outlineItems : List Value → List Outline
  | [] => []
  | item :: items => item.outline :: outlineItems items

/-- The outlines of the members of an object. -/
def outlineMembers : List (String × Value) → List (Option String × Outline)
  | [] => []
  | (key, value) :: members => (some key, value.outline) :: outlineMembers members

end

/-- Read a format from a value that is already at hand. What breaks a text is then only something
the format does not ask for. -/
def readValue {α : Type} (read : Outline → Except ReadFailure α) (value : Value) :
    Except ReadFailure α :=
  (read value.outline).mapError fun _ => .unexpected

end MailMerge.Json
