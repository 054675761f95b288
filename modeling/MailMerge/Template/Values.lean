/-
# Substitution values

The values a template is filled with: a JSON object, addressed by paths of keys. A step of a path
is a key where the value reached so far is an object and an index where it is an array. The entry
`attachments` is reserved for attachment descriptors.
-/

import MailMerge.Json.Printer
import MailMerge.Text.Numeral

namespace MailMerge.Template

open MailMerge.Json MailMerge.Text

/-- The values available to a template. -/
structure Values where
  members : Members

/-- The key whose entry describes attachments and is no text. -/
def attachmentsKey : String := "attachments"

/-- Indexes are read below this bound, two to the sixty-fourth. -/
def indexBound : Nat := 18446744073709551616

namespace Values

/-- No values at all. -/
def empty : Values := ⟨[]⟩

/-- Give a top-level key a value. -/
def insert (values : Values) (key : String) (value : Value) : Values :=
  ⟨values.members.insert key value⟩

/-- The values of a JSON value, which must be an object. -/
def ofValue? : Value → Option Values
  | .object members => some ⟨members⟩
  | _ => none

/-- Take one step into a value. -/
def step? (value : Value) (part : List Char) : Option Value :=
  match value with
  | .object members => Members.get? members (String.ofList part)
  | .array items => do items[← numeralBelow? indexBound part]?
  | _ => none

/-- Follow a path from a value. -/
def follow? (value : Value) : List (List Char) → Option Value
  | [] => some value
  | part :: parts => do follow? (← step? value part) parts

/-- Follow a path from the top. Its first part is always a key. -/
def atPath? (values : Values) : List (List Char) → Option Value
  | [] => none
  | key :: parts => do follow? (← values.members.get? (String.ofList key)) parts

/-- The value of a dotted name. -/
def lookup? (values : Values) (name : String) : Option Value :=
  values.atPath? (partsAt '.' name.toList)

/-- The attachment descriptors, untouched. -/
def attachments? (values : Values) : Option Value :=
  values.members.get? attachmentsKey

end Values

/-- The text a value is replaced by. Arrays and objects stand as JSON, and null as nothing. -/
def rendering : Value → List Char
  | .null => []
  | .string s => s.toList
  | other => other.write

end MailMerge.Template
