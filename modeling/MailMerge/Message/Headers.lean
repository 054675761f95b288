/-
# Message headers

The headers of a message: names with raw values, in order, each name once. Names that differ in
case are different names. A name that is given again keeps its place and takes the new value.
-/

import MailMerge.Text.Blank
import MailMerge.Text.CharClass
import MailMerge.Text.Lines

namespace MailMerge.Message

open MailMerge.Text

/-- Give a name a value: in place when the name is there, else at the end. -/
def setEntry (name value : String) : List (String × String) → List (String × String)
  | [] => [(name, value)]
  | (n, v) :: rest => if n = name then (n, value) :: rest else (n, v) :: setEntry name value rest

/-- Setting a name keeps the names there are and adds it at the end when it is new. -/
theorem names_setEntry (name value : String) (entries : List (String × String)) :
    (setEntry name value entries).map Prod.fst =
      if name ∈ entries.map Prod.fst then entries.map Prod.fst
      else entries.map Prod.fst ++ [name] := by
  induction entries with
  | nil => simp [setEntry]
  | cons entry rest ih =>
    obtain ⟨n, v⟩ := entry
    by_cases h : n = name
    · simp [setEntry, h]
    · have h' : ¬name = n := fun e => h e.symm
      simp only [setEntry, h, ↓reduceIte, List.map_cons, ih, List.mem_cons, h', false_or]
      split <;> simp

/-- Headers: names with values, each name once. -/
structure Headers where
  entries : List (String × String)
  distinct : (entries.map Prod.fst).Nodup

namespace Headers

/-- No headers. -/
def empty : Headers := ⟨[], by simp⟩

/-- Give a name a value: in place when the name is there, else at the end. -/
def set (headers : Headers) (name value : String) : Headers where
  entries := setEntry name value headers.entries
  distinct := by
    rw [names_setEntry]
    split
    · exact headers.distinct
    · next h =>
      rw [List.nodup_append]
      refine ⟨headers.distinct, by simp, ?_⟩
      intro a ha b hb
      simp only [List.mem_singleton] at hb
      subst hb
      exact fun e => h (e ▸ ha)

/-- The headers that a list of names and values gives, set one after the other. -/
def ofList (pairs : List (String × String)) : Headers :=
  pairs.foldl (fun headers (name, value) => headers.set name value) empty

/-- The value of a name. -/
def get? (headers : Headers) (name : String) : Option String :=
  headers.entries.lookup name

/-- The value of a name that has one which is not empty. -/
def filled? (headers : Headers) (name : String) : Option String :=
  (headers.get? name).filter fun value => !value.isEmpty

/-- The entries with a name outside `excluded`. -/
def others (headers : Headers) (excluded : List String) : List (String × String) :=
  headers.entries.filter fun entry => !excluded.contains entry.1

/-- The headers without the excluded names, or nothing when none remain. -/
def without? (headers : Headers) (excluded : List String) : Option Headers :=
  if (headers.others excluded).isEmpty then none
  else some ⟨headers.others excluded,
    headers.distinct.sublist (List.filter_sublist.map Prod.fst)⟩

end Headers

/-- A character of a header name. -/
def isHeaderNameChar (c : Char) : Bool :=
  isWord c || c == '-'

/-- The name and the value of a header line: a name, a colon, blanks and the value up to the end of
the line. -/
def headerLine? (line : List Char) : Option (String × String) :=
  let name := line.takeWhile isHeaderNameChar
  match line.dropWhile isHeaderNameChar with
  | ':' :: rest =>
    if name.isEmpty then none
    else some (String.ofList name, String.ofList (trimLeft rest))
  | _ => none

/-- The headers of a block of lines. Lines of another shape are passed over. -/
def Headers.ofBlock (block : List Char) : Headers :=
  ofList ((lines block).filterMap headerLine?)

end MailMerge.Message
