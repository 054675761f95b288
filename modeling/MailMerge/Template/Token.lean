/-
# References in templates

The two ways to mark references to values. A placeholder is a dotted name in double braces, with
blanks allowed around the name; a bracket reference is a name or a path with slashes in brackets.
A text divides into references and single characters from left to right: a reference is taken
wherever one begins, and reading goes on behind it.
-/

import MailMerge.Template.Values
import MailMerge.Text.Blank

namespace MailMerge.Template

open MailMerge.Json MailMerge.Text

/-- A way to mark references. -/
inductive Markup where
  /-- Dotted names in double braces. -/
  | placeholder
  /-- Names and slash paths in brackets. -/
  | bracket
  deriving DecidableEq, Repr

/-- A reference found in a template. -/
structure Reference where
  /-- The reference as it is spelled, marks and blanks included. -/
  spelling : List Char
  /-- The name between the marks. -/
  name : List Char
  deriving DecidableEq, Repr

/-- A character of one part of a name in both markups. -/
def isSegmentChar (c : Char) : Bool :=
  isAsciiAlphanumeric c || c == '_' || c == '-'

namespace Markup

/-- The mark that opens a reference. -/
def opening : Markup → List Char
  | .placeholder => ['\x7b', '\x7b']
  | .bracket => ['[']

/-- The mark that closes a reference. -/
def closing : Markup → List Char
  | .placeholder => ['\x7d', '\x7d']
  | .bracket => [']']

/-- The character between the parts of a name. -/
def separator : Markup → Char
  | .placeholder => '.'
  | .bracket => '/'

/-- A blank that may stand between a mark and the name. -/
def isPadding (markup : Markup) (c : Char) : Bool :=
  match markup with
  | .placeholder => isBlank c
  | .bracket => false

/-- A character of a part of a name. -/
def isPartChar (markup : Markup) (c : Char) : Bool :=
  match markup with
  | .placeholder => isSegmentChar c
  | .bracket => isSegmentChar c || c == '.'

/-- A character that continues a name. -/
def isNameChar (markup : Markup) (c : Char) : Bool :=
  markup.isPartChar c || c == markup.separator

/-- The name without the slash that makes it a path from the top. -/
def withoutRoot (markup : Markup) (name : List Char) : List Char :=
  match markup, name with
  | .bracket, '/' :: rest => rest
  | _, _ => name

/-- The parts of a name. -/
def parts (markup : Markup) (name : List Char) : List (List Char) :=
  partsAt markup.separator (markup.withoutRoot name)

/-- A run of name characters is a name when none of its parts is empty. -/
def isName (markup : Markup) (run : List Char) : Bool :=
  (markup.parts run).all fun part => !part.isEmpty

/-- The path a name stands for. A bracket name without a leading slash is one key, whatever it
holds. -/
def path (markup : Markup) (name : List Char) : List (List Char) :=
  match markup, name with
  | .bracket, '/' :: _ => markup.parts name
  | .bracket, _ => [name]
  | .placeholder, _ => markup.parts name

/-- The name leads into the reserved entry. -/
def isReserved (markup : Markup) (name : List Char) : Bool :=
  (markup.parts name).head? == some attachmentsKey.toList

end Markup

/-- What follows a mark at the front of a text. -/
def afterMark? : List Char → List Char → Option (List Char)
  | [], text => some text
  | _ :: _, [] => none
  | m :: mark, c :: text => if m = c then afterMark? mark text else none

theorem afterMark?_length {mark text after : List Char} (h : afterMark? mark text = some after) :
    after.length + mark.length = text.length := by
  fun_induction afterMark? mark text with
  | case1 => simp_all
  | case2 => simp at h
  | case3 _ _ _ ih =>
    have := ih h
    simp
    omega
  | case4 => simp at h

namespace Markup

/-- The reference at the very front of a text, and what follows it. -/
def scan (markup : Markup) (text : List Char) : Option (Reference × List Char) := do
  let inside ← afterMark? markup.opening text
  let before := inside.takeWhile markup.isPadding
  let inside := inside.dropWhile markup.isPadding
  let name := inside.takeWhile markup.isNameChar
  let inside := inside.dropWhile markup.isNameChar
  let behind := inside.takeWhile markup.isPadding
  let rest ← afterMark? markup.closing (inside.dropWhile markup.isPadding)
  if markup.isName name then
    let spelling := markup.opening ++ before ++ name ++ behind ++ markup.closing
    some (⟨spelling, name⟩, rest)
  else none

/-- A reference takes at least one character. -/
theorem scan_length {markup : Markup} {text rest : List Char} {reference : Reference}
    (h : markup.scan text = some (reference, rest)) : rest.length < text.length := by
  simp only [scan, Option.bind_eq_bind, Option.bind_eq_some_iff] at h
  obtain ⟨inside, ho, after, hc, h⟩ := h
  split at h
  · simp only [Option.some.injEq, Prod.mk.injEq] at h
    obtain ⟨_, rfl⟩ := h
    have h₁ := afterMark?_length ho
    have h₂ := afterMark?_length hc
    have h₃ : (((inside.dropWhile markup.isPadding).dropWhile markup.isNameChar).dropWhile
        markup.isPadding).length ≤ inside.length :=
      (((List.dropWhile_sublist markup.isPadding).trans
        (List.dropWhile_sublist markup.isNameChar)).trans
          (List.dropWhile_sublist markup.isPadding)).length_le
    have h₄ : 0 < markup.opening.length := by cases markup <;> simp [opening]
    omega
  · simp at h

end Markup

/-- A piece of a template. -/
inductive Piece where
  /-- A character outside every reference. -/
  | literal (c : Char)
  | reference (found : Reference)
  deriving DecidableEq, Repr

/-- The pieces of a text, from left to right. -/
def pieces (markup : Markup) (text : List Char) : List Piece :=
  match text with
  | [] => []
  | c :: rest =>
    match h : markup.scan (c :: rest) with
    | some (reference, after) =>
      have := Markup.scan_length h
      .reference reference :: pieces markup after
    | none => .literal c :: pieces markup rest
termination_by text.length
decreasing_by
  · exact this
  · exact Nat.lt_succ_self rest.length

end MailMerge.Template
