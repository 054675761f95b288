/-
# Filling in a template

Every reference of a template is replaced by the rendering of the value it leads to. A reference
that leads nowhere, or into the reserved entry, stays as it is spelled. What is filled in is not
read again. Line endings are unified afterwards.
-/

import MailMerge.Template.Token

namespace MailMerge.Template

open MailMerge.Json MailMerge.Text

/-- What stands in place of a reference. -/
def Reference.fill (markup : Markup) (values : Values) (reference : Reference) : List Char :=
  match values.atPath? (markup.path reference.name) with
  | some value =>
    if markup.isReserved reference.name then reference.spelling else rendering value
  | none => reference.spelling

/-- What stands in place of a piece. -/
def Piece.fill (markup : Markup) (values : Values) : Piece → List Char
  | .literal c => [c]
  | .reference found => found.fill markup values

/-- A template with its references filled in. -/
def substitute (markup : Markup) (text : String) (values : Values) : String :=
  String.ofList ((pieces markup text.toList).flatMap (Piece.fill markup values))

/-- A template made ready for composition: filled in when there are values, and with its line
endings unified. -/
def render (markup : Markup) (text : String) (values : Option Values) : String :=
  match values with
  | some values => normalizeLineEndings (substitute markup text values)
  | none => normalizeLineEndings text

end MailMerge.Template
