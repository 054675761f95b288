/-
# Attachment names

The disposition of an attachment with its file name. A printable name that fits the line stands in
quotes; a longer one continues over several lines, and one that is not printable continues in
percent form.
-/

import MailMerge.Mail.Folding
import MailMerge.Mail.Mailbox
import MailMerge.Text.Numeral

namespace MailMerge.Mail

open MailMerge.Text

/-- The length of the field with its name up to the semicolon before the file name. -/
def dispositionLength : Nat :=
  "Content-Disposition: attachment;".length

/-- A printable ASCII character. -/
def isPrintableAscii (c : Char) : Bool :=
  ' ' ≤ c && c ≤ '~'

/-- A name that fits the line in quotes. -/
def fitsLine (name : List Char) : Bool :=
  dispositionLength + "filename=\"".length + name.length + "\"\r\n".length ≤ lineLimit

/-- A file name in quotes. -/
def quoteName (name : List Char) : List Char :=
  '"' :: escapeQuotes name ++ ['"']

/-- The beginning of a line that continues a file name, up to the mark of its form. -/
def continuation (index : Nat) (mark : String) : List Char :=
  " filename*".toList ++ decimalDigits index ++ mark.toList

/-- Write a name over several lines in quotes. Escapes are not counted against the line. -/
def continueQuoted (index : Nat) (name : List Char) : List Char :=
  let opening := continuation index "="
  let count := max 1 (lineLimit - (opening.length + 1) - "\"\r\n".length)
  if _h : name.length ≤ count then lineBreak ++ opening ++ quoteName name
  else
    lineBreak ++ opening ++ quoteName (name.take count) ++
      ';' :: continueQuoted (index + 1) (name.drop count)
termination_by name.length
decreasing_by
  rw [List.length_drop]
  omega

/-- A character in percent form. -/
def percentChar (c : Char) : List Char :=
  if isAsciiAlphanumeric c ∨ c = '-' ∨ c = '_' ∨ c = '.' then [c]
  else (encode [c]).flatMap fun byte => '%' :: hexPairUpper byte

/-- The length of a line from which on no further character in percent form is begun. -/
def percentLimit : Nat :=
  lineLimit - "=xx=xx=xx=xx;\r\n".length

/-- Write characters in percent form behind a line of the given length, on as many lines as they
take. -/
def writePercent (index length : Nat) : List Char → List Char
  | [] => []
  | c :: rest =>
    let percent := percentChar c
    if length < percentLimit then percent ++ writePercent index (length + percent.length) rest
    else
      let opening := continuation (index + 1) "*="
      ';' :: lineBreak ++ opening ++ percent ++
        writePercent (index + 1) (opening.length + percent.length) rest

/-- Write a name over several lines in percent form. -/
def continuePercent (name : List Char) : List Char :=
  let opening := continuation 0 "*=utf-8''"
  lineBreak ++ opening ++ writePercent 0 opening.length name

/-- The disposition of an attachment. -/
def writeDisposition (name : List Char) : List Char :=
  "attachment;".toList ++
    if name.all isPrintableAscii then
      if fitsLine name then " filename=".toList ++ quoteName name
      else continueQuoted 0 name
    else continuePercent name

end MailMerge.Mail
