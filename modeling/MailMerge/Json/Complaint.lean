/-
# Complaints about JSON texts

What is wrong with a text that is not JSON, for whoever wrote it: the first thing that is out of
place and where it stands. Columns are counted in bytes, and a text that breaks off is complained
about at its end.
-/

import MailMerge.Json.Reader
import MailMerge.Text.Numeral

namespace MailMerge.Json

open MailMerge.Text

/-- A part that is open where something is out of place. -/
inductive OpenKind where
  | list
  | object
  deriving DecidableEq, Repr

/-- How far a number has been read. -/
inductive NumberPlace where
  /-- Behind the minus sign. -/
  | sign
  /-- Behind a leading zero. -/
  | zero
  | whole
  /-- Behind the point. -/
  | point
  | fraction
  /-- Behind the mark of the exponent. -/
  | mark
  /-- Behind the sign of the exponent. -/
  | markSign
  | exponent
  deriving DecidableEq, Repr

/-- The place in a text that has been reached. -/
inductive TextPlace where
  | value
  | firstItem
  /-- Behind a comma in a list. -/
  | item
  | firstKey
  /-- Behind a comma in an object. -/
  | key
  | colon
  /-- Behind a value. -/
  | separator
  /-- In a word of which characters are due. -/
  | word (due : List Char)
  | string (isKey : Bool)
  /-- Behind a backslash. -/
  | escape (isKey : Bool)
  /-- In the digits of an escape, of which some are due. -/
  | digits (isKey : Bool) (due : Nat)
  | number (place : NumberPlace)
  deriving DecidableEq, Repr

namespace TextPlace

/-- The place behind a string. -/
def afterString (isKey : Bool) : TextPlace :=
  if isKey then colon else separator

/-- What is wrong when a text ends at a place with the given open parts. -/
def atEnd (parts : List OpenKind) : TextPlace → Option String
  | value | item | key | word _ | number .sign | number .point | number .mark | number .markSign =>
    some "EOF while parsing a value"
  | firstItem => some "EOF while parsing a list"
  | firstKey | colon => some "EOF while parsing an object"
  | string _ | escape _ | digits _ _ => some "EOF while parsing a string"
  | separator | number _ =>
    match parts with
    | [] => none
    | .list :: _ => some "EOF while parsing a list"
    | .object :: _ => some "EOF while parsing an object"

/-- The place and the open parts after a character. -/
abbrev Step := Except String (TextPlace × List OpenKind)

/-- Open a part, unless too many are open. -/
def openPart (place : TextPlace) (kind : OpenKind) (parts : List OpenKind) : Step :=
  if parts.length < nestingLimit then .ok (place, kind :: parts)
  else .error "recursion limit exceeded"

/-- Begin a value. -/
def begin (c : Char) (parts : List OpenKind) : Step :=
  match c with
  | '[' => openPart firstItem .list parts
  | '\x7b' => openPart firstKey .object parts
  | '"' => .ok (string false, parts)
  | 'n' => .ok (word "ull".toList, parts)
  | 't' => .ok (word "rue".toList, parts)
  | 'f' => .ok (word "alse".toList, parts)
  | '-' => .ok (number .sign, parts)
  | '0' => .ok (number .zero, parts)
  | c => if isAsciiDigit c then .ok (number .whole, parts) else .error "expected value"

/-- Take a character behind a value. -/
def separate (c : Char) (parts : List OpenKind) : Step :=
  if isSpacing c then .ok (separator, parts)
  else match parts, c with
    | .list :: _, ',' => .ok (item, parts)
    | .object :: _, ',' => .ok (key, parts)
    | .list :: rest, ']' => .ok (separator, rest)
    | .object :: rest, '\x7d' => .ok (separator, rest)
    | .list :: _, _ => .error "expected `,` or `]`"
    | .object :: _, _ => .error "expected `,` or `\x7d`"
    | [], _ => .error "trailing characters"

/-- Take a character in a number. -/
def stepNumber (c : Char) (parts : List OpenKind) (place : NumberPlace) : Step :=
  let goTo (next : NumberPlace) : Step := .ok (number next, parts)
  let invalid : Step := .error "invalid number"
  let isMark := c = 'e' ∨ c = 'E'
  match place with
  | .sign => if c = '0' then goTo .zero else if isAsciiDigit c then goTo .whole else invalid
  | .zero =>
    if isAsciiDigit c then invalid
    else if c = '.' then goTo .point else if isMark then goTo .mark else separate c parts
  | .whole =>
    if isAsciiDigit c then goTo .whole
    else if c = '.' then goTo .point else if isMark then goTo .mark else separate c parts
  | .point => if isAsciiDigit c then goTo .fraction else invalid
  | .fraction =>
    if isAsciiDigit c then goTo .fraction else if isMark then goTo .mark else separate c parts
  | .mark =>
    if isAsciiDigit c then goTo .exponent
    else if c = '+' ∨ c = '-' then goTo .markSign else invalid
  | .markSign => if isAsciiDigit c then goTo .exponent else invalid
  | .exponent => if isAsciiDigit c then goTo .exponent else separate c parts

/-- Take a character. -/
def step (c : Char) (parts : List OpenKind) (place : TextPlace) : Step :=
  let keyOr (wrong : String) : Step :=
    if c = '"' then .ok (string true, parts) else .error wrong
  match place with
  | word (due :: rest) =>
    if c = due then .ok (if rest.isEmpty then separator else word rest, parts)
    else .error "expected ident"
  | word [] | separator => separate c parts
  | number reached => stepNumber c parts reached
  | string isKey =>
    if c = '"' then .ok (afterString isKey, parts)
    else if c = '\\' then .ok (escape isKey, parts)
    else if c.toNat < 32 then
      .error "control character (\\u0000-\\u001F) found while parsing a string"
    else .ok (string isKey, parts)
  | escape isKey =>
    if c = 'u' then .ok (digits isKey 4, parts)
    else if (simpleEscape? c).isSome then .ok (string isKey, parts)
    else .error "invalid escape"
  | digits isKey due =>
    if (hexValue? c).isNone then .error "invalid escape"
    else .ok (if due ≤ 1 then string isKey else digits isKey (due - 1), parts)
  | _ =>
    if isSpacing c then .ok (place, parts)
    else match place, c with
      | firstItem, ']' => .ok (separator, parts.tail)
      | item, ']' => .error "trailing comma"
      | firstKey, '\x7d' => .ok (separator, parts.tail)
      | key, '\x7d' => .error "trailing comma"
      | firstKey, _ | key, _ => keyOr "key must be a string"
      | colon, ':' => .ok (value, parts)
      | colon, _ => .error "expected `:`"
      | _, _ => begin c parts

end TextPlace

/-- Something out of place, and where it ends. -/
structure SyntaxComplaint where
  problem : String
  line : Nat
  column : Nat
  deriving DecidableEq, Repr

/-- The text of a complaint. -/
def SyntaxComplaint.message (complaint : SyntaxComplaint) : String :=
  complaint.problem ++ " at line " ++ decimal complaint.line ++ " column " ++
    decimal complaint.column

/-- The first complaint about a text from a place on, at the given line and column. -/
def complainFrom (place : TextPlace) (parts : List OpenKind) (line column : Nat) :
    List Char → Option SyntaxComplaint
  | [] => (place.atEnd parts).map fun problem => ⟨problem, line, column⟩
  | c :: rest =>
    match place.step c parts with
    | .ok (place, parts) =>
      if c = '\n' then complainFrom place parts (line + 1) 0 rest
      else complainFrom place parts line (column + c.utf8Size) rest
    | .error problem =>
      some (if c = '\n' then ⟨problem, line + 1, 0⟩ else ⟨problem, line, column + 1⟩)

/-- What is said about a text that is not JSON. A text of which only a value cannot be told, such
as a number that is too large, has no place to point to. -/
def complaintAbout (text : String) : String :=
  match complainFrom .value [] 1 0 text.toList with
  | some complaint => complaint.message
  | none => "number out of range"

end MailMerge.Json
