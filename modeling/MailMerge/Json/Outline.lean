/-
# Outlines of JSON texts

An outline is everything a JSON text says up to the first place where it stops being JSON. It
keeps repeated keys, the order of members and tokens without a value, and it shows where a list or
an object breaks off. Readers of particular formats walk the outline in text order, so the first
problem they meet is the first problem of the text, be it a broken text or an unexpected value.
-/

import MailMerge.Json.Token

namespace MailMerge.Json

/-- How the items of an array or the members of an object end. -/
inductive Ending where
  /-- With the closing bracket or brace. -/
  | closed
  /-- The text breaks off; the token found instead of what was due, if any token was. -/
  | broken (found : Option Token)

/-- What a text says up to where it stops being JSON. -/
inductive Outline where
  | null
  | bool (b : Bool)
  /-- A number; it has no value when it is too large. -/
  | number (value : Option Number)
  /-- A string; it has no value when it spells a lone surrogate. -/
  | string (value : Option String)
  | array (items : List Outline) (ending : Ending)
  | object (members : List (Option String × Outline)) (ending : Ending)
  /-- A place where a value is due and none begins. -/
  | missing

/-- An array or an object still being read. The parts read so far are kept newest first. -/
inductive OpenPart where
  | array (items : List Outline)
  | object (members : List (Option String × Outline))
  /-- An object of which a member's value is due. -/
  | member (members : List (Option String × Outline)) (key : Option String)

namespace OpenPart

/-- Put a finished value into the part it belongs to. -/
def add (value : Outline) : OpenPart → OpenPart
  | .array items => .array (value :: items)
  | .object members => .object members
  | .member members key => .object ((key, value) :: members)

/-- Finish a part with the given ending. A member whose value is due has none. -/
def finish (ending : Ending) : OpenPart → Outline
  | .array items => .array items.reverse ending
  | .object members => .object members.reverse ending
  | .member members key => .object ((key, .missing) :: members).reverse ending

end OpenPart

/-- What may come next. -/
inductive Awaited where
  /-- A value. -/
  | value
  /-- The first item of an array or its end. -/
  | firstItem
  /-- The first member of an object or its end. -/
  | firstMember
  /-- A key. -/
  | key
  /-- The colon after a key. -/
  | colon
  /-- A comma or the end of the innermost part. -/
  | separator

/-- Break off every open part, innermost first. Only the innermost knows the token that was
found. -/
def breakOff (found : Option Token) : List OpenPart → Outline
  | [] => .missing
  | part :: parts =>
    parts.foldl (fun inner outer => (outer.add inner).finish (.broken none))
      (part.finish (.broken found))

/-- The value that a single token is. -/
def Token.scalar? : Token → Option Outline
  | .null => some .null
  | .bool b => some (.bool b)
  | .number value => some (.number value)
  | .string value => some (.string value)
  | _ => none

/-- Read tokens with the given open parts. Yields the outline of the outermost value and the tokens
that follow it. -/
def readOutline (awaited : Awaited) (parts : List OpenPart) : List Token → Outline × List Token
  | [] => (breakOff none parts, [])
  | token :: tokens =>
    let broken := (breakOff (some token) parts, token :: tokens)
    /- A value is complete: it is the whole outline or goes into the innermost part. -/
    let complete (value : Outline) (parts : List OpenPart) : Outline × List Token :=
      match parts with
      | [] => (value, tokens)
      | part :: parts => readOutline .separator (part.add value :: parts) tokens
    /- A value must begin here. -/
    let begin : Outline × List Token :=
      match token with
      | .openBracket => readOutline .firstItem (.array [] :: parts) tokens
      | .openBrace => readOutline .firstMember (.object [] :: parts) tokens
      | other => match other.scalar? with
        | some value => complete value parts
        | none => broken
    match awaited with
    | .value => begin
    | .firstItem => match token, parts with
      | .closeBracket, part :: parts => complete (part.finish .closed) parts
      | _, _ => begin
    | .firstMember => match token, parts with
      | .closeBrace, part :: parts => complete (part.finish .closed) parts
      | .string key, .object members :: parts =>
        readOutline .colon (.member members key :: parts) tokens
      | _, _ => broken
    | .key => match token, parts with
      | .string key, .object members :: parts =>
        readOutline .colon (.member members key :: parts) tokens
      | _, _ => broken
    | .colon => match token with
      | .colon => readOutline .value parts tokens
      | _ => broken
    | .separator => match token, parts with
      | .comma, .array items :: parts => readOutline .value (.array items :: parts) tokens
      | .comma, .object members :: parts => readOutline .key (.object members :: parts) tokens
      | .closeBracket, .array items :: parts =>
        complete ((OpenPart.array items).finish .closed) parts
      | .closeBrace, .object members :: parts =>
        complete ((OpenPart.object members).finish .closed) parts
      | _, _ => broken

/-- A text divided into the outline of the value it begins with and the tokens after it. -/
structure Document where
  root : Outline
  after : List Token

/-- The outline of a text. -/
def Document.of (text : String) : Document :=
  let (root, after) := readOutline .value [] (lex text.toList)
  ⟨root, after⟩

end MailMerge.Json
