/-
# Media types

The type of a content: a type, a subtype and parameters. What does not depend on case is written in
lower case: the types, the names of parameters and the value of the character set. Everything else
stands as it was given, except that an empty list of parameters is left out.
-/

import MailMerge.Text.Ascii
import MailMerge.Text.Numeral
import MailMerge.Text.Utf8

namespace MailMerge.Mail

open MailMerge.Text

/-- A media type in its written form. -/
structure MediaType where
  text : List Char
  deriving DecidableEq, Repr

/-- Why a text is no media type. -/
inductive MediaTypeFault where
  | missingSlash
  | missingEqual
  | missingQuote
  /-- A byte that cannot stand at its position. -/
  | invalidToken (byte : UInt8) (position : Nat)
  deriving DecidableEq, Repr

/-- A byte in hexadecimal, without a leading zero. -/
def hexOf (byte : UInt8) : List Char :=
  match hexPairUpper byte with
  | '0' :: digit => digit
  | digits => digits

/-- The text of a fault. -/
def MediaTypeFault.message (fault : MediaTypeFault) : String :=
  "mime parse error: " ++ match fault with
    | .missingSlash => "a slash (/) was missing between the type and subtype"
    | .missingEqual => "an equals sign (=) was missing between a parameter and its value"
    | .missingQuote => "a quote (\") was missing from a parameter value"
    | .invalidToken byte position =>
      "an invalid token was encountered, " ++ String.ofList (hexOf byte) ++ " at position " ++
        decimal position

/-- A character of a type, a name or an unquoted value. -/
def isTokenChar (c : Char) : Bool :=
  isAsciiAlphanumeric c || "!#$%&'*+-.^_`|~".toList.contains c

/-- A character of a quoted value. -/
def isQuotedValueChar (c : Char) : Bool :=
  32 ≤ c.toNat && c.toNat != 127

/-- The place in a media type that has been reached. -/
inductive MediaTypePlace where
  /-- In the type. -/
  | type (isStarted : Bool)
  /-- In the subtype. -/
  | subtype (isStarted : Bool)
  /-- Before the name of the first parameter; what was passed over since the subtype and is only
  written when a parameter follows. -/
  | firstGap (held : List Char)
  /-- Before the name of a later parameter. -/
  | gap
  /-- In the name of a parameter; its characters so far, last first. -/
  | name (characters : List Char)
  /-- At the first character of a value. -/
  | valueStart (isCharset : Bool)
  /-- In an unquoted value. -/
  | value (isCharset : Bool)
  /-- At the first character of a quoted value. -/
  | quotedStart (isCharset : Bool)
  /-- In a quoted value. -/
  | quoted (isCharset : Bool)
  /-- Behind a quoted value. -/
  | afterQuoted

namespace MediaTypePlace

/-- A character of a value. Only the name of a character set does not depend on case. -/
def inValue (isCharset : Bool) (c : Char) : Char :=
  if isCharset then lowerAscii c else c

/-- Take a character: what is written for it, and the place after it. -/
def step (c : Char) : MediaTypePlace → Option (List Char × MediaTypePlace)
  | type isStarted =>
    if isTokenChar c then some ([lowerAscii c], type true)
    else if c = '/' ∧ isStarted then some ([c], subtype false)
    else none
  | subtype isStarted =>
    if isTokenChar c then some ([lowerAscii c], subtype true)
    else if c = ';' ∧ isStarted then some ([], firstGap [c])
    else none
  | firstGap held =>
    if c = ' ' then some ([], firstGap (held ++ [c]))
    else if isTokenChar c then some (held ++ [lowerAscii c], name [lowerAscii c])
    else none
  | gap =>
    if c = ' ' then some ([c], gap)
    else if isTokenChar c then some ([lowerAscii c], name [lowerAscii c])
    else none
  | name characters =>
    if isTokenChar c then some ([lowerAscii c], name (lowerAscii c :: characters))
    else if c = '=' then some ([c], valueStart (characters.reverse == "charset".toList))
    else none
  | valueStart isCharset =>
    if c = '"' then some ([c], quotedStart isCharset)
    else if isTokenChar c then some ([inValue isCharset c], value isCharset)
    else none
  | value isCharset =>
    if isTokenChar c then some ([inValue isCharset c], value isCharset)
    else if c = ';' then some ([c], gap)
    else none
  | quotedStart isCharset =>
    if isQuotedValueChar c then some ([inValue isCharset c], quoted isCharset) else none
  | quoted isCharset =>
    if c = '"' then some ([c], afterQuoted)
    else if isQuotedValueChar c then some ([inValue isCharset c], quoted isCharset)
    else none
  | afterQuoted =>
    if c = ';' then some ([c], gap)
    else if c = ' ' then some ([c], afterQuoted)
    else none

/-- What is missing at the end of a text, if anything is. -/
def missing? : MediaTypePlace → Option MediaTypeFault
  | type _ => some .missingSlash
  | name _ => some .missingEqual
  | quotedStart _ | quoted _ => some .missingQuote
  | _ => none

/-- What is written at the end of a text. -/
def finish (place : MediaTypePlace) : Except MediaTypeFault (List Char) :=
  match place.missing? with
  | some fault => .error fault
  | none => .ok []

end MediaTypePlace

/-- Read a media type from a place and a position on. -/
def readMediaTypeFrom (place : MediaTypePlace) (position : Nat) :
    List Char → Except MediaTypeFault (List Char)
  | [] => place.finish
  | c :: rest =>
    match place.step c with
    | some (written, place) => do
      let more ← readMediaTypeFrom place (position + c.utf8Size) rest
      return written ++ more
    | none => .error (.invalidToken ((encode [c]).headD 0) position)

/-- Read a media type. -/
def MediaType.read (text : String) : Except MediaTypeFault MediaType :=
  (readMediaTypeFrom (.type false) 0 text.toList).map MediaType.mk

/-- Plain text. -/
def MediaType.plain : MediaType := ⟨"text/plain; charset=utf-8".toList⟩

/-- HTML. -/
def MediaType.html : MediaType := ⟨"text/html; charset=utf-8".toList⟩

end MailMerge.Mail
