/-
# Transfer encodings

How the content of a part travels. Short lines of ASCII travel as they are. Of what does not, a
text with few special characters is quoted-printable; anything else, and all bytes outside ASCII
that are no text, travel as base64.
-/

import MailMerge.Mail.Base64
import MailMerge.Mail.QuotedPrintable

namespace MailMerge.Mail

open MailMerge.Text

/-- A transfer encoding. -/
inductive TransferEncoding where
  | sevenBit
  | quotedPrintable
  | base64
  deriving DecidableEq, Repr

/-- The name of an encoding. -/
def TransferEncoding.name : TransferEncoding → String
  | .sevenBit => "7bit"
  | .quotedPrintable => "quoted-printable"
  | .base64 => "base64"

/-- The content of a part. -/
inductive Content where
  /-- A text, whose line feeds become line breaks. -/
  | text (text : List Char)
  /-- Bytes, which stay as they are. -/
  | bytes (bytes : List UInt8)
  deriving DecidableEq, Repr

/-- A text with a carriage return before each line feed that has none. -/
def breakLines : List Char → List Char
  | [] => []
  | '\r' :: '\n' :: rest => '\r' :: '\n' :: breakLines rest
  | '\n' :: rest => '\r' :: '\n' :: breakLines rest
  | c :: rest => c :: breakLines rest

/-- Some line reaches the limit. `width` counts the bytes since the last line feed, which itself
is counted in. -/
def hasLongLine (width : Nat) : List UInt8 → Bool
  | [] => lineLimit ≤ width
  | 10 :: rest => lineLimit ≤ width || hasLongLine 1 rest
  | _ :: rest => hasLongLine (width + 1) rest

/-- A byte that quoted-printable is not made for. -/
def isSpecialByte (byte : UInt8) : Bool :=
  !(byte == 9 || (32 ≤ byte.toNat && byte.toNat ≤ 126))

/-- At most a third of the bytes are special. -/
def isMostlyPrintable (bytes : List UInt8) : Bool :=
  bytes.countP isSpecialByte ≤ bytes.length / 3

namespace Content

/-- The bytes that a content is judged by. -/
def rawBytes : Content → List UInt8
  | .text given => encode given
  | .bytes given => given

/-- The bytes that travel. -/
def travellingBytes : Content → List UInt8
  | .text given => encode (breakLines given)
  | .bytes given => given

/-- The encoding that a content travels in. -/
def encoding (content : Content) : TransferEncoding :=
  let raw := content.rawBytes
  let isAscii := raw.all fun byte => byte.toNat < 128
  let isText := match content with
    | .text _ => true
    | .bytes _ => false
  if isAscii && !hasLongLine 0 raw then .sevenBit
  else if (isText || isAscii) && isMostlyPrintable raw then .quotedPrintable
  else .base64

end Content

/-- A text in lines of at most `width` characters. -/
def inLines (width : Nat) (text : List Char) : List Char :=
  if _h : 0 < width ∧ width < text.length then
    text.take width ++ lineBreak ++ inLines width (text.drop width)
  else text
termination_by text.length
decreasing_by
  rw [List.length_drop]
  omega

/-- The text that bytes travel as. Bytes of seven bits are ASCII. -/
def TransferEncoding.apply (encoding : TransferEncoding) (bytes : List UInt8) : List Char :=
  match encoding with
  | .sevenBit => bytes.map fun byte => Char.ofNat byte.toNat
  | .quotedPrintable => quotedPrintableEncode bytes
  | .base64 => inLines lineLimit (base64Encode bytes)

/-- The text that a content travels as. -/
def Content.travelling (content : Content) : List Char :=
  content.encoding.apply content.travellingBytes

end MailMerge.Mail
