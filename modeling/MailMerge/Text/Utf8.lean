/-
# Bytes as text

UTF-8 in both directions. A byte sequence is read one byte at a time by a reader that is either
between characters or inside one; every maximal stretch of bytes that begins no character yields
one malformed unit. Text of unknown origin takes a replacement character for each malformed unit,
and files of templates must have none.
-/

namespace MailMerge.Text

/-- A character of which only the first bytes are known. -/
structure PartialChar where
  /-- The code point bits gathered so far. -/
  bits : Nat
  /-- How many bytes are still owed. -/
  owed : Nat
  /-- The least next byte that continues the character. -/
  low : Nat
  /-- The greatest next byte that continues the character. -/
  high : Nat
  deriving DecidableEq, Repr

/-- What a byte does between characters. -/
inductive FirstByte where
  /-- It is a whole character. -/
  | whole (c : Char)
  /-- It opens a character of several bytes. -/
  | opens (rest : PartialChar)
  /-- No character begins with it. -/
  | malformed

/-- Classify a byte between characters. The bounds on the second byte rule out overlong forms,
surrogates and code points past the last plane. -/
def FirstByte.of (byte : UInt8) : FirstByte :=
  let b := byte.toNat
  if b < 0x80 then .whole (Char.ofNat b)
  else if b < 0xC2 then .malformed
  else if b < 0xE0 then .opens ⟨b - 0xC0, 1, 0x80, 0xBF⟩
  else if b = 0xE0 then .opens ⟨0, 2, 0xA0, 0xBF⟩
  else if b = 0xED then .opens ⟨0xD, 2, 0x80, 0x9F⟩
  else if b < 0xF0 then .opens ⟨b - 0xE0, 2, 0x80, 0xBF⟩
  else if b = 0xF0 then .opens ⟨0, 3, 0x90, 0xBF⟩
  else if b < 0xF4 then .opens ⟨b - 0xF0, 3, 0x80, 0xBF⟩
  else if b = 0xF4 then .opens ⟨4, 3, 0x80, 0x8F⟩
  else .malformed

/-- One unit of decoded text: a character, or nothing for a malformed stretch. -/
abbrev DecodedUnit := Option Char

/-- Read a byte between characters: the units it completes and the character it opens. -/
def readFirst (byte : UInt8) : List DecodedUnit × Option PartialChar :=
  match FirstByte.of byte with
  | .whole c => ([some c], none)
  | .opens rest => ([], some rest)
  | .malformed => ([none], none)

/-- Read one byte. A byte that cannot continue the open character closes it as malformed and is
then read afresh. -/
def readByte (openChar : Option PartialChar) (byte : UInt8) :
    List DecodedUnit × Option PartialChar :=
  match openChar with
  | none => readFirst byte
  | some part =>
    let b := byte.toNat
    if part.low ≤ b ∧ b ≤ part.high then
      let bits := part.bits * 64 + b % 64
      if part.owed ≤ 1 then ([some (Char.ofNat bits)], none)
      else ([], some ⟨bits, part.owed - 1, 0x80, 0xBF⟩)
    else
      let (units, next) := readFirst byte
      (none :: units, next)

/-- The units of a byte sequence, from the middle of `openChar` on. A character still open at the
end is malformed. -/
def decodeUnits : Option PartialChar → List UInt8 → List DecodedUnit
  | none, [] => []
  | some _, [] => [none]
  | openChar, byte :: bytes =>
    let (units, next) := readByte openChar byte
    units ++ decodeUnits next bytes

/-- The replacement character U+FFFD. -/
def replacement : Char := Char.ofNat 0xFFFD

/-- Read bytes as text, with one replacement character for each malformed stretch. -/
def decodeLossy (bytes : List UInt8) : List Char :=
  (decodeUnits none bytes).map fun unit => unit.getD replacement

/-- Read bytes as text, or nothing when some stretch is malformed. -/
def decode? (bytes : List UInt8) : Option (List Char) :=
  (decodeUnits none bytes).mapM id

/-- The UTF-8 bytes of a text. -/
def encode (text : List Char) : List UInt8 :=
  text.flatMap String.utf8EncodeChar

/-- How many bytes the UTF-8 form of a text takes. -/
def encodedLength : List Char → Nat
  | [] => 0
  | c :: rest => c.utf8Size + encodedLength rest

end MailMerge.Text
