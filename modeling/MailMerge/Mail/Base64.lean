/-
# Base64

Bytes as characters of the standard alphabet, three bytes as four characters, with padding. Reading
is strict: it accepts exactly what writing produces. A fault tells the first place where a text
stops being of that form.
-/

import MailMerge.Text.Ascii
import MailMerge.Text.Numeral

namespace MailMerge.Mail

open MailMerge.Text

/-! ## Writing -/

/-- The character of a value below sixty-four. -/
def base64Char (value : Nat) : Char :=
  if value < 26 then Char.ofNat (value + 65)
  else if value < 52 then Char.ofNat (value + 71)
  else if value < 62 then Char.ofNat (value - 4)
  else if value = 62 then '+' else '/'

/-- The base64 text of a row of bytes. -/
def base64Encode : List UInt8 → List Char
  | [] => []
  | [a] => [base64Char (a.toNat / 4), base64Char (a.toNat % 4 * 16), '=', '=']
  | [a, b] =>
    [base64Char (a.toNat / 4), base64Char (a.toNat % 4 * 16 + b.toNat / 16),
      base64Char (b.toNat % 16 * 4), '=']
  | a :: b :: c :: rest =>
    base64Char (a.toNat / 4) :: base64Char (a.toNat % 4 * 16 + b.toNat / 16) ::
      base64Char (b.toNat % 16 * 4 + c.toNat / 64) :: base64Char (c.toNat % 64) ::
      base64Encode rest

/-! ## Reading -/

/-- Why a text is not base64. -/
inductive Base64Fault where
  /-- A byte that cannot stand where it stands. -/
  | symbol (byte : UInt8) (offset : Nat)
  /-- A last symbol that says more than its bytes can hold. -/
  | lastSymbol (byte : UInt8) (offset : Nat)
  | length (n : Nat)
  | padding
  deriving DecidableEq, Repr

/-- The text of a fault. -/
def Base64Fault.message : Base64Fault → String
  | .symbol byte offset =>
    "Invalid symbol " ++ decimal byte.toNat ++ ", offset " ++ decimal offset ++ "."
  | .lastSymbol byte offset =>
    "Invalid last symbol " ++ decimal byte.toNat ++ ", offset " ++ decimal offset ++ "."
  | .length n => "Invalid input length: " ++ decimal n
  | .padding => "Invalid padding"

/-- The value of a symbol. -/
def base64Value? (byte : UInt8) : Option Nat :=
  let code := byte.toNat
  if 65 ≤ code ∧ code ≤ 90 then some (code - 65)
  else if 97 ≤ code ∧ code ≤ 122 then some (code - 71)
  else if 48 ≤ code ∧ code ≤ 57 then some (code + 4)
  else if code = 43 then some 62
  else if code = 47 then some 63
  else none

/-- The byte that pads. -/
def padByte : UInt8 := 61

/-- The value of the symbol at an offset. -/
def base64Symbol (offset : Nat) (byte : UInt8) : Except Base64Fault Nat :=
  match base64Value? byte with
  | some value => .ok value
  | none => .error (.symbol byte offset)

/-- The values of symbols from an offset on. -/
def base64Symbols (offset : Nat) : List UInt8 → Except Base64Fault (List Nat)
  | [] => .ok []
  | byte :: bytes => do
    let value ← base64Symbol offset byte
    let values ← base64Symbols (offset + 1) bytes
    return value :: values

/-- The bytes that the values of a last group hold. Bits beyond the last whole byte must be
zero. -/
def base64Tail : List Nat → Option (List UInt8)
  | [a, b] => if b % 16 = 0 then some [UInt8.ofNat (a * 4 + b / 16)] else none
  | [a, b, c] =>
    if c % 4 = 0 then
      some [UInt8.ofNat (a * 4 + b / 16), UInt8.ofNat (b % 16 * 16 + c / 4)]
    else none
  | [a, b, c, d] =>
    some [UInt8.ofNat (a * 4 + b / 16), UInt8.ofNat (b % 16 * 16 + c / 4),
      UInt8.ofNat (c % 4 * 64 + d)]
  | _ => some []

/-- Read the last group of a text, which may be padded. -/
def base64DecodeEnd (offset : Nat) (text : List UInt8) : Except Base64Fault (List UInt8) := do
  let symbols := text.takeWhile (· != padByte)
  let pads := text.dropWhile (· != padByte)
  let values ← base64Symbols offset symbols
  let stop := offset + symbols.length
  if !pads.isEmpty ∧ (symbols.length < 2 ∨ pads.any (· != padByte)) then
    .error (.symbol padByte stop)
  else if !text.isEmpty ∧ symbols.length < 2 then .error (.length stop)
  else if text.length % 4 ≠ 0 then .error .padding
  else match base64Tail values with
    | some bytes => .ok bytes
    | none => .error (.lastSymbol (symbols.getLastD 0) (stop - 1))

/-- Read the groups of a text from an offset on. -/
def base64DecodeFrom (offset : Nat) : List UInt8 → Except Base64Fault (List UInt8)
  | a :: b :: c :: d :: e :: rest => do
    let values ← base64Symbols offset [a, b, c, d]
    let bytes ← base64DecodeFrom (offset + 4) (e :: rest)
    return (base64Tail values).getD [] ++ bytes
  | text => base64DecodeEnd offset text

/-- Read a base64 text. A single byte after the last whole group is judged first. -/
def base64Decode (text : List UInt8) : Except Base64Fault (List UInt8) :=
  match text.getLast? with
  | some last =>
    if text.length % 4 = 1 ∧ last ≠ padByte ∧ (base64Value? last).isNone then
      .error (.symbol last (text.length - 1))
    else base64DecodeFrom 0 text
  | none => .ok []

end MailMerge.Mail
