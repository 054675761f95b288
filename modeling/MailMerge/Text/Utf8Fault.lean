/-
# Where bytes stop being text

The first stretch of bytes that is no UTF-8: where it begins and, unless the bytes end inside it,
how long it is.
-/

import MailMerge.Text.Numeral
import MailMerge.Text.Utf8

namespace MailMerge.Text

/-- The first stretch of bytes that is no UTF-8. -/
inductive Utf8Fault where
  /-- A stretch of the given length that begins no character. -/
  | malformed (length : Nat) (index : Nat)
  /-- The bytes end inside a character. -/
  | incomplete (index : Nat)
  deriving DecidableEq, Repr

/-- The text of a fault. -/
def Utf8Fault.message : Utf8Fault → String
  | .malformed length index =>
    "invalid utf-8 sequence of " ++ decimal length ++ " bytes from index " ++ decimal index
  | .incomplete index => "incomplete utf-8 byte sequence from index " ++ decimal index

/-- The first fault of bytes. `openChar` is the character being read with the number of its bytes so
far, and `index` is where it begins. -/
def findUtf8Fault (openChar : Option (PartialChar × Nat)) (index : Nat) :
    List UInt8 → Option Utf8Fault
  | [] => openChar.map fun _ => .incomplete index
  | byte :: bytes =>
    match openChar with
    | none =>
      match FirstByte.of byte with
      | .whole _ => findUtf8Fault none (index + 1) bytes
      | .opens part => findUtf8Fault (some (part, 1)) index bytes
      | .malformed => some (.malformed 1 index)
    | some (part, count) =>
      if part.low ≤ byte.toNat ∧ byte.toNat ≤ part.high then
        if part.owed ≤ 1 then findUtf8Fault none (index + count + 1) bytes
        else findUtf8Fault (some (⟨part.bits, part.owed - 1, 0x80, 0xBF⟩, count + 1)) index bytes
      else some (.malformed count index)

/-- Read bytes as text, or tell where they stop being text. -/
def readUtf8 (bytes : List UInt8) : Except Utf8Fault (List Char) :=
  match findUtf8Fault none 0 bytes with
  | some fault => .error fault
  | none => .ok (decodeLossy bytes)

end MailMerge.Text
