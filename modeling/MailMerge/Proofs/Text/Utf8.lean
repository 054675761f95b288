/-
# Encoded text is read back

The reader of bytes gives back the text that was encoded. A character of several bytes is opened by
its first byte with just the bounds that its second byte keeps to, and each further byte adds six
bits. Whatever bytes are read, no more units come out than bytes went in.
-/

import MailMerge.Text.Utf8
import Mathlib.Data.List.Basic

namespace MailMerge.Text

/-! ## Bytes of a character -/

theorem toNat_byte {n : Nat} (small : n < 256) : (UInt8.ofNat n).toNat = n :=
  UInt8.toNat_ofNat_of_lt' small

theorem decodeUnits_of_whole {byte : UInt8} {c : Char} (whole : FirstByte.of byte = .whole c)
    (bytes : List UInt8) :
    decodeUnits none (byte :: bytes) = some c :: decodeUnits none bytes := by
  rw [decodeUnits, readByte, readFirst, whole]
  rfl

theorem decodeUnits_of_opens {byte : UInt8} {part : PartialChar}
    (opens : FirstByte.of byte = .opens part) (bytes : List UInt8) :
    decodeUnits none (byte :: bytes) = decodeUnits (some part) bytes := by
  rw [decodeUnits, readByte, readFirst, opens]
  rfl

section Continued

variable {bits low high six : Nat} (hsix : six < 64) (hlow : low ≤ six + 128)
  (hhigh : six + 128 ≤ high) (bytes : List UInt8)

include hsix hlow hhigh

/-- The last byte that is owed completes a character. -/
theorem decodeUnits_last :
    decodeUnits (some ⟨bits, 1, low, high⟩) (UInt8.ofNat (six + 128) :: bytes) =
      some (Char.ofNat (bits * 64 + six)) :: decodeUnits none bytes := by
  have hmod : (six + 128) % 64 = six := by omega
  rw [decodeUnits, readByte]
  dsimp only
  rw [toNat_byte (by omega), if_pos ⟨hlow, hhigh⟩, hmod, if_pos (Nat.le_refl 1)]
  rfl

/-- A byte before the last that is owed adds its six bits. -/
theorem decodeUnits_inner (owed : Nat) :
    decodeUnits (some ⟨bits, owed + 2, low, high⟩) (UInt8.ofNat (six + 128) :: bytes) =
      decodeUnits (some ⟨bits * 64 + six, owed + 1, 0x80, 0xBF⟩) bytes := by
  have hmod : (six + 128) % 64 = six := by omega
  rw [decodeUnits, readByte]
  dsimp only
  rw [toNat_byte (by omega), if_pos ⟨hlow, hhigh⟩, hmod, if_neg (by omega)]
  rfl

end Continued

/-- The first byte of a character of two bytes. -/
theorem firstByte_two {bits : Nat} (least : 2 ≤ bits) (small : bits < 32) :
    FirstByte.of (UInt8.ofNat (bits + 192)) = .opens ⟨bits, 1, 0x80, 0xBF⟩ := by
  rw [FirstByte.of, toNat_byte (by omega), if_neg (by omega), if_neg (by omega), if_pos (by omega),
    Nat.add_sub_cancel]

/-- The first byte of a character of three bytes. The second one shows whether the character is
long enough and no surrogate. -/
theorem firstByte_three {bits six : Nat} (small : bits < 16) (hsix : six < 64)
    (least : bits = 0 → 32 ≤ six) (scalar : bits = 13 → six < 32) :
    ∃ low high, FirstByte.of (UInt8.ofNat (bits + 224)) = .opens ⟨bits, 2, low, high⟩ ∧
      low ≤ six + 128 ∧ six + 128 ≤ high := by
  rw [FirstByte.of, toNat_byte (by omega), if_neg (by omega), if_neg (by omega), if_neg (by omega)]
  by_cases hzero : bits = 0
  · subst hzero
    exact ⟨_, _, rfl, by have := least rfl; omega, by omega⟩
  · rw [if_neg (by omega)]
    by_cases hsurrogate : bits = 13
    · subst hsurrogate
      exact ⟨_, _, rfl, by omega, by have := scalar rfl; omega⟩
    · rw [if_neg (by omega), if_pos (by omega), Nat.add_sub_cancel]
      exact ⟨_, _, rfl, by omega, by omega⟩

/-- The first byte of a character of four bytes. The second one shows whether the character is
long enough and on the last plane or before it. -/
theorem firstByte_four {bits six : Nat} (small : bits ≤ 4) (hsix : six < 64)
    (least : bits = 0 → 16 ≤ six) (greatest : bits = 4 → six < 16) :
    ∃ low high, FirstByte.of (UInt8.ofNat (bits + 240)) = .opens ⟨bits, 3, low, high⟩ ∧
      low ≤ six + 128 ∧ six + 128 ≤ high := by
  rw [FirstByte.of, toNat_byte (by omega), if_neg (by omega), if_neg (by omega), if_neg (by omega),
    if_neg (by omega), if_neg (by omega), if_neg (by omega)]
  by_cases hzero : bits = 0
  · subst hzero
    exact ⟨_, _, rfl, by have := least rfl; omega, by omega⟩
  · rw [if_neg (by omega)]
    by_cases hlast : bits = 4
    · subst hlast
      exact ⟨_, _, rfl, by omega, by have := greatest rfl; omega⟩
    · rw [if_pos (by omega), Nat.add_sub_cancel]
      exact ⟨_, _, rfl, by omega, by omega⟩

/-- The bytes of a character are read as this character. -/
theorem decodeUnits_utf8EncodeChar_append (c : Char) (bytes : List UInt8) :
    decodeUnits none (String.utf8EncodeChar c ++ bytes) = some c :: decodeUnits none bytes := by
  have hvalid : c.val.toNat < 0xD800 ∨ 0xDFFF < c.val.toNat ∧ c.val.toNat < 0x110000 := c.valid
  have hchar : Char.ofNat c.val.toNat = c := Char.ofNat_toNat c
  rw [String.utf8EncodeChar]
  generalize c.val.toNat = v at hvalid hchar
  split
  · have hwhole : FirstByte.of (UInt8.ofNat v) = .whole c := by
      rw [FirstByte.of, toNat_byte (by omega), if_pos (by omega), hchar]
    exact decodeUnits_of_whole hwhole bytes
  · split
    · have hbits : v / 64 % 32 * 64 + v % 64 = v := by omega
      rw [List.cons_append, decodeUnits_of_opens (firstByte_two (by omega) (by omega)),
        List.cons_append, decodeUnits_last (by omega) (by omega) (by omega), hbits, hchar]
      rfl
    · split
      · have hbits : (v / 4096 % 16 * 64 + v / 64 % 64) * 64 + v % 64 = v := by omega
        obtain ⟨low, high, hopens, hlow, hhigh⟩ :=
          @firstByte_three (v / 4096 % 16) (v / 64 % 64) (by omega) (by omega) (by omega)
            (by omega)
        rw [List.cons_append, decodeUnits_of_opens hopens, List.cons_append,
          decodeUnits_inner (by omega) hlow hhigh, List.cons_append,
          decodeUnits_last (by omega) (by omega) (by omega), hbits, hchar]
        rfl
      · have hbits :
            ((v / 262144 % 8 * 64 + v / 4096 % 64) * 64 + v / 64 % 64) * 64 + v % 64 = v := by
          omega
        obtain ⟨low, high, hopens, hlow, hhigh⟩ :=
          @firstByte_four (v / 262144 % 8) (v / 4096 % 64) (by omega) (by omega) (by omega)
            (by omega)
        rw [List.cons_append, decodeUnits_of_opens hopens, List.cons_append,
          decodeUnits_inner (by omega) hlow hhigh, List.cons_append,
          decodeUnits_inner (by omega) (by omega) (by omega), List.cons_append,
          decodeUnits_last (by omega) (by omega) (by omega), hbits, hchar]
        rfl

/-! ## Texts -/

theorem decodeUnits_encode (text : List Char) : decodeUnits none (encode text) = text.map some := by
  induction text with
  | nil => rfl
  | cons c text ih =>
      rw [encode, List.flatMap_cons, decodeUnits_utf8EncodeChar_append, List.map_cons]
      exact congrArg _ ih

/-- Bytes are read as a text when each unit is a character of it. -/
theorem decode?_eq_some_iff {bytes : List UInt8} {text : List Char} :
    decode? bytes = some text ↔ decodeUnits none bytes = text.map some := by
  rw [decode?]
  generalize decodeUnits none bytes = units
  induction units generalizing text with
  | nil => cases text <;> simp
  | cons unit units ih =>
      rw [List.mapM_cons, Option.bind_eq_bind, Option.bind_eq_some_iff]
      simp only [Option.bind_eq_bind, Option.bind_eq_some_iff, ih]
      cases text <;> simp [eq_comm]

/-- What is encoded is read back. -/
theorem decode?_encode (text : List Char) : decode? (encode text) = some text :=
  decode?_eq_some_iff.2 (decodeUnits_encode text)

theorem encode_injective : Function.Injective encode := by
  intro first second heq
  apply Option.some.inj
  rw [← decode?_encode first, heq, decode?_encode]

theorem encode_ne_nil {text : List Char} (filled : text ≠ []) : encode text ≠ [] := by
  intro hnil
  exact filled (encode_injective hnil)

theorem encode_cons (c : Char) (text : List Char) :
    encode (c :: text) = encode [c] ++ encode text := by
  rw [encode, encode, encode, List.flatMap_cons, List.flatMap_singleton]

theorem length_encode (text : List Char) : (encode text).length = encodedLength text := by
  induction text with
  | nil => rfl
  | cons c text ih =>
      rw [encode, List.flatMap_cons, List.length_append, String.length_utf8EncodeChar,
        encodedLength]
      exact congrArg _ ih

/-- A text of ASCII characters takes one byte for each. -/
theorem encodedLength_of_ascii {text : List Char} (ascii : ∀ c ∈ text, c.toNat < 128) :
    encodedLength text = text.length := by
  induction text with
  | nil => rfl
  | cons c text ih =>
      have hsize : c.utf8Size = 1 := by
        have hc : c.val.toNat < 128 := ascii c (by simp)
        rw [Char.utf8Size_eq_one_iff, UInt32.le_iff_toNat_le]
        exact Nat.le_of_lt_succ hc
      rw [encodedLength, hsize, ih fun d hd => ascii d (List.mem_cons_of_mem _ hd),
        List.length_cons, Nat.add_comm]

/-- A byte completes one unit at most, or two when it cuts a character short. -/
theorem length_decodeUnits_le (openChar : Option PartialChar) (bytes : List UInt8) :
    (decodeUnits openChar bytes).length ≤ bytes.length + openChar.toList.length := by
  have hfirst (byte : UInt8) :
      (readFirst byte).1.length + (readFirst byte).2.toList.length = 1 := by
    rw [readFirst]
    split <;> rfl
  have hbyte (openChar : Option PartialChar) (byte : UInt8) :
      (readByte openChar byte).1.length + (readByte openChar byte).2.toList.length ≤
        1 + openChar.toList.length := by
    unfold readByte
    split
    · exact Nat.le_of_eq (hfirst byte)
    · dsimp only
      split
      · split <;> simp
      · have := hfirst byte
        simp only [List.length_cons, Option.toList_some]
        omega
  induction bytes generalizing openChar with
  | nil => cases openChar <;> simp [decodeUnits]
  | cons byte bytes ih =>
      have hread := hbyte openChar byte
      have hrest := ih (readByte openChar byte).2
      rw [decodeUnits, List.length_append, List.length_cons]
      omega

theorem length_of_decode? {bytes : List UInt8} {text : List Char}
    (decoded : decode? bytes = some text) : text.length ≤ bytes.length := by
  have hlength := length_decodeUnits_le none bytes
  rw [decode?_eq_some_iff.1 decoded, List.length_map] at hlength
  exact hlength

end MailMerge.Text
