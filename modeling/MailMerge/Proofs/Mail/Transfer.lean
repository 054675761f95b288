/-
# Transfer encodings are undone

The content of a part travels as a text in one of three encodings. Undoing the encoding gives
exactly the bytes that travel, whatever they are: ASCII stands for itself; of a quoted-printable
text every escape gives its byte and every soft break nothing; and the line breaks in a base64 text
say nothing.
-/

import MailMerge.Mail.Transfer
import MailMerge.Proofs.Mail.Base64

namespace MailMerge.Mail

open MailMerge.Text

/-! ## Undoing -/

/-- The bytes of a quoted-printable text. An equals sign stands before the two hexadecimal digits of
a byte, or before a line break, which then is a soft one; every other character stands for its own
bytes. -/
def quotedPrintableDecode : List Char → Option (List UInt8)
  | [] => some []
  | '=' :: '\r' :: '\n' :: rest => quotedPrintableDecode rest
  | '=' :: high :: low :: rest => do
    let high ← hexValue? high
    let low ← hexValue? low
    let bytes ← quotedPrintableDecode rest
    return UInt8.ofNat (high * 16 + low) :: bytes
  | '=' :: _ => none
  | c :: rest => (quotedPrintableDecode rest).map (encode [c] ++ ·)

/-- The bytes that a text in an encoding stands for. -/
def TransferEncoding.undo (encoding : TransferEncoding) (text : List Char) : Option (List UInt8) :=
  match encoding with
  | .sevenBit => some (encode text)
  | .quotedPrintable => quotedPrintableDecode text
  | .base64 => (base64Decode (encode (text.filter fun c => c != '\r' && c != '\n'))).toOption

/-! ## Bytes of ASCII -/

/-- A byte of seven bits is the only byte of its character. -/
theorem encode_ofNat {byte : UInt8} (ascii : byte.toNat < 128) :
    encode [Char.ofNat byte.toNat] = [byte] := by
  have hall : ∀ code < 128, encode [Char.ofNat code] = [UInt8.ofNat code] := by decide +kernel
  rw [hall byte.toNat ascii, UInt8.ofNat_toNat]

theorem encode_map_ofNat {bytes : List UInt8} (ascii : ∀ byte ∈ bytes, byte.toNat < 128) :
    encode (bytes.map fun byte => Char.ofNat byte.toNat) = bytes := by
  induction bytes with
  | nil => rfl
  | cons byte bytes ih =>
      rw [List.map_cons, encode_cons, encode_ofNat (ascii byte (by simp)),
        ih fun other hother => ascii other (List.mem_cons_of_mem _ hother)]
      rfl

/-- A line break adds nothing but ASCII to a text. -/
theorem mem_breakLines {c : Char} {text : List Char} (hc : c ∈ breakLines text) :
    c = '\r' ∨ c ∈ text := by
  fun_induction breakLines text with
  | case1 => exact absurd hc List.not_mem_nil
  | case2 rest ih =>
      rcases List.mem_cons.1 hc with rfl | hc
      · exact .inl rfl
      · rcases List.mem_cons.1 hc with rfl | hc
        · exact .inr (by simp)
        · exact (ih hc).imp_right fun hmem => List.mem_cons_of_mem _ (List.mem_cons_of_mem _ hmem)
  | case3 rest ih =>
      rcases List.mem_cons.1 hc with rfl | hc
      · exact .inl rfl
      · rcases List.mem_cons.1 hc with rfl | hc
        · exact .inr (by simp)
        · exact (ih hc).imp_right (List.mem_cons_of_mem _)
  | case4 c rest _ _ ih =>
      rcases List.mem_cons.1 hc with rfl | hc
      · exact .inr (by simp)
      · exact (ih hc).imp_right (List.mem_cons_of_mem _)

/-- Whatever a content is judged by, only ASCII travels as it is. -/
theorem Content.ascii_of_sevenBit {content : Content} (plain : content.encoding = .sevenBit) :
    ∀ byte ∈ content.travellingBytes, byte.toNat < 128 := by
  have hraw : ∀ byte ∈ content.rawBytes, byte.toNat < 128 := by
    unfold Content.encoding at plain
    dsimp only at plain
    split_ifs at plain with hseven
    rw [Bool.and_eq_true, List.all_eq_true] at hseven
    intro byte hbyte
    exact of_decide_eq_true (hseven.1 byte hbyte)
  cases content with
  | bytes given => exact hraw
  | text given =>
      have hreturn : ∀ byte ∈ String.utf8EncodeChar '\r', byte.toNat < 128 :=
        List.forall_mem_singleton.2 (by decide : (13 : UInt8).toNat < 128)
      intro byte hbyte
      obtain ⟨c, hc, hbyte⟩ := List.mem_flatMap.1 hbyte
      rcases mem_breakLines hc with rfl | hc
      · exact hreturn byte hbyte
      · exact hraw byte (List.mem_flatMap.2 ⟨c, hc, hbyte⟩)

/-! ## Pieces of an encoded text -/

/-- A piece of an encoded text that stands for bytes, whatever follows it. -/
def GivesBytes (decode : List Char → Option (List UInt8)) (text : List Char)
    (bytes : List UInt8) : Prop :=
  ∀ rest, decode (text ++ rest) = (decode rest).map (bytes ++ ·)

namespace GivesBytes

variable {decode : List Char → Option (List UInt8)} {text text' : List Char}
  {bytes bytes' : List UInt8}

theorem nil : GivesBytes decode [] [] := by
  intro rest
  show decode rest = (decode rest).map id
  rw [Option.map_id]
  rfl

theorem append (first : GivesBytes decode text bytes) (second : GivesBytes decode text' bytes') :
    GivesBytes decode (text ++ text') (bytes ++ bytes') := by
  intro rest
  rw [List.append_assoc, first, second, Option.map_map]
  congr 1
  funext others
  exact (List.append_assoc bytes bytes' others).symm

/-- Where nothing follows a piece, it is read as its bytes. -/
theorem decode_eq (gives : GivesBytes decode text bytes) (empty : decode [] = some []) :
    decode text = some bytes := by
  have hread := gives []
  rw [List.append_nil] at hread
  rw [hread, empty, Option.map_some, List.append_nil]

end GivesBytes

/-! ## Quoted-printable -/

/-- A soft break stands for nothing. -/
theorem givesBytes_softBreak : GivesBytes quotedPrintableDecode softBreak [] := by
  intro rest
  rw [← GivesBytes.nil rest]
  rfl

/-- A character that begins no escape stands for itself. -/
theorem givesBytes_char {c : Char} (plain : c ≠ '=') :
    GivesBytes quotedPrintableDecode [c] (encode [c]) := by
  intro rest
  rw [List.singleton_append, quotedPrintableDecode]
  · intro _ heq
    exact absurd heq plain
  · intro _ _ _ heq
    exact absurd heq plain
  · exact plain

theorem hexValue?_hexDigitUpper {value : Nat} (small : value < 16) :
    hexValue? (hexDigitUpper value) = some value := by
  have hall : ∀ value < 16, hexValue? (hexDigitUpper value) = some value := by decide
  exact hall value small

/-- The two digits of a byte are read as its halves. -/
theorem hexValue?_halves (byte : UInt8) :
    hexValue? (hexDigitUpper (byte.toNat / 16)) = some (byte.toNat / 16) ∧
      hexValue? (hexDigitUpper (byte.toNat % 16)) = some (byte.toNat % 16) := by
  have hbyte := byte.toNat_lt
  exact ⟨hexValue?_hexDigitUpper (by omega), hexValue?_hexDigitUpper (by omega)⟩

/-- An escape stands for its byte. -/
theorem givesBytes_escapeByte (byte : UInt8) :
    GivesBytes quotedPrintableDecode (escapeByte byte) [byte] := by
  obtain ⟨hhigh, hlow⟩ := hexValue?_halves byte
  have hplain : hexDigitUpper (byte.toNat / 16) ≠ '\r' := by
    intro heq
    rw [heq] at hhigh
    cases hhigh
  intro rest
  have hread : quotedPrintableDecode (escapeByte byte ++ rest) =
      (quotedPrintableDecode rest).bind fun bytes =>
        some (UInt8.ofNat (byte.toNat / 16 * 16 + byte.toNat % 16) :: bytes) := by
    rw [escapeByte, hexPairUpper, List.cons_append, List.cons_append, List.cons_append,
      List.nil_append, quotedPrintableDecode, hhigh, hlow]
    · rfl
    · intro heq _
      exact absurd heq hplain
  rw [hread, Nat.div_add_mod', UInt8.ofNat_toNat]
  exact Option.map_eq_bind.symm

/-- A printable byte is a character of ASCII that begins no escape. -/
theorem ascii_of_isPrintableByte {byte : UInt8} (printable : isPrintableByte byte) :
    byte.toNat < 128 ∧ Char.ofNat byte.toNat ≠ '=' := by
  have hall : ∀ code < 256, isPrintableByte (UInt8.ofNat code) →
      code < 128 ∧ Char.ofNat code ≠ '=' := by
    decide +kernel
  apply hall byte.toNat byte.toNat_lt
  rwa [UInt8.ofNat_toNat]

/-- What a byte inside a line is written as stands for it. -/
theorem givesBytes_printableItem (byte : UInt8) :
    GivesBytes quotedPrintableDecode (printableItem byte) [byte] := by
  rw [printableItem]
  split
  · next printable =>
    obtain ⟨ascii, plain⟩ := ascii_of_isPrintableByte printable
    rw [← encode_ofNat ascii]
    exact givesBytes_char plain
  · exact givesBytes_escapeByte byte

/-- The items of a line stand for its bytes one by one. -/
theorem givesBytes_lineItems (line : List UInt8) :
    List.Forall₂ (fun item byte => GivesBytes quotedPrintableDecode item [byte]) (lineItems line)
      line := by
  fun_induction lineItems line with
  | case1 => exact .nil
  | case2 byte =>
      refine .cons ?_ .nil
      split
      · exact givesBytes_escapeByte byte
      · exact givesBytes_printableItem byte
  | case3 byte bytes _ ih => exact .cons (givesBytes_printableItem byte) ih

/-- Soft breaks between items make no difference to what they stand for. -/
theorem givesBytes_wrapItems {items : List (List Char)} {bytes : List UInt8}
    (gives : List.Forall₂ (fun item byte => GivesBytes quotedPrintableDecode item [byte]) items
      bytes)
    {held : List Char} {heldBytes : List UInt8}
    (hheld : GivesBytes quotedPrintableDecode held heldBytes) (width : Nat) :
    GivesBytes quotedPrintableDecode (wrapItems held width items) (heldBytes ++ bytes) := by
  induction gives generalizing held heldBytes width with
  | nil =>
      rw [wrapItems, List.append_nil]
      exact hheld
  | cons hitem _ ih =>
      rw [wrapItems]
      split
      · exact hheld.append (ih hitem _)
      · split
        · exact (givesBytes_softBreak.append hheld).append (ih hitem _)
        · have hbroken := hheld.append givesBytes_softBreak
          rw [List.append_nil] at hbroken
          exact hbroken.append (ih hitem _)

theorem givesBytes_line (line : List UInt8) :
    GivesBytes quotedPrintableDecode (wrapItems [] 0 (lineItems line)) line :=
  givesBytes_wrapItems (givesBytes_lineItems line) .nil 0

theorem byteLines_ne_nil (bytes : List UInt8) : byteLines bytes ≠ [] := by
  fun_cases byteLines bytes <;> simp

/-- Lines of bytes with a carriage return and a line feed between them are the bytes again. -/
theorem intercalate_byteLines (bytes : List UInt8) :
    [13, 10].intercalate (byteLines bytes) = bytes := by
  fun_induction byteLines bytes with
  | case1 => rfl
  | case2 rest ih =>
      rw [List.intercalate_cons_of_ne_nil (byteLines_ne_nil rest), ih]
      rfl
  | case3 byte rest _ hnil ih => exact absurd hnil (byteLines_ne_nil rest)
  | case4 byte rest _ line lines hlines ih =>
      rw [hlines] at ih
      cases lines with
      | nil =>
          rw [List.intercalate_singleton] at ih ⊢
          rw [ih]
      | cons next lines =>
          rw [List.intercalate_cons_cons] at ih ⊢
          rw [← ih]
          rfl

/-- A line break stands for a carriage return and a line feed. -/
theorem givesBytes_lineBreak : GivesBytes quotedPrintableDecode lineBreak [13, 10] :=
  (givesBytes_char (by decide : '\r' ≠ '=')).append (givesBytes_char (by decide : '\n' ≠ '='))

theorem givesBytes_lines (lines : List (List UInt8)) :
    GivesBytes quotedPrintableDecode
      (joinWith lineBreak (lines.map fun line => wrapItems [] 0 (lineItems line)))
      ([13, 10].intercalate lines) := by
  induction lines with
  | nil => exact .nil
  | cons line lines ih =>
      cases lines with
      | nil =>
          rw [List.intercalate_singleton]
          exact givesBytes_line line
      | cons next lines =>
          rw [List.intercalate_cons_cons]
          exact ((givesBytes_line line).append givesBytes_lineBreak).append ih

/-- Reading gives back the bytes of which a quoted-printable text was written. -/
theorem quotedPrintableDecode_encode (bytes : List UInt8) :
    quotedPrintableDecode (quotedPrintableEncode bytes) = some bytes := by
  have hlines := givesBytes_lines (byteLines bytes)
  rw [intercalate_byteLines] at hlines
  exact hlines.decode_eq rfl

/-! ## Base64 in lines -/

/-- The breaks between the lines of a text are all that is put into it. -/
theorem filter_inLines (width : Nat) (text : List Char) :
    (inLines width text).filter (fun c => c != '\r' && c != '\n') =
      text.filter fun c => c != '\r' && c != '\n' := by
  fun_induction inLines width text with
  | case1 text _ ih =>
      have hbreak : lineBreak.filter (fun c => c != '\r' && c != '\n') = [] := by decide
      rw [List.filter_append, List.filter_append, ih, hbreak, List.append_nil, ← List.filter_append,
        List.take_append_drop]
  | case2 => rfl

/-- A text of base64 holds no line breaks of its own. -/
theorem filter_base64Encode (bytes : List UInt8) :
    (base64Encode bytes).filter (fun c => c != '\r' && c != '\n') = base64Encode bytes :=
  List.filter_eq_self.2 (forall_mem_base64Encode (by decide +kernel) (by decide) bytes)

/-! ## Contents -/

/-- Undoing the encoding of a content gives exactly the bytes that travel. -/
theorem Content.undo_travelling (content : Content) :
    content.encoding.undo content.travelling = some content.travellingBytes := by
  unfold Content.travelling
  cases hencoding : content.encoding with
  | sevenBit =>
      show some (encode (content.travellingBytes.map _)) = _
      rw [encode_map_ofNat (Content.ascii_of_sevenBit hencoding)]
  | quotedPrintable => exact quotedPrintableDecode_encode content.travellingBytes
  | base64 =>
      show (base64Decode (encode ((inLines lineLimit _).filter _))).toOption = _
      rw [filter_inLines, filter_base64Encode, base64Decode_encode]
      rfl

end MailMerge.Mail
