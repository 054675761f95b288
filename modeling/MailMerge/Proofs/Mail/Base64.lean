/-
# Base64 is read back

Reading gives back the bytes of which a base64 text was written: the symbols of a group hold the
bits of its bytes, and the padding tells how many bytes the last group has. No other text is read:
bits that no byte holds must be zero and the padding must be whole. A text holds at least as many
symbols as it has bytes.
-/

import MailMerge.Mail.Base64
import MailMerge.Proofs.Stage
import MailMerge.Proofs.Text.Utf8

namespace MailMerge.Mail

open MailMerge.Stage MailMerge.Text

/-! ## Symbols -/

/-- The byte of the symbol for a value. -/
def base64Byte (value : Nat) : UInt8 :=
  UInt8.ofNat (base64Char value).toNat

theorem base64Byte_spec {value : Nat} (small : value < 64) :
    String.utf8EncodeChar (base64Char value) = [base64Byte value] ∧
      base64Value? (base64Byte value) = some value ∧ base64Byte value ≠ padByte := by
  have hall : ∀ value < 64, String.utf8EncodeChar (base64Char value) = [base64Byte value] ∧
      base64Value? (base64Byte value) = some value ∧ base64Byte value ≠ padByte := by
    decide +kernel
  exact hall value small

/-- What holds of the sixty-four symbols and of the padding holds of all that is written. -/
theorem forall_mem_base64Encode {p : Char → Prop} (symbol : ∀ value < 64, p (base64Char value))
    (pad : p '=') (bytes : List UInt8) : ∀ c ∈ base64Encode bytes, p c := by
  have hchar (value : Nat) : p (base64Char value) := by
    by_cases small : value < 64
    · exact symbol value small
    · have hlast : base64Char value = base64Char 63 := by
        rw [base64Char, if_neg (by omega), if_neg (by omega), if_neg (by omega),
          if_neg (by omega)]
        rfl
      rw [hlast]
      exact symbol 63 (by omega)
  fun_induction base64Encode bytes with
  | case1 => exact fun c hc => absurd hc List.not_mem_nil
  | case2 a => simp [hchar, pad]
  | case3 a b => simp [hchar, pad]
  | case4 a b c rest ih => simpa [hchar] using ih

theorem length_base64Encode (bytes : List UInt8) :
    (base64Encode bytes).length = (bytes.length + 2) / 3 * 4 := by
  fun_induction base64Encode bytes with
  | case1 => rfl
  | case2 a => simp
  | case3 a b => simp
  | case4 a b c rest ih =>
      simp only [List.length_cons, ih]
      omega

/-- A base64 text takes as many bytes as it has characters. -/
theorem length_encode_base64Encode (bytes : List UInt8) :
    (encode (base64Encode bytes)).length = (bytes.length + 2) / 3 * 4 := by
  have ascii : ∀ c ∈ base64Encode bytes, c.toNat < 128 :=
    forall_mem_base64Encode (by decide) (by decide) bytes
  rw [length_encode, encodedLength_of_ascii ascii, length_base64Encode]

theorem encode_base64Char_cons {value : Nat} (small : value < 64) (text : List Char) :
    encode (base64Char value :: text) = base64Byte value :: encode text := by
  rw [encode, List.flatMap_cons, (base64Byte_spec small).1]
  rfl

theorem encode_pad_cons (text : List Char) : encode ('=' :: text) = padByte :: encode text := by
  have hpad : String.utf8EncodeChar '=' = [padByte] := by decide
  rw [encode, List.flatMap_cons, hpad]
  rfl

theorem base64Symbols_map {values : List Nat} (small : ∀ value ∈ values, value < 64)
    (offset : Nat) : base64Symbols offset (values.map base64Byte) = .ok values := by
  induction values generalizing offset with
  | nil => rfl
  | cons value values ih =>
      have hvalue := (base64Byte_spec (small value (by simp))).2.1
      rw [List.map_cons, base64Symbols, base64Symbol, hvalue,
        ih fun other hother => small other (List.mem_cons_of_mem _ hother)]
      rfl

/-! ## Groups -/

/-- The last group is read from its symbols, whatever padding makes it whole. -/
theorem base64DecodeEnd_eq_ok (pads : Nat) {values : List Nat} {bytes : List UInt8}
    (small : ∀ value ∈ values, value < 64) (least : 2 ≤ values.length)
    (whole : (values.length + pads) % 4 = 0) (tail : base64Tail values = some bytes)
    (offset : Nat) :
    base64DecodeEnd offset (values.map base64Byte ++ List.replicate pads padByte) =
      .ok bytes := by
  have hsymbol : ∀ byte ∈ values.map base64Byte, (byte != padByte) = true := by
    intro byte hbyte
    obtain ⟨value, hvalue, rfl⟩ := List.mem_map.1 hbyte
    exact bne_iff_ne.2 (base64Byte_spec (small value hvalue)).2.2
  have hpads : (List.replicate pads padByte).takeWhile (· != padByte) = [] ∧
      (List.replicate pads padByte).dropWhile (· != padByte) = List.replicate pads padByte := by
    cases pads <;> simp [List.replicate_succ]
  have hany : (List.replicate pads padByte).any (· != padByte) = false := by
    cases pads <;> simp [List.replicate_succ]
  rw [base64DecodeEnd]
  simp only [List.takeWhile_append_of_pos hsymbol, List.dropWhile_append_of_pos hsymbol, hpads,
    hany, List.append_nil, base64Symbols_map small, ok_bind, List.length_map, List.length_append,
    List.length_replicate, tail]
  rw [if_neg (by simp; omega), if_neg (by simp; omega), if_neg (by omega)]

theorem base64DecodeFrom_of_length_le {text : List UInt8} (short : text.length ≤ 4)
    (offset : Nat) : base64DecodeFrom offset text = base64DecodeEnd offset text := by
  rw [base64DecodeFrom]
  rintro a b c d e rest rfl
  simp only [List.length_cons] at short
  omega

/-- A whole group before others is read by itself. -/
theorem base64DecodeFrom_group {a b c d : Nat} (small : ∀ value ∈ [a, b, c, d], value < 64)
    {text group bytes : List UInt8} (more : text ≠ [])
    (tail : base64Tail [a, b, c, d] = some group) {offset : Nat}
    (read : base64DecodeFrom (offset + 4) text = .ok bytes) :
    base64DecodeFrom offset ([a, b, c, d].map base64Byte ++ text) = .ok (group ++ bytes) := by
  obtain ⟨e, rest, rfl⟩ := List.exists_cons_of_ne_nil more
  have hsymbols := base64Symbols_map small offset
  simp only [List.map_cons, List.map_nil] at hsymbols
  simp only [List.map_cons, List.map_nil, List.cons_append, List.nil_append]
  rw [base64DecodeFrom, hsymbols, ok_bind, read, ok_bind, tail]
  rfl

/-! ## Bytes -/

theorem base64Tail_three (a b c : UInt8) :
    base64Tail [a.toNat / 4, a.toNat % 4 * 16 + b.toNat / 16, b.toNat % 16 * 4 + c.toNat / 64,
      c.toNat % 64] = some [a, b, c] := by
  have ha := a.toNat_lt
  have hb := b.toNat_lt
  have hc := c.toNat_lt
  have hfirst : a.toNat / 4 * 4 + (a.toNat % 4 * 16 + b.toNat / 16) / 16 = a.toNat := by omega
  have hsecond : (a.toNat % 4 * 16 + b.toNat / 16) % 16 * 16 +
      (b.toNat % 16 * 4 + c.toNat / 64) / 4 = b.toNat := by omega
  have hthird : (b.toNat % 16 * 4 + c.toNat / 64) % 4 * 64 + c.toNat % 64 = c.toNat := by omega
  rw [base64Tail, hfirst, hsecond, hthird, UInt8.ofNat_toNat, UInt8.ofNat_toNat,
    UInt8.ofNat_toNat]

theorem base64Tail_two (a b : UInt8) :
    base64Tail [a.toNat / 4, a.toNat % 4 * 16 + b.toNat / 16, b.toNat % 16 * 4] =
      some [a, b] := by
  have ha := a.toNat_lt
  have hb := b.toNat_lt
  have hfirst : a.toNat / 4 * 4 + (a.toNat % 4 * 16 + b.toNat / 16) / 16 = a.toNat := by omega
  have hsecond : (a.toNat % 4 * 16 + b.toNat / 16) % 16 * 16 + b.toNat % 16 * 4 / 4 =
      b.toNat := by omega
  rw [base64Tail, if_pos (by omega), hfirst, hsecond, UInt8.ofNat_toNat, UInt8.ofNat_toNat]

theorem base64Tail_one (a : UInt8) :
    base64Tail [a.toNat / 4, a.toNat % 4 * 16] = some [a] := by
  have ha := a.toNat_lt
  have hfirst : a.toNat / 4 * 4 + a.toNat % 4 * 16 / 16 = a.toNat := by omega
  rw [base64Tail, if_pos (by omega), hfirst, UInt8.ofNat_toNat]

theorem base64DecodeFrom_encode (offset : Nat) (bytes : List UInt8) :
    base64DecodeFrom offset (encode (base64Encode bytes)) = .ok bytes := by
  fun_induction base64Encode bytes generalizing offset with
  | case1 => rfl
  | case2 a =>
      have ha := a.toNat_lt
      rw [encode_base64Char_cons (by omega), encode_base64Char_cons (by omega), encode_pad_cons,
        encode_pad_cons, base64DecodeFrom_of_length_le (by simp [encode])]
      exact base64DecodeEnd_eq_ok 2 (by simp; omega) (by simp) (by simp)
        (base64Tail_one a) offset
  | case3 a b =>
      have ha := a.toNat_lt
      have hb := b.toNat_lt
      rw [encode_base64Char_cons (by omega), encode_base64Char_cons (by omega),
        encode_base64Char_cons (by omega), encode_pad_cons,
        base64DecodeFrom_of_length_le (by simp [encode])]
      exact base64DecodeEnd_eq_ok 1 (by simp; omega) (by simp) (by simp)
        (base64Tail_two a b) offset
  | case4 a b c rest ih =>
      have ha := a.toNat_lt
      have hb := b.toNat_lt
      have hc := c.toNat_lt
      rw [encode_base64Char_cons (by omega), encode_base64Char_cons (by omega),
        encode_base64Char_cons (by omega), encode_base64Char_cons (by omega)]
      cases rest with
      | nil =>
          rw [base64DecodeFrom_of_length_le (by simp [encode, base64Encode])]
          exact base64DecodeEnd_eq_ok 0 (by simp; omega) (by simp) (by simp)
            (base64Tail_three a b c) offset
      | cons d rest =>
          have more : encode (base64Encode (d :: rest)) ≠ [] := by
            rw [← List.length_pos_iff, length_encode_base64Encode, List.length_cons]
            omega
          exact base64DecodeFrom_group (by simp; omega) more (base64Tail_three a b c) (ih _)

/-- The bytes of which a base64 text was written are read back. -/
theorem base64Decode_encode (bytes : List UInt8) :
    base64Decode (encode (base64Encode bytes)) = .ok bytes := by
  rw [base64Decode]
  split
  · rw [if_neg (by rw [length_encode_base64Encode]; omega), base64DecodeFrom_encode]
  · next hlast =>
    have hempty := List.getLast?_eq_none_iff.1 hlast
    rw [← base64DecodeFrom_encode 0 bytes, hempty]
    rfl

/-! ## Texts that are read -/

/-- A symbol has the value that it is written for. -/
theorem base64Value?_eq_some {byte : UInt8} {value : Nat} (given : base64Value? byte = some value) :
    value < 64 ∧ byte = base64Byte value := by
  have hall : ∀ code < 256, ∀ value ∈ base64Value? (UInt8.ofNat code),
      value < 64 ∧ UInt8.ofNat code = base64Byte value := by
    decide +kernel
  have hbyte := hall byte.toNat byte.toNat_lt value
  rw [UInt8.ofNat_toNat] at hbyte
  exact hbyte given

theorem base64Symbol_eq_ok {offset : Nat} {byte : UInt8} {value : Nat}
    (read : base64Symbol offset byte = .ok value) : value < 64 ∧ byte = base64Byte value := by
  rw [base64Symbol] at read
  split at read
  · next given =>
    cases read
    exact base64Value?_eq_some given
  · cases read

theorem eq_map_of_base64Symbols {offset : Nat} {text : List UInt8} {values : List Nat}
    (read : base64Symbols offset text = .ok values) :
    (∀ value ∈ values, value < 64) ∧ text = values.map base64Byte := by
  induction text generalizing offset values with
  | nil =>
      cases read
      exact ⟨by simp, rfl⟩
  | cons byte text ih =>
      simp only [base64Symbols, bind_eq_ok_iff] at read
      obtain ⟨value, hvalue, others, hothers, heq⟩ := read
      cases heq
      obtain ⟨hsmall, rfl⟩ := base64Symbol_eq_ok hvalue
      obtain ⟨hrest, rfl⟩ := ih hothers
      exact ⟨List.forall_mem_cons.2 ⟨hsmall, hrest⟩, rfl⟩

/-- The symbols of a whole group are those that its bytes are written as. -/
theorem encode_base64Encode_of_whole {a b c d : Nat} (small : ∀ value ∈ [a, b, c, d], value < 64)
    (bytes : List UInt8) :
    encode (base64Encode ((base64Tail [a, b, c, d]).getD [] ++ bytes)) =
      [a, b, c, d].map base64Byte ++ encode (base64Encode bytes) := by
  simp only [List.forall_mem_cons] at small
  obtain ⟨ha, hb, hc, hd, -⟩ := small
  have hfirst : (UInt8.ofNat (a * 4 + b / 16)).toNat = a * 4 + b / 16 :=
    UInt8.toNat_ofNat_of_lt (by simp [UInt8.size]; omega)
  have hsecond : (UInt8.ofNat (b % 16 * 16 + c / 4)).toNat = b % 16 * 16 + c / 4 :=
    UInt8.toNat_ofNat_of_lt (by simp [UInt8.size]; omega)
  have hthird : (UInt8.ofNat (c % 4 * 64 + d)).toNat = c % 4 * 64 + d :=
    UInt8.toNat_ofNat_of_lt (by simp [UInt8.size]; omega)
  have hvalues : (a * 4 + b / 16) / 4 = a ∧
      (a * 4 + b / 16) % 4 * 16 + (b % 16 * 16 + c / 4) / 16 = b ∧
      (b % 16 * 16 + c / 4) % 16 * 4 + (c % 4 * 64 + d) / 64 = c ∧
      (c % 4 * 64 + d) % 64 = d := by
    omega
  rw [base64Tail, Option.getD_some, List.cons_append, List.cons_append, List.cons_append,
    List.nil_append, base64Encode, hfirst, hsecond, hthird, hvalues.1, hvalues.2.1, hvalues.2.2.1,
    hvalues.2.2.2, encode_base64Char_cons ha, encode_base64Char_cons hb, encode_base64Char_cons hc,
    encode_base64Char_cons hd]
  rfl

theorem encode_base64Encode_of_three {a b c : Nat} (small : ∀ value ∈ [a, b, c], value < 64)
    {group : List UInt8} (tail : base64Tail [a, b, c] = some group) :
    encode (base64Encode group) = [a, b, c].map base64Byte ++ [padByte] := by
  simp only [List.forall_mem_cons] at small
  obtain ⟨ha, hb, hc, -⟩ := small
  rw [base64Tail] at tail
  split at tail
  · next clear =>
    cases tail
    have hfirst : (UInt8.ofNat (a * 4 + b / 16)).toNat = a * 4 + b / 16 :=
      UInt8.toNat_ofNat_of_lt (by simp [UInt8.size]; omega)
    have hsecond : (UInt8.ofNat (b % 16 * 16 + c / 4)).toNat = b % 16 * 16 + c / 4 :=
      UInt8.toNat_ofNat_of_lt (by simp [UInt8.size]; omega)
    have hvalues : (a * 4 + b / 16) / 4 = a ∧
        (a * 4 + b / 16) % 4 * 16 + (b % 16 * 16 + c / 4) / 16 = b ∧
        (b % 16 * 16 + c / 4) % 16 * 4 = c := by
      omega
    rw [base64Encode, hfirst, hsecond, hvalues.1, hvalues.2.1, hvalues.2.2,
      encode_base64Char_cons ha, encode_base64Char_cons hb, encode_base64Char_cons hc,
      encode_pad_cons]
    rfl
  · cases tail

theorem encode_base64Encode_of_two {a b : Nat} (small : ∀ value ∈ [a, b], value < 64)
    {group : List UInt8} (tail : base64Tail [a, b] = some group) :
    encode (base64Encode group) = [a, b].map base64Byte ++ [padByte, padByte] := by
  simp only [List.forall_mem_cons] at small
  obtain ⟨ha, hb, -⟩ := small
  rw [base64Tail] at tail
  split at tail
  · next clear =>
    cases tail
    have hfirst : (UInt8.ofNat (a * 4 + b / 16)).toNat = a * 4 + b / 16 :=
      UInt8.toNat_ofNat_of_lt (by simp [UInt8.size]; omega)
    have hvalues : (a * 4 + b / 16) / 4 = a ∧ (a * 4 + b / 16) % 4 * 16 = b := by
      omega
    rw [base64Encode, hfirst, hvalues.1, hvalues.2, encode_base64Char_cons ha,
      encode_base64Char_cons hb, encode_pad_cons, encode_pad_cons]
    rfl
  · cases tail

/-- A last group that is read is that of its bytes, with the padding that makes it whole. -/
theorem eq_encode_of_base64DecodeEnd {offset : Nat} {text bytes : List UInt8}
    (short : text.length ≤ 4) (read : base64DecodeEnd offset text = .ok bytes) :
    text = encode (base64Encode bytes) := by
  simp only [base64DecodeEnd, bind_eq_ok_iff] at read
  obtain ⟨values, hvalues, hread⟩ := read
  obtain ⟨hsmall, hsymbols⟩ := eq_map_of_base64Symbols hvalues
  have htext : text.takeWhile (· != padByte) ++ text.dropWhile (· != padByte) = text :=
    List.takeWhile_append_dropWhile
  rw [hsymbols] at htext hread
  rw [List.length_map] at hread
  generalize text.dropWhile (· != padByte) = pads at htext hread
  subst htext
  rw [List.length_append, List.length_map] at short hread
  split at hread
  · cases hread
  next hpadding =>
  split at hread
  · cases hread
  next hleast =>
  split at hread
  · cases hread
  next hwhole =>
  have hpads : pads = List.replicate pads.length padByte := by
    rw [List.eq_replicate_iff]
    refine ⟨rfl, fun byte hbyte => ?_⟩
    by_contra hother
    exact hpadding ⟨by simpa using List.ne_nil_of_mem hbyte,
      .inr (List.any_eq_true.2 ⟨byte, hbyte, bne_iff_ne.2 hother⟩)⟩
  have htail : base64Tail values = some bytes := by
    split at hread
    · next tail htail =>
      cases hread
      exact htail
    · cases hread
  match values with
  | [] =>
      have hnone : pads = [] := by
        by_contra hsome
        exact hpadding ⟨by simpa using hsome, .inl (by simp)⟩
      cases htail
      rw [hnone]
      rfl
  | [a] => exact absurd ⟨by simp, by simp⟩ hleast
  | [a, b] =>
      have hcount : pads.length = 2 := by
        simp only [List.length_cons, List.length_nil] at short hwhole
        omega
      rw [hpads, hcount, encode_base64Encode_of_two hsmall htail]
      rfl
  | [a, b, c] =>
      have hcount : pads.length = 1 := by
        simp only [List.length_cons, List.length_nil] at short hwhole
        omega
      rw [hpads, hcount, encode_base64Encode_of_three hsmall htail]
      rfl
  | [a, b, c, d] =>
      have hcount : pads.length = 0 := by
        simp only [List.length_cons, List.length_nil] at short
        omega
      have hgroup := encode_base64Encode_of_whole hsmall []
      rw [htail, Option.getD_some, List.append_nil] at hgroup
      rw [hpads, hcount, hgroup]
      rfl
  | a :: b :: c :: d :: e :: others =>
      simp only [List.length_cons] at short
      omega

theorem eq_encode_of_base64DecodeFrom {offset : Nat} {text bytes : List UInt8}
    (read : base64DecodeFrom offset text = .ok bytes) : text = encode (base64Encode bytes) := by
  fun_induction base64DecodeFrom offset text generalizing bytes with
  | case1 offset a b c d e rest ih =>
      simp only [bind_eq_ok_iff] at read
      obtain ⟨values, hvalues, others, hothers, heq⟩ := read
      cases heq
      obtain ⟨hsmall, hsymbols⟩ := eq_map_of_base64Symbols hvalues
      match values, hsymbols with
      | [v, w, x, y], hsymbols =>
          rw [encode_base64Encode_of_whole hsmall, ← ih hothers, ← hsymbols]
          rfl
  | case2 offset text whole =>
      apply eq_encode_of_base64DecodeEnd _ read
      rcases text with _ | ⟨a, _ | ⟨b, _ | ⟨c, _ | ⟨d, _ | ⟨e, rest⟩⟩⟩⟩⟩
      · simp
      · simp
      · simp
      · simp
      · simp
      · exact (whole a b c d e rest rfl).elim

/-- A text is read as the bytes of which it is the base64 text, and no other text is read. -/
theorem base64Decode_eq_ok_iff {text bytes : List UInt8} :
    base64Decode text = .ok bytes ↔ text = encode (base64Encode bytes) := by
  constructor
  · intro read
    rw [base64Decode] at read
    split at read
    · split at read
      · cases read
      · exact eq_encode_of_base64DecodeFrom read
    · next hlast =>
      cases read
      exact List.getLast?_eq_none_iff.1 hlast
  · rintro rfl
    exact base64Decode_encode bytes

/-! ## Lengths -/

theorem length_of_base64Symbols {offset : Nat} {text : List UInt8} {values : List Nat}
    (read : base64Symbols offset text = .ok values) : values.length = text.length := by
  induction text generalizing offset values with
  | nil =>
      cases read
      rfl
  | cons byte text ih =>
      simp only [base64Symbols, bind_eq_ok_iff] at read
      obtain ⟨value, -, others, hothers, heq⟩ := read
      cases heq
      rw [List.length_cons, List.length_cons, ih hothers]

theorem length_of_base64Tail {values : List Nat} {bytes : List UInt8}
    (tail : base64Tail values = some bytes) : bytes.length ≤ values.length := by
  unfold base64Tail at tail
  split at tail
  · split at tail
    · cases tail
      simp
    · cases tail
  · split at tail
    · cases tail
      simp
    · cases tail
  · cases tail
    simp
  · cases tail
    simp

theorem length_of_base64DecodeEnd {offset : Nat} {text bytes : List UInt8}
    (read : base64DecodeEnd offset text = .ok bytes) : bytes.length ≤ text.length := by
  simp only [base64DecodeEnd, bind_eq_ok_iff] at read
  obtain ⟨values, hvalues, hread⟩ := read
  have hlength := length_of_base64Symbols hvalues
  have hsymbols := (List.takeWhile_sublist (· != padByte) (l := text)).length_le
  split at hread
  · cases hread
  · split at hread
    · cases hread
    · split at hread
      · cases hread
      · split at hread
        · next htail =>
          cases hread
          have := length_of_base64Tail htail
          omega
        · cases hread

/-- Reading gives no more bytes than there are symbols. -/
theorem length_of_base64Decode {text bytes : List UInt8}
    (read : base64Decode text = .ok bytes) : bytes.length ≤ text.length := by
  have hfrom (offset : Nat) {text bytes : List UInt8}
      (read : base64DecodeFrom offset text = .ok bytes) : bytes.length ≤ text.length := by
    fun_induction base64DecodeFrom offset text generalizing bytes with
    | case1 offset a b c d e rest ih =>
        simp only [bind_eq_ok_iff] at read
        obtain ⟨values, hvalues, others, hothers, heq⟩ := read
        cases heq
        have hlength := length_of_base64Symbols hvalues
        have hrest := ih hothers
        have hgroup : ((base64Tail values).getD []).length ≤ values.length := by
          cases htail : base64Tail values with
          | none => simp
          | some group => exact length_of_base64Tail htail
        simp only [List.length_append, List.length_cons, List.length_nil] at hlength hrest ⊢
        omega
    | case2 offset text _ => exact length_of_base64DecodeEnd read
  unfold base64Decode at read
  split at read
  · split at read
    · cases read
    · exact hfrom 0 read
  · cases read
    simp

end MailMerge.Mail
