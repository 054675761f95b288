/-
# Lossy reading of bytes

What reading bytes as text means, told without the reader. Where the bytes of a character stand,
this character is read. Elsewhere the longest stretch that begins the bytes of some character
is passed over as malformed, or a single byte when there is none. Bytes divide in this way in
exactly one manner, and the reader finds it. So a line feed is read exactly from its own byte:
however bytes are cut short or overlong, none before it takes it along and none stands for it.
-/

import MailMerge.Proofs.Text.Utf8

namespace MailMerge.Text

/-- The bytes of some character begin with these bytes. -/
def BeginsChar (bytes : List UInt8) : Prop :=
  ∃ c, bytes <+: String.utf8EncodeChar c

/-- A stretch of bytes that is passed over as one malformed unit, before the rest of the bytes. -/
structure IsMalformed (stretch rest : List UInt8) : Prop where
  /-- No character can be read where the stretch begins. -/
  unreadable : ∀ c, ¬ String.utf8EncodeChar c <+: stretch ++ rest
  /-- The stretch begins a character, unless it is one byte. -/
  begins : BeginsChar stretch ∨ stretch.length = 1
  /-- No longer stretch begins a character. -/
  longest : ∀ front, front <+: stretch ++ rest → BeginsChar front →
    front.length ≤ stretch.length
  nonempty : stretch ≠ []

/-- The units that bytes are read as. -/
inductive ReadsAs : List UInt8 → List DecodedUnit → Prop where
  | nil : ReadsAs [] []
  | char (c : Char) {bytes : List UInt8} {units : List DecodedUnit} (others : ReadsAs bytes units) :
      ReadsAs (String.utf8EncodeChar c ++ bytes) (some c :: units)
  | malformed {stretch bytes : List UInt8} {units : List DecodedUnit}
      (malformed : IsMalformed stretch bytes) (others : ReadsAs bytes units) :
      ReadsAs (stretch ++ bytes) (none :: units)

/-- The text of bytes has one replacement character for each malformed unit. -/
def IsLossyText (bytes : List UInt8) (text : List Char) : Prop :=
  ∃ units, ReadsAs bytes units ∧ text = units.map fun unit => unit.getD replacement

/-! ## Characters that are completed -/

/-- The bytes that complete a character of which the first are known. -/
inductive PartialChar.Completes : PartialChar → List UInt8 → Char → Prop where
  | last {bits low high six : Nat} (hsix : six < 64) (hlow : low ≤ six + 128)
      (hhigh : six + 128 ≤ high) :
      Completes ⟨bits, 1, low, high⟩ [UInt8.ofNat (six + 128)] (Char.ofNat (bits * 64 + six))
  | inner {bits owed low high six : Nat} {more : List UInt8} {c : Char} (hsix : six < 64)
      (hlow : low ≤ six + 128) (hhigh : six + 128 ≤ high)
      (rest : Completes ⟨bits * 64 + six, owed + 1, 0x80, 0xBF⟩ more c) :
      Completes ⟨bits, owed + 2, low, high⟩ (UInt8.ofNat (six + 128) :: more) c

/-- A character that is still open owes a byte, and some byte that continues characters is within
its bounds. -/
structure PartialChar.IsOpen (part : PartialChar) : Prop where
  owed : 0 < part.owed
  low : 0x80 ≤ part.low
  range : part.low ≤ part.high
  high : part.high ≤ 0xBF

theorem toNat_val_ofNat {v : Nat} (valid : v < 0xD800 ∨ 0xDFFF < v ∧ v < 0x110000) :
    (Char.ofNat v).val.toNat = v := by
  rw [Char.ofNat, dif_pos valid]
  rfl

section Widths

variable {bits six next last : Nat}

theorem utf8EncodeChar_two (least : 2 ≤ bits) (small : bits < 32) (hsix : six < 64) :
    String.utf8EncodeChar (Char.ofNat (bits * 64 + six)) =
      [UInt8.ofNat (bits + 192), UInt8.ofNat (six + 128)] := by
  have hfirst : (bits * 64 + six) / 64 % 32 = bits := by omega
  have hsecond : (bits * 64 + six) % 64 = six := by omega
  rw [String.utf8EncodeChar, toNat_val_ofNat (by omega), if_neg (by omega), if_pos (by omega),
    hfirst, hsecond]

theorem utf8EncodeChar_three (small : bits < 16) (hsix : six < 64) (hlast : last < 64)
    (least : bits = 0 → 32 ≤ six) (scalar : bits = 13 → six < 32) :
    String.utf8EncodeChar (Char.ofNat ((bits * 64 + six) * 64 + last)) =
      [UInt8.ofNat (bits + 224), UInt8.ofNat (six + 128), UInt8.ofNat (last + 128)] := by
  have hfirst : ((bits * 64 + six) * 64 + last) / 4096 % 16 = bits := by omega
  have hsecond : ((bits * 64 + six) * 64 + last) / 64 % 64 = six := by omega
  have hthird : ((bits * 64 + six) * 64 + last) % 64 = last := by omega
  rw [String.utf8EncodeChar, toNat_val_ofNat (by omega), if_neg (by omega), if_neg (by omega),
    if_pos (by omega), hfirst, hsecond, hthird]

theorem utf8EncodeChar_four (small : bits ≤ 4) (hsix : six < 64) (hnext : next < 64)
    (hlast : last < 64) (least : bits = 0 → 16 ≤ six) (greatest : bits = 4 → six < 16) :
    String.utf8EncodeChar (Char.ofNat (((bits * 64 + six) * 64 + next) * 64 + last)) =
      [UInt8.ofNat (bits + 240), UInt8.ofNat (six + 128), UInt8.ofNat (next + 128),
        UInt8.ofNat (last + 128)] := by
  have hfirst : (((bits * 64 + six) * 64 + next) * 64 + last) / 262144 % 8 = bits := by omega
  have hsecond : (((bits * 64 + six) * 64 + next) * 64 + last) / 4096 % 64 = six := by omega
  have hthird : (((bits * 64 + six) * 64 + next) * 64 + last) / 64 % 64 = next := by omega
  have hfourth : (((bits * 64 + six) * 64 + next) * 64 + last) % 64 = last := by omega
  rw [String.utf8EncodeChar, toNat_val_ofNat (by omega), if_neg (by omega), if_neg (by omega),
    if_neg (by omega), hfirst, hsecond, hthird, hfourth]

end Widths

theorem byte_eq_ofNat {byte : UInt8} {n : Nat} (heq : byte.toNat = n) : byte = UInt8.ofNat n := by
  rw [← heq, UInt8.ofNat_toNat]

/-- The first bytes of characters of several bytes, and what they leave open. The bounds on the
second byte are those under which the character is long enough and exists. -/
inductive PartialChar.IsOpenedBy : PartialChar → UInt8 → Prop where
  | two {byte : UInt8} {bits : Nat} (hbyte : byte.toNat = bits + 192) (least : 2 ≤ bits)
      (small : bits < 32) : IsOpenedBy ⟨bits, 1, 0x80, 0xBF⟩ byte
  | three {byte : UInt8} {bits low high : Nat} (hbyte : byte.toNat = bits + 224)
      (small : bits < 16) (hlow : 0x80 ≤ low) (range : low ≤ high) (hhigh : high ≤ 0xBF)
      (least : bits = 0 → 0xA0 ≤ low) (scalar : bits = 13 → high ≤ 0x9F) :
      IsOpenedBy ⟨bits, 2, low, high⟩ byte
  | four {byte : UInt8} {bits low high : Nat} (hbyte : byte.toNat = bits + 240)
      (small : bits ≤ 4) (hlow : 0x80 ≤ low) (range : low ≤ high) (hhigh : high ≤ 0xBF)
      (least : bits = 0 → 0x90 ≤ low) (greatest : bits = 4 → high ≤ 0x8F) :
      IsOpenedBy ⟨bits, 3, low, high⟩ byte

theorem isOpenedBy_of_opens {byte : UInt8} {part : PartialChar}
    (opens : FirstByte.of byte = .opens part) : part.IsOpenedBy byte := by
  simp only [FirstByte.of] at opens
  split at opens
  · cases opens
  split at opens
  · cases opens
  split at opens
  · obtain rfl := FirstByte.opens.inj opens
    exact .two (by omega) (by omega) (by omega)
  split at opens
  · obtain rfl := FirstByte.opens.inj opens
    exact .three (by omega) (by omega) (by omega) (by omega) (by omega) (by omega) (by omega)
  split at opens
  · obtain rfl := FirstByte.opens.inj opens
    exact .three (by omega) (by omega) (by omega) (by omega) (by omega) (by omega) (by omega)
  split at opens
  · obtain rfl := FirstByte.opens.inj opens
    exact .three (by omega) (by omega) (by omega) (by omega) (by omega) (by omega) (by omega)
  split at opens
  · obtain rfl := FirstByte.opens.inj opens
    exact .four (by omega) (by omega) (by omega) (by omega) (by omega) (by omega) (by omega)
  split at opens
  · obtain rfl := FirstByte.opens.inj opens
    exact .four (by omega) (by omega) (by omega) (by omega) (by omega) (by omega) (by omega)
  split at opens
  · obtain rfl := FirstByte.opens.inj opens
    exact .four (by omega) (by omega) (by omega) (by omega) (by omega) (by omega) (by omega)
  · cases opens

theorem PartialChar.IsOpenedBy.isOpen {byte : UInt8} {part : PartialChar}
    (opened : part.IsOpenedBy byte) : part.IsOpen := by
  cases opened with
  | two => exact ⟨by simp, by simp, by simp, by simp⟩
  | three _ _ hlow range hhigh => exact ⟨by simp, hlow, range, hhigh⟩
  | four _ _ hlow range hhigh => exact ⟨by simp, hlow, range, hhigh⟩

/-- A character that is completed has the bytes from which it was read. -/
theorem PartialChar.Completes.utf8EncodeChar_eq {byte : UInt8} {part : PartialChar}
    {more : List UInt8} {c : Char} (completes : part.Completes more c)
    (opened : part.IsOpenedBy byte) : String.utf8EncodeChar c = byte :: more := by
  cases opened with
  | two hbyte least small =>
      rw [byte_eq_ofNat hbyte]
      cases completes with
      | last hsix => exact utf8EncodeChar_two least small hsix
  | three hbyte small _ _ _ least scalar =>
      rw [byte_eq_ofNat hbyte]
      cases completes with
      | inner hsix hlow hhigh rest =>
        cases rest with
        | last hlast =>
          exact utf8EncodeChar_three small hsix hlast (by omega) (by omega)
  | four hbyte small _ _ _ least greatest =>
      rw [byte_eq_ofNat hbyte]
      cases completes with
      | inner hsix hlow hhigh rest =>
        cases rest with
        | inner hnext _ _ rest =>
          cases rest with
          | last hlast =>
            exact utf8EncodeChar_four small hsix hnext hlast (by omega) (by omega)

/-- From the third byte on every byte has the same bounds. -/
theorem PartialChar.isOpen_further (bits owed : Nat) :
    PartialChar.IsOpen ⟨bits, owed + 1, 0x80, 0xBF⟩ :=
  ⟨by simp, by simp, by simp, by simp⟩

/-- Every open character can be completed. -/
theorem PartialChar.IsOpen.exists_completes {part : PartialChar} (isOpen : part.IsOpen) :
    ∃ more c, part.Completes more c := by
  obtain ⟨bits, owed, low, high⟩ := part
  obtain ⟨howed, hlow, hrange, hhigh⟩ := isOpen
  dsimp only at howed hlow hrange hhigh
  obtain ⟨six, rfl⟩ := Nat.exists_eq_add_of_le' hlow
  obtain ⟨owed, rfl⟩ := Nat.exists_eq_add_one.2 howed
  induction owed generalizing bits six high with
  | zero => exact ⟨_, _, .last (by omega) (Nat.le_refl _) hrange⟩
  | succ owed ih =>
      obtain ⟨-, hlow', hrange', hhigh'⟩ := isOpen_further (bits * 64 + six) owed
      obtain ⟨more, c, completes⟩ :=
        ih (bits * 64 + six) 0xBF hhigh' 0 hlow' hrange' (Nat.succ_pos owed)
      exact ⟨_, c, .inner (by omega) (Nat.le_refl _) hrange completes⟩

/-! ## The next unit -/

theorem decodeUnits_cut {part : PartialChar} {byte : UInt8}
    (outside : ¬ (part.low ≤ byte.toNat ∧ byte.toNat ≤ part.high)) (bytes : List UInt8) :
    decodeUnits (some part) (byte :: bytes) = none :: decodeUnits none (byte :: bytes) := by
  rw [decodeUnits, readByte]
  dsimp only
  rw [if_neg outside, List.cons_append]
  rw [decodeUnits, readByte]

/-- Bytes behind the first of a character complete it, or they are cut off where no byte does.
That depends on the one byte behind the cut alone. -/
theorem PartialChar.IsOpen.completes_or_cut {part : PartialChar} (isOpen : part.IsOpen)
    (bytes : List UInt8) :
    (∃ more c rest, bytes = more ++ rest ∧ part.Completes more c ∧
        decodeUnits (some part) bytes = some c :: decodeUnits none rest) ∨
      ∃ stretch rest, bytes = stretch ++ rest ∧
        (∃ more c, part.Completes (stretch ++ more) c) ∧
        ∀ others : List UInt8, others.head? = rest.head? →
          decodeUnits (some part) (stretch ++ others) = none :: decodeUnits none others := by
  -- Each byte that fits leaves another open character, which owes one byte less.
  induction bytes generalizing part with
  | nil =>
      refine .inr ⟨[], [], rfl, isOpen.exists_completes, fun others hothers => ?_⟩
      rw [List.head?_nil, List.head?_eq_none_iff] at hothers
      rw [hothers]
      rfl
  | cons byte bytes ih =>
      by_cases inside : part.low ≤ byte.toNat ∧ byte.toNat ≤ part.high
      · obtain ⟨bits, owed, low, high⟩ := part
        obtain ⟨howed, hleast, -, hgreatest⟩ := isOpen
        dsimp only at howed hleast hgreatest inside
        obtain ⟨six, hbyte⟩ := Nat.exists_eq_add_of_le' (Nat.le_trans hleast inside.1)
        obtain rfl := byte_eq_ofNat hbyte
        rw [hbyte] at inside
        have hsix : six < 64 := by omega
        obtain ⟨owed, rfl⟩ := Nat.exists_eq_add_one.2 howed
        cases owed with
        | zero =>
            refine .inl ⟨_, _, bytes, rfl, .last hsix inside.1 inside.2, ?_⟩
            exact decodeUnits_last hsix inside.1 inside.2 bytes
        | succ owed =>
            have hinner (others : List UInt8) := @decodeUnits_inner bits low high six hsix inside.1
              inside.2 others owed
            rcases ih (isOpen_further (bits * 64 + six) owed) with
              ⟨more, c, rest, rfl, completes, hread⟩ |
              ⟨stretch, rest, rfl, ⟨more, c, completes⟩, hcut⟩
            · refine .inl ⟨_ :: more, c, rest, rfl, .inner hsix inside.1 inside.2 completes, ?_⟩
              rw [hinner, hread]
            · refine .inr ⟨_ :: stretch, rest, rfl,
                ⟨more, c, .inner hsix inside.1 inside.2 completes⟩, fun others hothers => ?_⟩
              rw [List.cons_append, hinner, hcut others hothers]
      · refine .inr ⟨[], byte :: bytes, rfl, isOpen.exists_completes, fun others hothers => ?_⟩
        obtain ⟨others, rfl⟩ := List.head?_eq_some_iff.1 hothers
        exact decodeUnits_cut inside others

/-- A stretch that is passed over whatever stands behind the next byte is malformed: if a
character began with it, this character would have been read. -/
theorem isMalformed_of_decodeUnits {stretch rest : List UInt8} (nonempty : stretch ≠ [])
    (begins : BeginsChar stretch ∨ stretch.length = 1)
    (cut : ∀ others : List UInt8, others.head? = rest.head? →
      decodeUnits none (stretch ++ others) = none :: decodeUnits none others) :
    IsMalformed stretch rest := by
  refine ⟨?_, begins, ?_, nonempty⟩
  · rintro c ⟨others, hothers⟩
    have hread := decodeUnits_utf8EncodeChar_append c others
    rw [hothers, cut rest rfl] at hread
    cases hread
  · rintro front hfront ⟨c, others, hothers⟩
    by_contra hlonger
    -- The bytes of `c` go on behind the stretch with the byte at which the reader cuts it off, and
    -- yet it reads `c` from them.
    have hstretch : stretch <+: front :=
      List.prefix_of_prefix_length_le (List.prefix_append ..) hfront (by omega)
    obtain ⟨back, rfl⟩ := hstretch
    rw [List.prefix_append_right_inj] at hfront
    have hhead : (back ++ others).head? = rest.head? := by
      obtain ⟨tail, rfl⟩ := hfront
      cases back with
      | nil => simp at hlonger
      | cons byte back => rfl
    have hread := decodeUnits_utf8EncodeChar_append c []
    rw [← hothers, List.append_nil, List.append_assoc, cut _ hhead] at hread
    cases hread

/-- The reader begins with a character whose bytes stand at the front, or it passes over what is
malformed there. -/
theorem decodeUnits_cases {bytes : List UInt8} (nonempty : bytes ≠ []) :
    (∃ c rest, bytes = String.utf8EncodeChar c ++ rest ∧
        decodeUnits none bytes = some c :: decodeUnits none rest) ∨
      ∃ stretch rest, bytes = stretch ++ rest ∧ IsMalformed stretch rest ∧
        decodeUnits none bytes = none :: decodeUnits none rest := by
  obtain ⟨byte, bytes, rfl⟩ := List.exists_cons_of_ne_nil nonempty
  cases hfirst : FirstByte.of byte with
  | whole c =>
      refine .inl ⟨c, bytes, ?_, decodeUnits_of_whole hfirst bytes⟩
      simp only [FirstByte.of] at hfirst
      split at hfirst
      · next hsmall =>
        cases hfirst
        rw [String.utf8EncodeChar, toNat_val_ofNat (by omega), if_pos (by omega),
          UInt8.ofNat_toNat]
        rfl
      · repeat' split at hfirst
        all_goals cases hfirst
  | malformed =>
      have hcut (others : List UInt8) :
          decodeUnits none ([byte] ++ others) = none :: decodeUnits none others := by
        rw [List.singleton_append, decodeUnits, readByte, readFirst, hfirst]
        rfl
      refine .inr ⟨[byte], bytes, rfl, ?_, hcut bytes⟩
      exact isMalformed_of_decodeUnits (by simp) (.inr rfl) fun others _ => hcut others
  | opens part =>
      have hopens := decodeUnits_of_opens hfirst
      have opened := isOpenedBy_of_opens hfirst
      rcases opened.isOpen.completes_or_cut bytes with
        ⟨more, c, rest, rfl, completes, hread⟩ | ⟨stretch, rest, rfl, ⟨more, c, completes⟩, hcut⟩
      · refine .inl ⟨c, rest, ?_, by rw [hopens, hread]⟩
        rw [completes.utf8EncodeChar_eq opened]
        rfl
      · refine .inr ⟨byte :: stretch, rest, rfl, ?_, by rw [hopens, hcut rest rfl]⟩
        refine isMalformed_of_decodeUnits (by simp) (.inl ⟨c, more, ?_⟩) fun others hothers => ?_
        · rw [completes.utf8EncodeChar_eq opened]
          rfl
        · rw [List.cons_append, hopens, hcut others hothers]

/-! ## All units -/

theorem readsAs_decodeUnits (bytes : List UInt8) : ReadsAs bytes (decodeUnits none bytes) := by
  induction hlength : bytes.length using Nat.strongRecOn generalizing bytes with
  | _ length ih =>
    subst hlength
    by_cases hempty : bytes = []
    · rw [hempty]
      exact .nil
    · rcases decodeUnits_cases hempty with ⟨c, rest, rfl, hread⟩ |
        ⟨stretch, rest, rfl, malformed, hread⟩
      · have hshorter : rest.length < (String.utf8EncodeChar c ++ rest).length := by
          have hsize := c.utf8Size_pos
          rw [List.length_append, String.length_utf8EncodeChar]
          omega
        rw [hread]
        exact .char c (ih _ hshorter rest rfl)
      · have hshorter : rest.length < (stretch ++ rest).length := by
          have := List.length_pos_iff.2 malformed.nonempty
          rw [List.length_append]
          omega
        rw [hread]
        exact .malformed malformed (ih _ hshorter rest rfl)

/-- Where a malformed stretch begins, it is the only one. -/
theorem IsMalformed.length_le {stretch rest other others : List UInt8}
    (malformed : IsMalformed stretch rest) (second : IsMalformed other others)
    (heq : stretch ++ rest = other ++ others) : stretch.length ≤ other.length := by
  rcases malformed.begins with hbegins | hone
  · exact second.longest stretch (heq ▸ List.prefix_append ..) hbegins
  · have := List.length_pos_iff.2 second.nonempty
    omega

theorem IsMalformed.decodeUnits_eq {stretch rest : List UInt8}
    (malformed : IsMalformed stretch rest) :
    decodeUnits none (stretch ++ rest) = none :: decodeUnits none rest := by
  rcases decodeUnits_cases (List.append_ne_nil_of_left_ne_nil malformed.nonempty rest) with
    ⟨c, others, heq, -⟩ | ⟨other, others, heq, second, hread⟩
  · exact absurd ⟨others, heq.symm⟩ (malformed.unreadable c)
  · have hlength : stretch.length = other.length :=
      Nat.le_antisymm (malformed.length_le second heq) (second.length_le malformed heq.symm)
    rw [hread, (List.append_inj heq hlength).2]

/-- Bytes are read as the units that the reader finds, and as no others. -/
theorem readsAs_iff {bytes : List UInt8} {units : List DecodedUnit} :
    ReadsAs bytes units ↔ units = decodeUnits none bytes := by
  constructor
  · intro reads
    induction reads with
    | nil => rfl
    | char c _ ih => rw [decodeUnits_utf8EncodeChar_append, ih]
    | malformed malformed _ ih => rw [malformed.decodeUnits_eq, ih]
  · rintro rfl
    exact readsAs_decodeUnits bytes

theorem isLossyText_iff {bytes : List UInt8} {text : List Char} :
    IsLossyText bytes text ↔ text = decodeLossy bytes := by
  simp only [IsLossyText, readsAs_iff, exists_eq_left, decodeLossy]

theorem decodeLossy_encode (text : List Char) : decodeLossy (encode text) = text := by
  rw [decodeLossy, decodeUnits_encode, List.map_map]
  exact List.map_id text

/-- Only the bytes of a text are read as this text when nothing may be malformed. -/
theorem decode?_eq_some_iff_eq_encode {bytes : List UInt8} {text : List Char} :
    decode? bytes = some text ↔ bytes = encode text := by
  constructor
  · intro decoded
    have reads := readsAs_iff.2 (decode?_eq_some_iff.1 decoded).symm
    clear decoded
    induction text generalizing bytes with
    | nil =>
        cases reads
        rfl
    | cons c text ih =>
        rw [List.map_cons] at reads
        cases reads with
        | char _ others =>
          rw [encode, List.flatMap_cons, ih others]
          rfl
  · rintro rfl
    exact decode?_encode text

/-! ## Line feeds -/

/-- The bytes of a character are its one ASCII byte, or none of them is an ASCII byte. -/
theorem toNat_of_mem_utf8EncodeChar {c : Char} {byte : UInt8}
    (hmem : byte ∈ String.utf8EncodeChar c) : byte.toNat = c.val.toNat ∨ 128 ≤ byte.toNat := by
  have hmarked {n mark : Nat} (small : n + mark < 256) (hmark : 128 ≤ mark) :
      128 ≤ (UInt8.ofNat (n + mark)).toNat := by
    rw [toNat_byte small]
    omega
  simp only [String.utf8EncodeChar] at hmem
  split at hmem
  · rw [List.mem_singleton.1 hmem, toNat_byte (by omega)]
    exact .inl rfl
  · right
    split at hmem
    · simp only [List.mem_cons, List.not_mem_nil, or_false] at hmem
      rcases hmem with rfl | rfl <;> exact hmarked (by omega) (by omega)
    · split at hmem
      · simp only [List.mem_cons, List.not_mem_nil, or_false] at hmem
        rcases hmem with rfl | rfl | rfl <;> exact hmarked (by omega) (by omega)
      · simp only [List.mem_cons, List.not_mem_nil, or_false] at hmem
        rcases hmem with rfl | rfl | rfl | rfl <;> exact hmarked (by omega) (by omega)

theorem lineFeed_mem_utf8EncodeChar_iff {c : Char} :
    0x0A ∈ String.utf8EncodeChar c ↔ c = '\n' := by
  constructor
  · intro hmem
    have hval : c.val.toNat = 10 := by
      rcases toNat_of_mem_utf8EncodeChar hmem with heq | hlarge
      · exact heq.symm
      · exact absurd hlarge (by decide)
    rw [← Char.ofNat_toNat c, Char.toNat, hval]
  · rintro rfl
    decide

theorem IsMalformed.lineFeed_not_mem {stretch rest : List UInt8}
    (malformed : IsMalformed stretch rest) : 0x0A ∉ stretch := by
  intro hmem
  have hwhole : stretch = String.utf8EncodeChar '\n' := by
    rcases malformed.begins with ⟨c, others, heq⟩ | hone
    · have hc : c = '\n' := by
        rw [← lineFeed_mem_utf8EncodeChar_iff, ← heq]
        exact List.mem_append_left _ hmem
      subst hc
      cases stretch with
      | nil => cases hmem
      | cons byte stretch =>
          obtain ⟨rfl, hrest⟩ := List.cons.inj heq
          rw [(List.append_eq_nil_iff.1 hrest).1]
          rfl
    · obtain ⟨byte, rfl⟩ := List.length_eq_one_iff.1 hone
      rw [← List.mem_singleton.1 hmem]
      rfl
  exact malformed.unreadable '\n' (hwhole ▸ List.prefix_append ..)

theorem ReadsAs.lineFeed_mem_iff {bytes : List UInt8} {units : List DecodedUnit}
    (reads : ReadsAs bytes units) : some '\n' ∈ units ↔ 0x0A ∈ bytes := by
  induction reads with
  | nil => simp
  | char c _ ih =>
      rw [List.mem_cons, List.mem_append, ih, lineFeed_mem_utf8EncodeChar_iff, Option.some.injEq,
        eq_comm]
  | malformed malformed _ ih =>
      rw [List.mem_cons, List.mem_append, ih]
      simp only [malformed.lineFeed_not_mem, reduceCtorEq]

/-- A line feed is read exactly where its byte is among the bytes. -/
theorem lineFeed_mem_decodeLossy_iff {bytes : List UInt8} :
    '\n' ∈ decodeLossy bytes ↔ 0x0A ∈ bytes := by
  rw [← (readsAs_decodeUnits bytes).lineFeed_mem_iff, decodeLossy, List.mem_map]
  constructor
  · rintro ⟨_ | c, hmem, heq⟩
    · exact absurd heq (by decide)
    · rw [Option.getD_some] at heq
      exact heq ▸ hmem
  · intro hmem
    exact ⟨_, hmem, rfl⟩

/-- A character cut short by a line feed, then an overlong form of the character zero. -/
example : decodeLossy [0xE2, 0x82, 0x0A, 0xC0, 0x80] = ['\uFFFD', '\n', '\uFFFD', '\uFFFD'] := by
  decide

end MailMerge.Text
