/-
# Written timestamps read back

The timestamp of a point in time reads as that point, whatever its year and however many
digits its fraction takes.
-/

import Mathlib.Tactic.SplitIfs
import MailMerge.Proofs.Text.Blank
import MailMerge.Proofs.Text.Numeral
import MailMerge.Time.Timestamp

namespace MailMerge.Time

open MailMerge.Text

/-! ## Numbers and marks -/

theorem isBlank_digit {c : Char} (hc : isAsciiDigit c) : isBlank c = false := by
  rw [Bool.eq_false_iff]
  intro blank
  have hother := eq_false_of_isBlank (p := isAsciiDigit) (by decide) blank
  exact Bool.eq_false_iff.1 hother hc

theorem trimLeft_cons {c : Char} (hc : isBlank c = false) (rest : List Char) :
    trimLeft (c :: rest) = c :: rest := by
  rw [trimLeft, List.dropWhile_cons_of_neg (by simp [hc])]

/-- A text does not go on with a digit. -/
def EndsDigits (rest : List Char) : Prop :=
  ∀ c ∈ rest.head?, isAsciiDigit c = false

theorem endsDigits_cons {c : Char} (hc : isAsciiDigit c = false) (rest : List Char) :
    EndsDigits (c :: rest) := by
  simpa [EndsDigits] using hc

section Digits

variable {digits rest : List Char}

theorem trimLeft_digits (hdigits : ∀ c ∈ digits, isAsciiDigit c) (nonempty : digits ≠ []) :
    trimLeft (digits ++ rest) = digits ++ rest := by
  obtain ⟨c, others, rfl⟩ := List.exists_cons_of_ne_nil nonempty
  exact trimLeft_cons (isBlank_digit (hdigits c List.mem_cons_self)) _

/-- A width that leaves room for the digits cuts none of them off. -/
theorem takeWhile_take_digits {width : Nat} (hdigits : ∀ c ∈ digits, isAsciiDigit c)
    (hwidth : digits.length ≤ width) (stop : EndsDigits rest) :
    ((digits ++ rest).take width).takeWhile isAsciiDigit = digits := by
  have hstop : EndsDigits (rest.take (width - digits.length)) := by
    intro c hc
    rw [List.head?_take] at hc
    split at hc
    · cases hc
    · exact stop c hc
  rw [List.take_append, List.take_of_length_le hwidth]
  exact (span_append hdigits hstop).1

/-- Digits within the width are read up to the next character that is no digit. -/
theorem readDigits_append {width : Nat} (hdigits : ∀ c ∈ digits, isAsciiDigit c)
    (nonempty : digits ≠ []) (hwidth : digits.length ≤ width)
    (stop : EndsDigits rest) :
    readDigits width (digits ++ rest) = some (digitsValue digits, rest) := by
  rw [readDigits, takeWhile_take_digits hdigits hwidth stop, if_neg (by simpa using nonempty),
    List.drop_left]

end Digits

/-- A number of two digits is read as it was written. -/
theorem readPair_paddedDigits {n : Nat} (hn : n < 100) {rest : List Char}
    (stop : EndsDigits rest) :
    readPair (paddedDigits 2 n ++ rest) = some (n, rest) := by
  have hdigits : ∀ c ∈ paddedDigits 2 n, isAsciiDigit c :=
    fun _ hc => isAsciiDigit_of_mem_paddedDigits hc
  have nonempty := paddedDigits_ne_nil 2 n
  have hlength : (paddedDigits 2 n).length = 2 := length_paddedDigits (by decide) hn
  rw [readPair, trimLeft_digits hdigits nonempty,
    readDigits_append hdigits nonempty (Nat.le_of_eq hlength) stop, digitsValue_paddedDigits]

theorem readMark_cons {mark : Char} (hmark : isBlank mark = false) (rest : List Char) :
    readMark mark (mark :: rest) = some rest := by
  rw [readMark, trimLeft_cons hmark]
  exact if_pos rfl

theorem readYear_minus (rest : List Char) :
    readYear ('-' :: rest) =
      (readDigits rest.length rest).map fun (year, rest) => (-(year : Int), rest) := by
  rw [readYear, trimLeft_cons (by decide)]
  rfl

theorem readYear_plus (rest : List Char) :
    readYear ('+' :: rest) =
      (readDigits rest.length rest).map fun (year, rest) => ((year : Int), rest) := by
  rw [readYear, trimLeft_cons (by decide)]
  rfl

theorem readYear_digit {c : Char} (hc : isAsciiDigit c) (rest : List Char) :
    readYear (c :: rest) =
      (readDigits 4 (c :: rest)).map fun (year, rest) => ((year : Int), rest) := by
  rw [readYear, trimLeft_cons (isBlank_digit hc)]
  split
  · next heq => cases heq; exact absurd hc (by decide)
  · next heq => cases heq; exact absurd hc (by decide)
  · rfl

/-- A year is read as it was written, be it with a sign or without. -/
theorem readYear_writeYear (year : Int) (rest : List Char) :
    readYear (writeYear year ++ '-' :: rest) = some (year, '-' :: rest) := by
  have stop : EndsDigits ('-' :: rest) := endsDigits_cons (by decide) rest
  have hread {width n : Nat} (hwidth : (paddedDigits 4 n).length ≤ width) :
      readDigits width (paddedDigits 4 n ++ '-' :: rest) = some (n, '-' :: rest) := by
    rw [readDigits_append (fun _ hc => isAsciiDigit_of_mem_paddedDigits hc)
      (paddedDigits_ne_nil 4 n) hwidth stop, digitsValue_paddedDigits]
  unfold writeYear
  split
  · next hplain =>
      have hshort : year.toNat < 10000 := by omega
      have hlength : (paddedDigits 4 year.toNat).length = 4 :=
        length_paddedDigits (by decide) hshort
      have hyear := hread (Nat.le_of_eq hlength)
      obtain ⟨c, digits, hdigits⟩ := List.exists_cons_of_ne_nil (paddedDigits_ne_nil 4 year.toNat)
      have hc : isAsciiDigit c :=
        isAsciiDigit_of_mem_paddedDigits (hdigits ▸ List.mem_cons_self)
      rw [hdigits, List.cons_append] at hyear ⊢
      rw [readYear_digit hc, hyear, Option.map_some]
      dsimp only
      rw [Int.toNat_of_nonneg hplain.1]
  · split
    · next hnegative =>
        rw [List.cons_append, readYear_minus, hread (by simp), Option.map_some]
        dsimp only
        rw [Int.ofNat_natAbs_of_nonpos (Int.le_of_lt hnegative), Int.neg_neg]
    · next hpositive =>
        rw [List.cons_append, readYear_plus, hread (by simp), Option.map_some]
        dsimp only
        rw [Int.natAbs_of_nonneg (Int.not_lt.1 hpositive)]

/-- A fraction is read as it was written, with as few digits as it takes. -/
theorem readFraction_writeFraction {nanosecond : Nat} (hsize : nanosecond < 1000000000)
    (rest : List Char) :
    readFraction (writeFraction nanosecond ++ 'Z' :: rest) = some (nanosecond, 'Z' :: rest) := by
  have hread {width n : Nat} (hwidth : 0 < width) (hshort : width ≤ 9) (hn : n < 10 ^ width) :
      readFraction ('.' :: paddedDigits width n ++ 'Z' :: rest) =
        some (n * 10 ^ (9 - width), 'Z' :: rest) := by
    have hlength := length_paddedDigits hwidth hn
    have hdigits : ∀ c ∈ paddedDigits width n, isAsciiDigit c :=
      fun _ hc => isAsciiDigit_of_mem_paddedDigits hc
    have stop : EndsDigits ('Z' :: rest) := endsDigits_cons (by decide) rest
    rw [List.cons_append, readFraction, takeWhile_take_digits hdigits (by omega) stop,
      (span_append hdigits stop).2, digitsValue_paddedDigits, hlength,
      if_neg (by simpa using paddedDigits_ne_nil width n)]
    rfl
  unfold writeFraction
  split
  · next hzero => rw [hzero]; rfl
  · split
    · next hmilli =>
        rw [hread (by decide) (by decide) (by omega)]
        congr 2
        omega
    · split
      · next hmicro =>
          rw [hread (by decide) (by decide) (by omega)]
          congr 2
          omega
      · next hnano =>
          rw [hread (by decide) (by decide) (by omega)]
          congr 2
          omega

/-! ## Points in time -/

theorem Utc.ofLocal_zero {t : Utc} (hhour : t.hour < 24) (hminute : t.minute < 60) :
    t.ofLocal 0 = t := by
  have hearly : ¬((t.hour * 60 + t.minute : Nat) : Int) - 0 < 0 := by omega
  have hlate : ¬1440 ≤ ((t.hour * 60 + t.minute : Nat) : Int) - 0 := by omega
  have hkept : (((t.hour * 60 + t.minute : Nat) - 0 : Int) / 60).toNat = t.hour := by omega
  have hkept' : (((t.hour * 60 + t.minute : Nat) - 0 : Int) % 60).toNat = t.minute := by omega
  simp only [Utc.ofLocal, if_neg hearly, if_neg hlate, hkept, hkept']

/-- A point in time has the fields of a clock and of a calendar. -/
structure Utc.InBounds (t : Utc) : Prop where
  month : t.date.month < 100
  day : t.date.day < 100
  hour : t.hour < 24
  minute : t.minute < 60
  second : t.second < 100
  nanosecond : t.nanosecond < 1000000000

theorem daysInMonth_le (year : Int) (month : Nat) : daysInMonth year month ≤ 31 := by
  unfold daysInMonth
  repeat' split
  all_goals decide

theorem Utc.inBounds {t : Utc} (valid : t.isValid) : t.InBounds := by
  have hlong := daysInMonth_le t.date.year t.date.month
  simp only [Utc.isValid, Day.isValid, Bool.and_eq_true, decide_eq_true_eq] at valid
  constructor <;> omega

theorem endsDigits_writeFraction (nanosecond : Nat) (rest : List Char) :
    EndsDigits (writeFraction nanosecond ++ 'Z' :: rest) := by
  unfold writeFraction
  split_ifs
  all_goals exact endsDigits_cons (by decide) _

/-- The timestamp of a point in time reads as that point. -/
theorem Utc.read?_write {t : Utc} (valid : t.isValid) : Utc.read? t.write = some t := by
  have bounds := Utc.inBounds valid
  have hlocal := Utc.ofLocal_zero bounds.hour bounds.minute
  have hoffset : readOffset (trimLeft ['Z']) = some (0, []) := by decide
  have hdash (rest : List Char) : readMark '-' ('-' :: rest) = some rest :=
    readMark_cons (by decide) rest
  have hcolon (rest : List Char) : readMark ':' (':' :: rest) = some rest :=
    readMark_cons (by decide) rest
  have htext : t.write = writeYear t.date.year ++ '-' :: (paddedDigits 2 t.date.month ++ '-' ::
      (paddedDigits 2 t.date.day ++ 'T' :: (paddedDigits 2 t.hour ++ ':' ::
        (paddedDigits 2 t.minute ++ ':' :: (paddedDigits 2 t.second ++
          (writeFraction t.nanosecond ++ ['Z'])))))) := by
    simp only [Utc.write, List.append_assoc, List.cons_append]
  have next {α : Type} (value : α) (reader : α → Option Utc) :
      (some value >>= reader) = reader value := rfl
  rw [Utc.read?, htext, readYear_writeYear, next]
  dsimp only
  rw [hdash, next, readPair_paddedDigits bounds.month (endsDigits_cons (by decide) _),
    next]
  dsimp only
  rw [hdash, next, readPair_paddedDigits bounds.day (endsDigits_cons (by decide) _),
    next]
  dsimp only
  rw [if_pos (.inl rfl), next,
    readPair_paddedDigits (Nat.lt_trans bounds.hour (by decide)) (endsDigits_cons (by decide) _),
    next]
  dsimp only
  rw [hcolon, next,
    readPair_paddedDigits (Nat.lt_trans bounds.minute (by decide)) (endsDigits_cons (by decide) _),
    next]
  dsimp only
  rw [hcolon, next,
    readPair_paddedDigits bounds.second (endsDigits_writeFraction _ _), next]
  dsimp only
  rw [readFraction_writeFraction bounds.nanosecond, next]
  dsimp only
  rw [hoffset, next]
  dsimp only
  rw [hlocal, if_pos ⟨rfl, valid, valid⟩]

/-- What holds of all that is read behind a stage, whatever the stage gave, holds of all that is
read. -/
theorem forall_mem_bind {α : Type} {P : Utc → Prop} {first : Option α}
    {next : α → Option Utc} (hnext : ∀ value, ∀ t ∈ next value, P t) :
    ∀ t ∈ first >>= next, P t := by
  intro t ht
  obtain ⟨value, -, ht⟩ := Option.bind_eq_some_iff.1 ht
  exact hnext value t ht

/-- Whatever is read can be told: it is checked behind all the numbers and marks. -/
theorem Utc.isValid_of_mem_read? (text : List Char) : ∀ t ∈ Utc.read? text, t.isValid := by
  refine forall_mem_bind fun year => forall_mem_bind fun _ => forall_mem_bind fun month =>
    forall_mem_bind fun _ => forall_mem_bind fun day => ?_
  dsimp only
  split
  · split
    · refine forall_mem_bind fun _ => forall_mem_bind fun hour => forall_mem_bind fun _ =>
        forall_mem_bind fun minute => forall_mem_bind fun _ => forall_mem_bind fun second =>
        forall_mem_bind fun nanosecond => forall_mem_bind fun offset => ?_
      intro t ht
      split at ht
      · next valid =>
          cases ht
          exact valid.2.2
      · cases ht
    · exact fun _ ht => nomatch ht
  · exact fun _ ht => nomatch ht

/-! ## Characters of timestamps -/

/-- A digit or a mark of a timestamp. -/
def IsTimestampChar (c : Char) : Prop :=
  isAsciiDigit c ∨ c ∈ ['+', '-', '.', ':', 'T', 'Z']

theorem isTimestampChar_paddedDigits (width n : Nat) :
    ∀ c ∈ paddedDigits width n, IsTimestampChar c :=
  fun _ hc => .inl (isAsciiDigit_of_mem_paddedDigits hc)

/-- A timestamp is made of digits and marks. -/
theorem Utc.isTimestampChar_write (t : Utc) : ∀ c ∈ t.write, IsTimestampChar c := by
  have hdigits := isTimestampChar_paddedDigits
  have hmark {c : Char} (hc : c ∈ ['+', '-', '.', ':', 'T', 'Z']) : IsTimestampChar c := .inr hc
  have hyear : ∀ c ∈ writeYear t.date.year, IsTimestampChar c := by
    unfold writeYear
    split_ifs
    · exact hdigits _ _
    · exact List.forall_mem_cons.2 ⟨hmark (by decide), hdigits _ _⟩
    · exact List.forall_mem_cons.2 ⟨hmark (by decide), hdigits _ _⟩
  have hfraction : ∀ c ∈ writeFraction t.nanosecond, IsTimestampChar c := by
    unfold writeFraction
    split_ifs
    · exact fun _ hc => absurd hc List.not_mem_nil
    all_goals exact List.forall_mem_cons.2 ⟨hmark (by decide), hdigits _ _⟩
  simp only [Utc.write, List.append_assoc, List.cons_append, List.forall_mem_append,
    List.forall_mem_cons]
  exact ⟨hyear, hmark (by decide), hdigits _ _, hmark (by decide), hdigits _ _,
    hmark (by decide), hdigits _ _, hmark (by decide), hdigits _ _, hmark (by decide),
    hdigits _ _, hfraction, hmark (by decide), List.forall_mem_nil _⟩

end MailMerge.Time
