/-
# Laws of decimal numerals

The digits of a number denote it, the first of them is no zero unless the number is
zero, and padding with zeros changes neither what is denoted nor, below the power of ten
of the width, how much room it takes. A numeral is read as a number exactly when it is the
digits of this number behind zeros and at most one plus sign.
-/

import MailMerge.Proofs.Text.Lines
import MailMerge.Text.Numeral
import Mathlib.Data.List.Induction

namespace MailMerge.Text

/-! ## Digits -/

theorem isAsciiDigit_of_mem_decimalDigits {n : Nat} {c : Char} (hc : c ∈ decimalDigits n) :
    isAsciiDigit c := by
  have hdigit : ∀ d < 10, isAsciiDigit (Char.ofNat (d + '0'.toNat)) := by decide
  fun_induction decimalDigits n with
  | case1 n hn =>
      rw [List.mem_singleton.1 hc]
      exact hdigit n hn
  | case2 n hn ih =>
      rcases List.mem_append.1 hc with hc | hc
      · exact ih hc
      · rw [List.mem_singleton.1 hc]
        exact hdigit _ (Nat.mod_lt _ (by decide))

theorem decimalDigits_ne_nil (n : Nat) : decimalDigits n ≠ [] := by
  rw [decimalDigits]
  split <;> simp

theorem unbroken_decimalDigits (n : Nat) : Unbroken (decimalDigits n) :=
  unbroken_of_forall (by decide) fun _ hc => isAsciiDigit_of_mem_decimalDigits hc

theorem length_decimalDigits_le {n width : Nat} (hwidth : 0 < width) (hn : n < Nat.pow 10 width) :
    (decimalDigits n).length ≤ width := by
  fun_induction decimalDigits n generalizing width with
  | case1 n _ => exact hwidth
  | case2 n hlarge ih =>
      obtain ⟨width, rfl⟩ := Nat.exists_eq_add_one.2 hwidth
      have hpower : Nat.pow 10 (width + 1) = Nat.pow 10 width * 10 := rfl
      have hpositive : 0 < width := by
        rw [Nat.pos_iff_ne_zero]
        rintro rfl
        exact hlarge hn
      have hrest := ih hpositive (by omega)
      rw [List.length_append, List.length_singleton]
      omega

/-- Only the digits of zero begin with a zero. -/
theorem head?_decimalDigits_ne {n : Nat} (hn : 0 < n) : (decimalDigits n).head? ≠ some '0' := by
  have hdigit : ∀ d < 10, 0 < d → Char.ofNat (d + '0'.toNat) ≠ '0' := by decide
  fun_induction decimalDigits n with
  | case1 n hsmall => exact fun heq => hdigit n hsmall hn (Option.some.inj heq)
  | case2 n _ ih =>
      obtain ⟨first, others, hdigits⟩ := List.exists_cons_of_ne_nil (decimalDigits_ne_nil (n / 10))
      have hfirst := ih (by omega)
      rw [hdigits] at hfirst ⊢
      exact hfirst

/-! ## Denoted numbers -/

theorem digitValue_digit {d : Nat} (hd : d < 10) : digitValue (Char.ofNat (d + '0'.toNat)) = d := by
  have hall : ∀ d < 10, digitValue (Char.ofNat (d + '0'.toNat)) = d := by decide
  exact hall d hd

/-- The digits of a number denote it. -/
theorem digitsValue_decimalDigits (n : Nat) : digitsValue (decimalDigits n) = n := by
  fun_induction decimalDigits n with
  | case1 n hn =>
      rw [digitsValue, List.foldl_cons, List.foldl_nil, Nat.zero_mul, Nat.zero_add]
      exact digitValue_digit hn
  | case2 n _ ih =>
      rw [digitsValue, List.foldl_append, ← digitsValue, ih, List.foldl_cons, List.foldl_nil,
        digitValue_digit (Nat.mod_lt _ (by decide))]
      omega

/-! ## Padding -/

theorem isAsciiDigit_of_mem_paddedDigits {width n : Nat} {c : Char}
    (hc : c ∈ paddedDigits width n) : isAsciiDigit c := by
  rcases List.mem_append.1 hc with hc | hc
  · rw [List.eq_of_mem_replicate hc]
    decide
  · exact isAsciiDigit_of_mem_decimalDigits hc

theorem paddedDigits_ne_nil (width n : Nat) : paddedDigits width n ≠ [] :=
  List.append_ne_nil_of_right_ne_nil _ (decimalDigits_ne_nil n)

theorem length_paddedDigits {width n : Nat} (hwidth : 0 < width) (hn : n < Nat.pow 10 width) :
    (paddedDigits width n).length = width := by
  have hlength := length_decimalDigits_le hwidth hn
  rw [paddedDigits, List.length_append, List.length_replicate]
  omega

/-- Padding changes no number. -/
theorem digitsValue_paddedDigits (width n : Nat) : digitsValue (paddedDigits width n) = n := by
  have hzeros (count : Nat) : digitsValue (List.replicate count '0') = 0 := by
    induction count with
    | zero => rfl
    | succ count ih =>
        rw [List.replicate_succ', digitsValue, List.foldl_append, ← digitsValue, ih]
        rfl
  rw [paddedDigits, digitsValue, List.foldl_append, ← digitsValue, hzeros]
  exact digitsValue_decimalDigits n

/-! ## Numerals that are read -/

/-- The numerals of a number: its digits behind any number of zeros, with or without a plus sign
before them. -/
inductive IsNumeral : List Char → Nat → Prop where
  | unsigned (width n : Nat) : IsNumeral (paddedDigits width n) n
  | signed (width n : Nat) : IsNumeral ('+' :: paddedDigits width n) n

theorem digit_digitValue {c : Char} (hc : isAsciiDigit c) :
    digitValue c < 10 ∧ Char.ofNat (digitValue c + '0'.toNat) = c := by
  rw [isAsciiDigit, Bool.and_eq_true, decide_eq_true_eq, decide_eq_true_eq] at hc
  have hlow : 48 ≤ c.toNat := hc.1
  have hhigh : c.toNat ≤ 57 := hc.2
  have hzero : '0'.toNat = 48 := rfl
  rw [digitValue, hzero, Nat.sub_add_cancel hlow, Char.ofNat_toNat]
  exact ⟨by omega, rfl⟩

/-- One more digit makes a padded number one wider. -/
theorem paddedDigits_concat {width n d : Nat} (hwidth : 0 < width) (hd : d < 10) :
    paddedDigits (width + 1) (n * 10 + d) =
      paddedDigits width n ++ [Char.ofNat (d + '0'.toNat)] := by
  by_cases hn : n = 0
  · obtain ⟨width, rfl⟩ := Nat.exists_eq_add_one.2 hwidth
    have hdigit : decimalDigits d = [Char.ofNat (d + '0'.toNat)] := by
      rw [decimalDigits, if_pos hd]
    have hzero : decimalDigits 0 = ['0'] := by
      rw [decimalDigits, if_pos (by decide)]
      rfl
    subst hn
    rw [Nat.zero_mul, Nat.zero_add, paddedDigits, paddedDigits, hdigit, hzero]
    exact congrArg (· ++ _) List.replicate_succ'
  · have hdiv : (n * 10 + d) / 10 = n := by omega
    have hmod : (n * 10 + d) % 10 = d := by omega
    have hdigits : decimalDigits (n * 10 + d) =
        decimalDigits n ++ [Char.ofNat (d + '0'.toNat)] := by
      rw [decimalDigits, if_neg (by omega), hdiv, hmod]
    rw [paddedDigits, paddedDigits, hdigits, List.length_append, List.length_singleton,
      Nat.add_sub_add_right, List.append_assoc]

/-- Digits are those of the number that they denote, padded to their width. -/
theorem paddedDigits_digitsValue {digits : List Char} (nonempty : digits ≠ [])
    (hdigits : ∀ c ∈ digits, isAsciiDigit c) :
    paddedDigits digits.length (digitsValue digits) = digits := by
  induction digits using List.reverseRecOn with
  | nil => exact absurd rfl nonempty
  | append_singleton digits c ih =>
      obtain ⟨hsmall, hchar⟩ := digit_digitValue (hdigits c (by simp))
      have hvalue : digitsValue (digits ++ [c]) = digitsValue digits * 10 + digitValue c := by
        rw [digitsValue, List.foldl_append, ← digitsValue]
        rfl
      rw [hvalue, List.length_append, List.length_singleton]
      by_cases hfirst : digits = []
      · subst hfirst
        rw [digitsValue, List.foldl_nil, Nat.zero_mul, Nat.zero_add, paddedDigits, decimalDigits,
          if_pos hsmall, hchar]
        rfl
      · rw [paddedDigits_concat (List.length_pos_iff.2 hfirst) hsmall, hchar,
          ih hfirst fun d hd => hdigits d (List.mem_append_left _ hd)]

theorem exists_eq_paddedDigits_iff {digits : List Char} {n : Nat} :
    (∃ width, digits = paddedDigits width n) ↔
      digits ≠ [] ∧ (∀ c ∈ digits, isAsciiDigit c) ∧ digitsValue digits = n := by
  constructor
  · rintro ⟨width, rfl⟩
    exact ⟨paddedDigits_ne_nil width n, fun c hc => isAsciiDigit_of_mem_paddedDigits hc,
      digitsValue_paddedDigits width n⟩
  · rintro ⟨nonempty, hdigits, rfl⟩
    exact ⟨digits.length, (paddedDigits_digitsValue nonempty hdigits).symm⟩

theorem isNumeral_plus_iff {digits : List Char} {n : Nat} :
    IsNumeral ('+' :: digits) n ↔ ∃ width, digits = paddedDigits width n := by
  constructor
  · intro numeral
    generalize htext : '+' :: digits = text at numeral
    cases numeral with
    | unsigned width =>
        have hplus : isAsciiDigit '+' :=
          isAsciiDigit_of_mem_paddedDigits (htext ▸ List.mem_cons_self)
        exact absurd hplus (by decide)
    | signed width => exact ⟨width, (List.cons.inj htext).2⟩
  · rintro ⟨width, rfl⟩
    exact .signed width n

theorem isNumeral_iff_of_unsigned {text : List Char} {n : Nat}
    (unsigned : ∀ digits, text ≠ '+' :: digits) :
    IsNumeral text n ↔ ∃ width, text = paddedDigits width n := by
  constructor
  · rintro (width | width)
    · exact ⟨width, rfl⟩
    · exact absurd rfl (unsigned _)
  · rintro ⟨width, rfl⟩
    exact .unsigned width n

/-- What is read below a bound is a numeral of a number below it. -/
theorem numeralBelow?_eq_some_iff {bound n : Nat} {text : List Char} :
    numeralBelow? bound text = some n ↔ IsNumeral text n ∧ n < bound := by
  have hread (digits : List Char) :
      (if digits.isEmpty then none
        else if digits.all isAsciiDigit then
          if digitsValue digits < bound then some (digitsValue digits) else none
        else none) = some n ↔ (∃ width, digits = paddedDigits width n) ∧ n < bound := by
    rw [exists_eq_paddedDigits_iff]
    simp only [Option.ite_none_left_eq_some, Option.ite_none_right_eq_some, Option.some.injEq,
      List.isEmpty_iff, List.all_eq_true]
    constructor
    · rintro ⟨nonempty, hdigits, hbound, rfl⟩
      exact ⟨⟨nonempty, hdigits, rfl⟩, hbound⟩
    · rintro ⟨⟨nonempty, hdigits, rfl⟩, hbound⟩
      exact ⟨nonempty, hdigits, hbound, rfl⟩
  simp only [numeralBelow?, hread]
  split
  · rw [isNumeral_plus_iff]
  · next hother => rw [isNumeral_iff_of_unsigned hother]

end MailMerge.Text
