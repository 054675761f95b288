/-
# Tokens of JSON text that was written

What is written of a string, a mark, a word or an integer is scanned as that very token,
whatever text follows. Only a number needs what follows to be no part of it.
-/

import Mathlib.Tactic.SplitIfs
import MailMerge.Json.Printer
import MailMerge.Json.Token
import MailMerge.Proofs.Text.Blank
import MailMerge.Proofs.Text.Numeral

namespace MailMerge.Json

open MailMerge.Text

/-! ## Strings -/

/-- How a character may be spelled inside a string, and what the spelling is scanned as. -/
inductive CharSpelling : Char → List Char → StringUnit → Prop
  /-- By a letter of its own. -/
  | letter {c e : Char} (hletter : e ≠ 'u') (hescape : simpleEscape? e = some c) :
      CharSpelling c ['\\', e] (.char c)
  /-- By the code of a control character. -/
  | code {n : Nat} {high low : Char} (hcontrol : n < 32)
      (hcode : fourHex? '0' '0' high low = some n) :
      CharSpelling (Char.ofNat n) ['\\', 'u', '0', '0', high, low] (.code n)
  /-- By itself. -/
  | plain {c : Char} (hquote : c ≠ '"') (hbackslash : c ≠ '\\') (hcontrol : ¬c.toNat < 32) :
      CharSpelling c [c] (.char c)

namespace CharSpelling

variable {c : Char} {spelled : List Char} {unit : StringUnit}

/-- A spelled character is scanned off the front of a string. -/
theorem scanString_append (spelling : CharSpelling c spelled unit) (rest : List Char) :
    scanString (spelled ++ rest) =
      (scanString rest).map fun (units, after) => (unit :: units, after) := by
  cases spelling with
  | @letter _ e hletter hescape =>
      rw [List.cons_append, List.cons_append, List.nil_append, scanString.eq_4 _ _ (by simp_all),
        hescape]
      cases scanString rest <;> rfl
  | @code n high low hcontrol hcode =>
      simp only [List.cons_append, List.nil_append, scanString, hcode]
      cases scanString rest <;> rfl
  | plain hquote hbackslash hcontrol =>
      rw [List.cons_append, List.nil_append, scanString.eq_5 _ _ (by simp_all) (by simp_all)
        (by simp_all), if_neg (by simp_all)]

/-- Units that are no half of a surrogate pair stand for their characters one by one. -/
theorem joinUnits_cons (spelling : CharSpelling c spelled unit) (units : List StringUnit) :
    joinUnits (unit :: units) = (joinUnits units).map (c :: ·) := by
  cases spelling with
  | letter => rfl
  | plain => rfl
  | @code n high low hcontrol hcode =>
      have hhigh : isHighSurrogate n = false := by simp [isHighSurrogate]; omega
      have hlow : isLowSurrogate n = false := by simp [isLowSurrogate]; omega
      rw [joinUnits.eq_def]
      cases units with
      | nil => simp [hhigh, hlow]
      | cons next units => cases next <;> simp [hhigh, hlow]

end CharSpelling

/-- Every character is written in one of the spellings. -/
theorem exists_charSpelling_escapeChar (c : Char) : ∃ unit, CharSpelling c (escapeChar c) unit := by
  have letter {code : Nat} {e : Char} (hcode : c.toNat = code) (hletter : e ≠ 'u')
      (hescape : simpleEscape? e = some (Char.ofNat code)) :
      ∃ unit, CharSpelling c ['\\', e] unit :=
    ⟨_, .letter hletter (by rw [hescape, ← hcode, Char.ofNat_toNat])⟩
  have hhex : ∀ n < 32,
      fourHex? '0' '0' (hexDigitLower (n / 16)) (hexDigitLower (n % 16)) = some n := by decide
  unfold escapeChar
  split_ifs with hquote hbackslash hb ht hn hf hr hcontrol
  · exact letter (congrArg Char.toNat hquote) (by decide) rfl
  · exact letter (congrArg Char.toNat hbackslash) (by decide) rfl
  · exact letter hb (by decide) rfl
  · exact letter ht (by decide) rfl
  · exact letter hn (by decide) rfl
  · exact letter hf (by decide) rfl
  · exact letter hr (by decide) rfl
  · have spelling := CharSpelling.code hcontrol (hhex c.toNat hcontrol)
    rw [Char.ofNat_toNat] at spelling
    exact ⟨_, spelling⟩
  · exact ⟨_, .plain hquote hbackslash hcontrol⟩

/-- What is written between the quotes of a string is scanned as the string. -/
theorem exists_scanString (text rest : List Char) :
    ∃ units, scanString (text.flatMap escapeChar ++ '"' :: rest) = some (units, rest) ∧
      joinUnits units = some text := by
  induction text with
  | nil => exact ⟨[], by simp [scanString], rfl⟩
  | cons c text ih =>
      obtain ⟨unit, spelling⟩ := exists_charSpelling_escapeChar c
      obtain ⟨units, hscan, hjoin⟩ := ih
      refine ⟨unit :: units, ?_, ?_⟩
      · rw [List.flatMap_cons, List.append_assoc, spelling.scanString_append, hscan]
        rfl
      · rw [spelling.joinUnits_cons, hjoin]
        rfl

/-! ## Tokens -/

/-- A token that is scanned at the front of a text is the first of its tokens. -/
theorem lex_cons {c : Char} {rest after : List Char} {token : Token}
    (hspacing : isSpacing c = false) (hscan : scanToken c rest = some (token, after)) :
    lex (c :: rest) = token :: lex after := by
  rw [lex, if_neg (by simp [hspacing])]
  split
  · simp_all
  · simp_all

theorem lex_openBrace (rest : List Char) : lex ('\x7b' :: rest) = .openBrace :: lex rest :=
  lex_cons rfl rfl

theorem lex_closeBrace (rest : List Char) : lex ('\x7d' :: rest) = .closeBrace :: lex rest :=
  lex_cons rfl rfl

theorem lex_openBracket (rest : List Char) : lex ('[' :: rest) = .openBracket :: lex rest :=
  lex_cons rfl rfl

theorem lex_closeBracket (rest : List Char) : lex (']' :: rest) = .closeBracket :: lex rest :=
  lex_cons rfl rfl

theorem lex_colon (rest : List Char) : lex (':' :: rest) = .colon :: lex rest :=
  lex_cons rfl rfl

theorem lex_comma (rest : List Char) : lex (',' :: rest) = .comma :: lex rest :=
  lex_cons rfl rfl

theorem lex_null (rest : List Char) : lex ('n' :: 'u' :: 'l' :: 'l' :: rest) = .null :: lex rest :=
  lex_cons rfl rfl

theorem lex_true (rest : List Char) :
    lex ('t' :: 'r' :: 'u' :: 'e' :: rest) = .bool true :: lex rest :=
  lex_cons rfl rfl

theorem lex_false (rest : List Char) :
    lex ('f' :: 'a' :: 'l' :: 's' :: 'e' :: rest) = .bool false :: lex rest :=
  lex_cons rfl rfl

/-- A string that was written is scanned whole. -/
theorem lex_writeString (s : String) (rest : List Char) :
    lex (writeString s ++ rest) = .string (some s) :: lex rest := by
  obtain ⟨units, hscan, hjoin⟩ := exists_scanString s.toList rest
  rw [writeString, List.cons_append, List.cons_append, List.append_assoc]
  refine lex_cons rfl ?_
  rw [scanToken, List.singleton_append, hscan, Option.map_some]
  dsimp only
  rw [hjoin, Option.map_some, String.ofList_toList]

/-! ## Integers -/

/-- A text does not go on with a part of a number. -/
def EndsNumber (rest : List Char) : Prop :=
  ∀ c ∈ rest.head?, isAsciiDigit c = false ∧ c ≠ '.' ∧ c ≠ 'e' ∧ c ≠ 'E'

theorem endsNumber_nil : EndsNumber [] := by
  simp [EndsNumber]

theorem endsNumber_cons {c : Char} {rest : List Char} :
    EndsNumber (c :: rest) ↔ isAsciiDigit c = false ∧ c ≠ '.' ∧ c ≠ 'e' ∧ c ≠ 'E' := by
  simp [EndsNumber]

/-- The number that is gathered does not get smaller with the digits. -/
theorem le_foldl_digitValue (digits : List Char) (start : Nat) :
    start ≤ digits.foldl (fun total c => total * 10 + digitValue c) start := by
  induction digits generalizing start with
  | nil => exact Nat.le_refl start
  | cons c digits ih =>
      have hstep := ih (start * 10 + digitValue c)
      rw [List.foldl_cons]
      omega

/-- Digits of a number that fits are all gathered. -/
theorem gatherWhole_eq {digits : List Char} {start : Nat}
    (hfits : digits.foldl (fun total c => total * 10 + digitValue c) start < significandBound) :
    gatherWhole start digits =
      (digits.foldl (fun total c => total * 10 + digitValue c) start, 0) := by
  induction digits generalizing start with
  | nil => rfl
  | cons c digits ih =>
      rw [List.foldl_cons] at hfits ⊢
      have hnext := Nat.lt_of_le_of_lt (le_foldl_digitValue digits _) hfits
      rw [gatherWhole, if_pos hnext, ih hfits]

theorem gatherWhole_decimalDigits {n : Nat} (hn : n < significandBound) :
    gatherWhole 0 (decimalDigits n) = (n, 0) := by
  have hvalue := digitsValue_decimalDigits n
  rw [digitsValue] at hvalue
  rw [gatherWhole_eq (by rwa [hvalue]), hvalue]

/-- The digits of a number are scanned as a literal without fraction and exponent. -/
theorem scanUnsigned_decimalDigits (negative : Bool) (n : Nat) {rest : List Char}
    (ends : EndsNumber rest) :
    scanUnsigned negative (decimalDigits n ++ rest) =
      some (⟨negative, decimalDigits n, [], none⟩, rest) := by
  obtain ⟨hwhole, hrest⟩ := span_append (p := isAsciiDigit)
    (fun _ hc => isAsciiDigit_of_mem_decimalDigits hc) fun c hc => (ends c hc).1
  have hleading : ¬((decimalDigits n).isEmpty ∨
      ((decimalDigits n).head? = some '0' ∧ 1 < (decimalDigits n).length)) := by
    rintro (hempty | ⟨hzero, hlong⟩)
    · exact decimalDigits_ne_nil n (List.isEmpty_iff.1 hempty)
    · rcases Nat.eq_zero_or_pos n with rfl | hpositive
      · simp [decimalDigits] at hlong
      · exact head?_decimalDigits_ne hpositive hzero
  have hfraction : scanFraction rest = some ([], rest) := by
    unfold scanFraction
    split
    · exact absurd rfl (ends '.' rfl).2.1
    · rfl
  have hexponent : scanExponent rest = some (none, rest) := by
    cases rest with
    | nil => rfl
    | cons c rest =>
        obtain ⟨-, -, he, hE⟩ := endsNumber_cons.1 ends
        simp [scanExponent, he, hE]
  rw [scanUnsigned, spanDigits, hwhole, hrest]
  dsimp only
  rw [if_neg hleading, hfraction, Option.bind_eq_bind, Option.bind_some]
  dsimp only
  rw [hexponent, Option.bind_eq_bind, Option.bind_some]

theorem isSpacing_digit {c : Char} (hc : isAsciiDigit c) : isSpacing c = false := by
  rw [Bool.eq_false_iff]
  intro hspacing
  simp only [isSpacing, Bool.or_eq_true, beq_iff_eq] at hspacing
  rcases hspacing with ((rfl | rfl) | rfl) | rfl
  all_goals exact absurd hc (by decide)

theorem scanToken_digit {c : Char} (hc : isAsciiDigit c) (rest : List Char) :
    scanToken c rest =
      (scanUnsigned false (c :: rest)).map fun (literal, after) =>
        (.number literal.value?, after) := by
  unfold scanToken
  split
  all_goals first | exact absurd hc (by decide) | rw [if_pos hc]

/-- The digits and the sign of an exact integer denote it. -/
theorem value?_integer (n : Integer) :
    NumberLiteral.value? ⟨decide (n.val < 0), decimalDigits n.val.natAbs, [], none⟩ =
      some (.integer n) := by
  obtain ⟨n, hlow, hhigh⟩ := n
  have hfits : n.natAbs < significandBound := by
    rw [significandBound]
    omega
  have hsigned : (if decide (n < 0) then -(n.natAbs : Int) else (n.natAbs : Int)) = n := by
    by_cases hnegative : n < 0
    · rw [if_pos (decide_eq_true hnegative)]
      omega
    · rw [if_neg (by rwa [decide_eq_true_eq])]
      omega
  have hkept : ¬(decide (n < 0) = true ∧ n.natAbs = 0) := by
    simp only [decide_eq_true_eq]
    omega
  simp only [NumberLiteral.value?, gatherWhole_decimalDigits hfits, hsigned]
  rw [if_pos (by simp), dif_pos ⟨⟨hlow, hhigh⟩, hkept⟩]

/-- An exact integer that was written is scanned whole. -/
theorem lex_write_integer (n : Integer) {rest : List Char} (ends : EndsNumber rest) :
    lex ((Number.integer n).write ++ rest) = .number (some (.integer n)) :: lex rest := by
  have hvalue := value?_integer n
  rw [Number.write]
  split
  · next hnegative =>
      rw [decide_eq_true hnegative] at hvalue
      rw [List.cons_append]
      refine lex_cons rfl ?_
      rw [scanToken, scanUnsigned_decimalDigits true _ ends, Option.map_some, ← hvalue]
  · next hnegative =>
      rw [decide_eq_false hnegative] at hvalue
      obtain ⟨c, digits, hdigits⟩ :=
        List.exists_cons_of_ne_nil (decimalDigits_ne_nil n.val.natAbs)
      have hc : isAsciiDigit c :=
        isAsciiDigit_of_mem_decimalDigits (n := n.val.natAbs) (by simp [hdigits])
      have hscan := scanUnsigned_decimalDigits false n.val.natAbs ends
      rw [hdigits, List.cons_append] at hscan ⊢
      refine lex_cons (isSpacing_digit hc) ?_
      rw [scanToken_digit hc, hscan, Option.map_some, ← hdigits, ← hvalue]

end MailMerge.Json
