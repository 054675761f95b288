/-
# JSON tokens

The division of a text into JSON tokens. Reading stops at the first place where no token begins,
which is itself a token, so that a reader meets it where it stands. A string may spell a surrogate
that has no partner and a number may exceed the floating-point range: such tokens are well formed
but have no value, and only a reader that needs the value is bothered by that.
-/

import MailMerge.Decimal.FloatText
import MailMerge.Json.Value

namespace MailMerge.Json

open MailMerge.Text

/-- A JSON token. -/
inductive Token where
  | openBrace
  | closeBrace
  | openBracket
  | closeBracket
  | colon
  | comma
  /-- A string; it has no value when it spells a lone surrogate. -/
  | string (value : Option String)
  /-- A number; it has no value when it is too large. -/
  | number (value : Option Number)
  | bool (b : Bool)
  | null
  /-- The place where the text stops being JSON tokens. -/
  | invalid

/-! ## Strings -/

/-- What one position of a string spells: a character, or a UTF-16 unit by its code. -/
inductive StringUnit where
  | char (c : Char)
  | code (unit : Nat)

/-- The character of a one-letter escape. -/
def simpleEscape? (c : Char) : Option Char :=
  match c with
  | '"' => some '"'
  | '\\' => some '\\'
  | '/' => some '/'
  | 'b' => some (Char.ofNat 8)
  | 'f' => some (Char.ofNat 12)
  | 'n' => some '\n'
  | 'r' => some '\r'
  | 't' => some '\t'
  | _ => none

/-- The value of four hexadecimal digits. -/
def fourHex? (a b c d : Char) : Option Nat := do
  let w ← hexValue? a
  let x ← hexValue? b
  let y ← hexValue? c
  let z ← hexValue? d
  some (((w * 16 + x) * 16 + y) * 16 + z)

/-- Scan a string after its opening quote: its units and what follows the closing quote. -/
def scanString : List Char → Option (List StringUnit × List Char)
  | [] => none
  | '"' :: rest => some ([], rest)
  | '\\' :: 'u' :: a :: b :: c :: d :: rest => do
    let unit ← fourHex? a b c d
    let (units, rest) ← scanString rest
    some (.code unit :: units, rest)
  | '\\' :: e :: rest => do
    let c ← simpleEscape? e
    let (units, rest) ← scanString rest
    some (.char c :: units, rest)
  | c :: rest =>
    if c = '\\' ∨ c.toNat < 32 then none
    else (scanString rest).map fun (units, rest) => (.char c :: units, rest)

/-- The first half of a surrogate pair. -/
def isHighSurrogate (unit : Nat) : Bool :=
  0xD800 ≤ unit && unit < 0xDC00

/-- The second half of a surrogate pair. -/
def isLowSurrogate (unit : Nat) : Bool :=
  0xDC00 ≤ unit && unit < 0xE000

/-- The characters of a string, or nothing when a surrogate has no partner. -/
def joinUnits : List StringUnit → Option (List Char)
  | [] => some []
  | .char c :: units => (joinUnits units).map (c :: ·)
  | .code high :: .code low :: units =>
    if isHighSurrogate high && isLowSurrogate low then
      let c := Char.ofNat (0x10000 + (high - 0xD800) * 1024 + (low - 0xDC00))
      (joinUnits units).map (c :: ·)
    else if isHighSurrogate high || isLowSurrogate high then none
    else (joinUnits (.code low :: units)).map (Char.ofNat high :: ·)
  | .code unit :: units =>
    if isHighSurrogate unit || isLowSurrogate unit then none
    else (joinUnits units).map (Char.ofNat unit :: ·)

/-! ## Numbers -/

/-- The parts of a number as it is written. -/
structure NumberLiteral where
  negative : Bool
  /-- The digits before the point. -/
  whole : List Char
  /-- The digits after the point; none when there is no point. -/
  fraction : List Char
  /-- The sign and the digits of the exponent. -/
  exponent : Option (Bool × List Char)

/-- Significands are gathered below this bound, two to the sixty-fourth. -/
def significandBound : Nat := 18446744073709551616

/-- Gather the digits before the point: the significand, and how many digits did not fit. From the
first digit that does not fit on, no digit is taken. -/
def gatherWhole (significand : Nat) : List Char → Nat × Nat
  | [] => (significand, 0)
  | c :: rest =>
    let next := significand * 10 + digitValue c
    if next < significandBound then gatherWhole next rest
    else (significand, rest.length + 1)

/-- Gather digits after the point while they fit: the significand and how many were taken. -/
def gatherFraction (significand : Nat) : List Char → Nat × Nat
  | [] => (significand, 0)
  | c :: rest =>
    let next := significand * 10 + digitValue c
    if next < significandBound then
      let (value, taken) := gatherFraction next rest
      (value, taken + 1)
    else (significand, 0)

/-- The greatest exponent that is computed with. A greater one stands for zero or for a number too
large. -/
def greatestExponent : Nat := 2147483647

/-- The size of a literal that is not an exact integer. -/
def NumberLiteral.size? (literal : NumberLiteral) (significand dropped : Nat) : Option Float :=
  let (significand, taken) := gatherFraction significand literal.fraction
  let start : Int := (dropped : Int) - taken
  match literal.exponent with
  | none => Decimal.scale? significand start
  | some (down, digits) =>
    let exponent := digitsValue digits
    if greatestExponent < exponent then
      if significand = 0 ∨ down then some (Float.ofScientific 0 false 0) else none
    else
      Decimal.scale? significand (if down then start - exponent else start + exponent)

/-- The number a literal denotes, or nothing when it is too large. Digits alone denote an exact
integer when it fits; negative zero does not. -/
def NumberLiteral.value? (literal : NumberLiteral) : Option Number :=
  let (significand, dropped) := gatherWhole 0 literal.whole
  let signed (x : Float) : Number := .float (if literal.negative then -x else x)
  if literal.fraction.isEmpty ∧ literal.exponent.isNone ∧ dropped = 0 then
    let n : Int := if literal.negative then -(significand : Int) else significand
    if h : (-9223372036854775808 ≤ n ∧ n < 18446744073709551616) ∧
        ¬(literal.negative ∧ significand = 0) then
      some (.integer ⟨n, h.1⟩)
    else some (signed significand.toUInt64.toFloat)
  else (literal.size? significand dropped).map signed

/-- The leading digits of a text and the rest. -/
def spanDigits (text : List Char) : List Char × List Char :=
  (text.takeWhile isAsciiDigit, text.dropWhile isAsciiDigit)

/-- Scan the fraction of a number. A point must have a digit after it. -/
def scanFraction (text : List Char) : Option (List Char × List Char) :=
  match text with
  | '.' :: rest =>
    let (digits, rest) := spanDigits rest
    if digits.isEmpty then none else some (digits, rest)
  | other => some ([], other)

/-- Take a sign off the front of a text; the flag tells a minus sign. -/
def takeSign (text : List Char) : Bool × List Char :=
  match text with
  | '+' :: rest => (false, rest)
  | '-' :: rest => (true, rest)
  | other => (false, other)

/-- Scan the exponent of a number. Its mark must have a digit after it and after its sign. -/
def scanExponent (text : List Char) : Option (Option (Bool × List Char) × List Char) :=
  match text with
  | c :: rest =>
    if c = 'e' ∨ c = 'E' then
      let (down, rest) := takeSign rest
      let (digits, rest) := spanDigits rest
      if digits.isEmpty then none else some (some (down, digits), rest)
    else some (none, text)
  | [] => some (none, [])

/-- Scan a number after its sign. A leading zero stands alone before the point. -/
def scanUnsigned (negative : Bool) (text : List Char) : Option (NumberLiteral × List Char) := do
  let (whole, rest) := spanDigits text
  if whole.isEmpty ∨ (whole.head? = some '0' ∧ 1 < whole.length) then none
  else
    let (fraction, rest) ← scanFraction rest
    let (exponent, rest) ← scanExponent rest
    some (⟨negative, whole, fraction, exponent⟩, rest)

/-! ## The token stream -/

/-- The blanks allowed between tokens. -/
def isSpacing (c : Char) : Bool :=
  c == ' ' || c == '\n' || c == '\t' || c == '\r'

/-- Scan the token that begins with `c`. -/
def scanToken (c : Char) (rest : List Char) : Option (Token × List Char) :=
  match c with
  | '\x7b' => some (.openBrace, rest)
  | '\x7d' => some (.closeBrace, rest)
  | '[' => some (.openBracket, rest)
  | ']' => some (.closeBracket, rest)
  | ':' => some (.colon, rest)
  | ',' => some (.comma, rest)
  | '"' => (scanString rest).map fun (units, rest) =>
    (.string ((joinUnits units).map String.ofList), rest)
  | 't' => match rest with
    | 'r' :: 'u' :: 'e' :: rest => some (.bool true, rest)
    | _ => none
  | 'f' => match rest with
    | 'a' :: 'l' :: 's' :: 'e' :: rest => some (.bool false, rest)
    | _ => none
  | 'n' => match rest with
    | 'u' :: 'l' :: 'l' :: rest => some (.null, rest)
    | _ => none
  | '-' => (scanUnsigned true rest).map fun (literal, rest) => (.number literal.value?, rest)
  | _ =>
    if isAsciiDigit c then
      (scanUnsigned false (c :: rest)).map fun (literal, rest) => (.number literal.value?, rest)
    else none

/-- What follows a string is no longer than the text the string was scanned from. -/
theorem scanString_length {text rest : List Char} {units : List StringUnit}
    (h : scanString text = some (units, rest)) : rest.length ≤ text.length := by
  fun_induction scanString text generalizing units rest with
  | case1 => simp at h
  | case2 => simp_all
  | case3 a b c d tail ih =>
    simp only [Option.bind_eq_bind, Option.bind_eq_some_iff] at h
    obtain ⟨_, _, ⟨_, _⟩, hs, he⟩ := h
    have := ih hs
    simp_all
    omega
  | case4 e tail _ ih =>
    simp only [Option.bind_eq_bind, Option.bind_eq_some_iff] at h
    obtain ⟨_, _, ⟨_, _⟩, hs, he⟩ := h
    have := ih hs
    simp_all
    omega
  | case5 => simp at h
  | case6 c tail _ _ _ _ ih =>
    simp only [Option.map_eq_some_iff] at h
    obtain ⟨⟨_, _⟩, hs, he⟩ := h
    have := ih hs
    simp_all
    omega

theorem spanDigits_length (text : List Char) :
    (spanDigits text).1.length + (spanDigits text).2.length = text.length := by
  rw [← List.length_append, spanDigits, List.takeWhile_append_dropWhile]

theorem takeSign_length (text : List Char) : (takeSign text).2.length ≤ text.length := by
  unfold takeSign
  split <;> simp

theorem scanFraction_length {text rest digits : List Char}
    (h : scanFraction text = some (digits, rest)) : rest.length ≤ text.length := by
  unfold scanFraction at h
  split at h
  · next tail =>
    have := spanDigits_length tail
    simp only at h
    split at h <;> simp_all
    omega
  · simp_all

theorem scanExponent_length {text rest : List Char} {exponent : Option (Bool × List Char)}
    (h : scanExponent text = some (exponent, rest)) : rest.length ≤ text.length := by
  unfold scanExponent at h
  split at h
  · next c tail =>
    split at h
    · have := spanDigits_length (takeSign tail).2
      have := takeSign_length tail
      simp only at h
      split at h <;> simp_all
      omega
    · simp_all
  · simp_all

theorem scanUnsigned_length {negative : Bool} {text rest : List Char} {literal : NumberLiteral}
    (h : scanUnsigned negative text = some (literal, rest)) : rest.length < text.length := by
  have hd := spanDigits_length text
  simp only [scanUnsigned, Option.bind_eq_bind] at h
  split at h
  · simp at h
  · next hw =>
    have : 0 < (spanDigits text).1.length := by
      rcases hs : (spanDigits text).1 with _ | _ <;> simp_all
    simp only [Option.bind_eq_some_iff] at h
    obtain ⟨⟨_, r₁⟩, hf, ⟨_, r₂⟩, he, hs⟩ := h
    have := scanFraction_length hf
    have := scanExponent_length he
    simp_all
    omega

/-- What follows a token is no longer than what followed its first character. -/
theorem scanToken_length {c : Char} {rest after : List Char} {token : Token}
    (h : scanToken c rest = some (token, after)) : after.length ≤ rest.length := by
  unfold scanToken at h
  split at h
  case h_7 =>
    simp only [Option.map_eq_some_iff] at h
    obtain ⟨⟨_, _⟩, hs, he⟩ := h
    have := scanString_length hs
    simp_all
  case h_8 | h_9 | h_10 =>
    split at h
    · cases h
      simp only [List.length_cons]
      omega
    · simp at h
  case h_11 =>
    simp only [Option.map_eq_some_iff] at h
    obtain ⟨⟨_, _⟩, hs, he⟩ := h
    cases he
    exact Nat.le_of_lt (scanUnsigned_length hs)
  case h_12 =>
    split at h
    · simp only [Option.map_eq_some_iff] at h
      obtain ⟨⟨_, _⟩, hs, he⟩ := h
      cases he
      exact Nat.le_of_lt_succ (scanUnsigned_length hs)
    · simp at h
  all_goals simp_all

/-- The tokens of a text. -/
def lex (text : List Char) : List Token :=
  match text with
  | [] => []
  | c :: rest =>
    if isSpacing c then lex rest
    else match h : scanToken c rest with
      | none => [.invalid]
      | some (token, after) =>
        have := scanToken_length h
        token :: lex after
termination_by text.length

end MailMerge.Json
