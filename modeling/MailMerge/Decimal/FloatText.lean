/-
# Floating-point numbers in text

Writing a finite floating-point number by its shortest decimal in a chosen layout, and reading a
decimal literal by scaling a significand of at most 64 bits. Reading rounds once for the
significand and once for each power of ten applied, so it is not always the nearest number.
-/

import MailMerge.Decimal.Shortest
import MailMerge.Text.Numeral

namespace MailMerge.Decimal

open MailMerge.Text

/-- The sign and the magnitude of a floating-point number that is neither infinite nor NaN. -/
structure Magnitude where
  negative : Bool
  size : Binary

/-- Take a finite floating-point number apart. -/
def Magnitude.of (x : Float) : Magnitude :=
  let bits : Nat := x.toBits.toNat
  let fraction : Nat := bits % leastFullMantissa
  let power : Nat := bits / leastFullMantissa % 2048
  { negative := bits / leastFullMantissa / 2048 = 1
    size := if power = 0 then ⟨fraction, leastExponent⟩
      else ⟨leastFullMantissa + fraction, (power : Int) - 1075⟩ }

/-- The decisions of a layout for floating-point numbers. -/
structure FloatLayout where
  /-- The least exponent of the leading digit that is written positionally. -/
  leastPositional : Int
  /-- The greatest exponent of the leading digit that is written positionally. -/
  greatestPositional : Int
  /-- What follows a positional number without a fraction. -/
  wholeSuffix : List Char
  /-- What stands before the exponent of a number that is not positional. -/
  exponentMark : List Char
  /-- The sign of a positive exponent. -/
  positiveExponentSign : List Char

namespace FloatLayout

/-- Digits written positionally, with the point after the digit of `leading`. -/
def positional (layout : FloatLayout) (digits : List Char) (leading : Int) : List Char :=
  if leading < 0 then
    '0' :: '.' :: List.replicate (-leading - 1).toNat '0' ++ digits
  else
    let whole := leading.toNat + 1
    if digits.length ≤ whole then
      digits ++ List.replicate (whole - digits.length) '0' ++ layout.wholeSuffix
    else
      digits.take whole ++ '.' :: digits.drop whole

/-- Digits written with one digit before the point and an exponent. -/
def scientific (layout : FloatLayout) (digits : List Char) (leading : Int) : List Char :=
  let fraction := match digits.drop 1 with
    | [] => []
    | rest => '.' :: rest
  let sign := if leading < 0 then ['-'] else layout.positiveExponentSign
  digits.take 1 ++ fraction ++ layout.exponentMark ++ sign ++ decimalDigits leading.natAbs

/-- Write a finite floating-point number. -/
def write (layout : FloatLayout) (x : Float) : List Char :=
  let parts := Magnitude.of x
  let sign := if parts.negative then ['-'] else []
  if parts.size.mantissa = 0 then
    sign ++ '0' :: layout.wholeSuffix
  else
    let decimal := parts.size.shortest
    let digits := decimalDigits decimal.digits
    let leading := decimal.exponent + digits.length - 1
    if layout.leastPositional ≤ leading ∧ leading ≤ layout.greatestPositional then
      sign ++ layout.positional digits leading
    else
      sign ++ layout.scientific digits leading

end FloatLayout

/-- A power of ten as a floating-point number; exact rounding of `10 ^ n`. -/
def powerOfTen (n : Nat) : Float :=
  Float.ofScientific 1 false n

/-- The greatest power of ten that scales a significand in one step. -/
def greatestStep : Nat := 308

/-- Divide by powers of ten in steps of at most `greatestStep`. A significand that has reached
zero stays there. -/
def scaleDown (x : Float) (places : Nat) : Float :=
  if places ≤ greatestStep then x / powerOfTen places
  else if x == 0 then x
  else scaleDown (x / powerOfTen greatestStep) (places - greatestStep)
termination_by places
decreasing_by simp [greatestStep] at *; omega

/-- The floating-point number for `significand * 10 ^ exponent`, or nothing when it is too
large. -/
def scale? (significand : Nat) (exponent : Int) : Option Float :=
  let x := significand.toUInt64.toFloat
  if 0 ≤ exponent then
    if exponent.toNat ≤ greatestStep then
      let scaled := x * powerOfTen exponent.toNat
      if scaled.isInf then none else some scaled
    else if x == 0 then some x
    else none
  else
    some (scaleDown x (-exponent).toNat)

end MailMerge.Decimal
