/-
# The shortest decimal that reads back

A positive binary number `mantissa * 2 ^ exponent` with a mantissa of at most 53 bits stands for
every real that rounds to it. Among the decimals in that interval this module picks one with the
fewest digits, and of two such the nearer. All arithmetic is exact, on natural numbers.
-/

namespace MailMerge.Decimal

/-- A decimal: `digits * 10 ^ exponent`. -/
structure ScaledDigits where
  digits : Nat
  exponent : Int
  deriving DecidableEq, Repr

/-- A positive binary number `mantissa * 2 ^ exponent`. -/
structure Binary where
  mantissa : Nat
  exponent : Int
  deriving DecidableEq, Repr

/-- A non-negative fraction. -/
structure Fraction where
  numerator : Nat
  denominator : Nat

namespace Fraction

/-- The fraction `n * base ^ exponent`. -/
def scaled (n base : Nat) (exponent : Int) : Fraction :=
  if 0 ≤ exponent then ⟨n * Nat.pow base exponent.toNat, 1⟩
  else ⟨n, Nat.pow base (-exponent).toNat⟩

/-- Strictly less, by cross multiplication. -/
def lt (x y : Fraction) : Bool :=
  x.numerator * y.denominator < y.numerator * x.denominator

/-- Less or equal, by cross multiplication. -/
def le (x y : Fraction) : Bool :=
  x.numerator * y.denominator ≤ y.numerator * x.denominator

/-- The distance of two fractions. -/
def distance (x y : Fraction) : Fraction :=
  let left := x.numerator * y.denominator
  let right := y.numerator * x.denominator
  ⟨(left - right) + (right - left), x.denominator * y.denominator⟩

end Fraction

/-- The least mantissa of 53 bits, two to the fifty-second. -/
def leastFullMantissa : Nat := 4503599627370496

/-- The smallest binary exponent of a number with 53 bits of precision. -/
def leastExponent : Int := -1074

namespace Binary

/-- The value of a binary number. -/
def value (x : Binary) : Fraction :=
  .scaled x.mantissa 2 x.exponent

/-- The lower end of the interval of reals that round to a number: half way to its neighbour
below, which is twice as near when the mantissa is the least of its binade. -/
def lowerEnd (x : Binary) : Fraction :=
  if x.mantissa = leastFullMantissa ∧ leastExponent < x.exponent then
    .scaled (4 * x.mantissa - 1) 2 (x.exponent - 2)
  else
    .scaled (4 * x.mantissa - 2) 2 (x.exponent - 2)

/-- The upper end of the interval of reals that round to a number. -/
def upperEnd (x : Binary) : Fraction :=
  .scaled (4 * x.mantissa + 2) 2 (x.exponent - 2)

/-- A decimal rounds to the number. The ends of the interval round to it when its mantissa is
even. -/
def isReadBackFrom (x : Binary) (d : ScaledDigits) : Bool :=
  let decimal := Fraction.scaled d.digits 10 d.exponent
  if x.mantissa % 2 = 0 then x.lowerEnd.le decimal && decimal.le x.upperEnd
  else x.lowerEnd.lt decimal && decimal.lt x.upperEnd

/-- The number of decimal digits of a natural number. -/
def digitCount (n : Nat) : Nat :=
  if n < 10 then 1 else digitCount (n / 10) + 1
termination_by n
decreasing_by omega

/-- The exponent of the leading decimal digit of a positive number. -/
def leadingExponent (x : Binary) : Int :=
  let v := x.value
  if v.denominator ≤ v.numerator then (digitCount (v.numerator / v.denominator) : Int) - 1
  else
    let inverse := v.denominator / v.numerator
    let places := digitCount inverse
    if Nat.pow 10 (places - 1) * v.numerator = v.denominator then 1 - (places : Int)
    else -(places : Int)

/-- The decimal with `count` digits nearest to the number among its two neighbours, when it reads
back. Of two that read back the nearer counts, and of two equally near the even one. -/
def withDigits? (x : Binary) (count : Nat) : Option ScaledDigits :=
  let v := x.value
  let exponent := x.leadingExponent + 1 - count
  let unit := Fraction.scaled 1 10 exponent
  let below : ScaledDigits :=
    ⟨v.numerator * unit.denominator / (v.denominator * unit.numerator), exponent⟩
  let above : ScaledDigits := ⟨below.digits + 1, exponent⟩
  let gap (d : ScaledDigits) := (Fraction.scaled d.digits 10 exponent).distance v
  match x.isReadBackFrom below, x.isReadBackFrom above with
  | true, true =>
    if (gap above).lt (gap below) then some above
    else if (gap below).lt (gap above) then some below
    else if below.digits % 2 = 0 then some below
    else some above
  | true, false => some below
  | false, true => some above
  | false, false => none

/-- The first decimal found for the digit counts from `count` on, over `tries` counts. -/
def shortestFrom (x : Binary) (count : Nat) : Nat → ScaledDigits
  | 0 => ⟨0, 0⟩
  | tries + 1 =>
    match x.withDigits? count with
    | some decimal => decimal
    | none => shortestFrom x (count + 1) tries

/-- A shortest decimal that reads back as the number. Seventeen digits always suffice. A single
nine that is rounded up is written as a one in the place before it. -/
def shortest (x : Binary) : ScaledDigits :=
  let decimal := x.shortestFrom 1 17
  if decimal.digits % 10 = 0 then ⟨decimal.digits / 10, decimal.exponent + 1⟩ else decimal

end Binary

end MailMerge.Decimal
