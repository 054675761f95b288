/-
# Decimal numerals

Writing a natural number in decimal and reading an unsigned numeral below a bound. A numeral may
carry one leading plus sign and any number of leading zeros; nothing else surrounds its digits.
-/

import MailMerge.Text.Ascii

namespace MailMerge.Text

/-- The decimal digits of a number, most significant first, with no leading zero. -/
def decimalDigits (n : Nat) : List Char :=
  if n < 10 then [Char.ofNat (n + '0'.toNat)]
  else decimalDigits (n / 10) ++ [Char.ofNat (n % 10 + '0'.toNat)]
termination_by n
decreasing_by omega

/-- A number in decimal. -/
def decimal (n : Nat) : String :=
  String.ofList (decimalDigits n)

/-- A number in decimal, padded with zeros on the left to at least `width` digits. -/
def paddedDigits (width n : Nat) : List Char :=
  let digits := decimalDigits n
  List.replicate (width - digits.length) '0' ++ digits

/-- The number that a run of digits denotes. -/
def digitsValue (digits : List Char) : Nat :=
  digits.foldl (fun total c => total * 10 + digitValue c) 0

/-- Read an unsigned numeral below `bound`. An optional plus sign comes first; at least one digit
must follow and nothing else. -/
def numeralBelow? (bound : Nat) (text : List Char) : Option Nat :=
  let digits := match text with
    | '+' :: rest => rest
    | other => other
  if digits.isEmpty then none
  else if digits.all isAsciiDigit then
    let value := digitsValue digits
    if value < bound then some value else none
  else none

end MailMerge.Text
