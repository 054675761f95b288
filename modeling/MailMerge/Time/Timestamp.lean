/-
# Timestamps

The written form of a point in time: date, `T`, clock and `Z`, with as many groups of three
fraction digits as are needed. Years of more than four digits, and years before zero, carry a
sign. Reading is more lenient: blanks may surround the numbers, the date may be parted from the
clock by a blank, digits of the fraction beyond the ninth are dropped, and any offset below a day
may stand in place of the `Z`.
-/

import MailMerge.Text.Blank
import MailMerge.Time.Utc

namespace MailMerge.Time

open MailMerge.Text

/-! ## Writing -/

/-- A year, with a sign when it does not fit four digits. -/
def writeYear (year : Int) : List Char :=
  if 0 ≤ year ∧ year ≤ 9999 then paddedDigits 4 year.toNat
  else if year < 0 then '-' :: paddedDigits 4 year.natAbs
  else '+' :: paddedDigits 4 year.natAbs

/-- The fraction of a second, in as few groups of three digits as it takes. -/
def writeFraction (nanosecond : Nat) : List Char :=
  if nanosecond = 0 then []
  else if nanosecond % 1000000 = 0 then '.' :: paddedDigits 3 (nanosecond / 1000000)
  else if nanosecond % 1000 = 0 then '.' :: paddedDigits 6 (nanosecond / 1000)
  else '.' :: paddedDigits 9 nanosecond

/-- The timestamp of a point in time. -/
def Utc.write (t : Utc) : List Char :=
  writeYear t.date.year ++ '-' :: paddedDigits 2 t.date.month ++ '-' ::
    paddedDigits 2 t.date.day ++ 'T' :: paddedDigits 2 t.hour ++ ':' ::
    paddedDigits 2 t.minute ++ ':' :: paddedDigits 2 t.second ++
    writeFraction t.nanosecond ++ ['Z']

/-! ## Reading -/

/-- Read a number of one to `width` digits off the front of a text. -/
def readDigits (width : Nat) (text : List Char) : Option (Nat × List Char) :=
  let digits := (text.take width).takeWhile isAsciiDigit
  if digits.isEmpty then none else some (digitsValue digits, text.drop digits.length)

/-- Read a number of at most two digits, with blanks before it. -/
def readPair (text : List Char) : Option (Nat × List Char) :=
  readDigits 2 (trimLeft text)

/-- Read a year, with blanks before it. With a sign it may have any number of digits. -/
def readYear (text : List Char) : Option (Int × List Char) :=
  match trimLeft text with
  | '-' :: rest => (readDigits rest.length rest).map fun (year, rest) => (-(year : Int), rest)
  | '+' :: rest => (readDigits rest.length rest).map fun (year, rest) => ((year : Int), rest)
  | other => (readDigits 4 other).map fun (year, rest) => ((year : Int), rest)

/-- Read a mark, with blanks before it. -/
def readMark (mark : Char) (text : List Char) : Option (List Char) :=
  match trimLeft text with
  | c :: rest => if c = mark then some rest else none
  | [] => none

/-- Read the fraction of a second, if there is one. A point must have a digit after it. -/
def readFraction (text : List Char) : Option (Nat × List Char) :=
  match text with
  | '.' :: rest =>
    let digits := (rest.take 9).takeWhile isAsciiDigit
    if digits.isEmpty then none
    else some (digitsValue digits * Nat.pow 10 (9 - digits.length), rest.dropWhile isAsciiDigit)
  | other => some (0, other)

/-- Read the hours and minutes of an offset after its sign, in minutes. Colons and blanks may
part them. -/
def readOffsetSize (text : List Char) : Option (Nat × List Char) :=
  match text with
  | h₁ :: h₂ :: rest =>
    if isAsciiDigit h₁ && isAsciiDigit h₂ then
      match rest.dropWhile fun c => c == ':' || isBlank c with
      | m₁ :: m₂ :: rest =>
        if isAsciiDigit m₁ && isAsciiDigit m₂ && digitValue m₁ < 6 then
          some (digitsValue [h₁, h₂] * 60 + digitsValue [m₁, m₂], rest)
        else none
      | _ => none
    else none
  | _ => none

/-- Read an offset in minutes: the letter `Z`, the word `UTC`, or a signed size below a day. The
minus sign may be the mathematical one. -/
def readOffset (text : List Char) : Option (Int × List Char) :=
  if (text.take 3).map lowerAscii = ['u', 't', 'c'] then some (0, text.drop 3)
  else
    let sized (sign : Int) (rest : List Char) : Option (Int × List Char) := do
      let (size, rest) ← readOffsetSize rest
      if size < 1440 then some (sign * size, rest) else none
    match text with
    | 'Z' :: rest | 'z' :: rest => some (0, rest)
    | '+' :: rest => sized 1 rest
    | c :: rest => if c = '-' ∨ c = Char.ofNat 0x2212 then sized (-1) rest else none
    | [] => none

/-- Read a timestamp. The fields must be those of a calendar and a clock, and the time must be
one that can be told in UTC. -/
def Utc.read? (text : List Char) : Option Utc := do
  let (year, rest) ← readYear text
  let rest ← readMark '-' rest
  let (month, rest) ← readPair rest
  let rest ← readMark '-' rest
  let (day, rest) ← readPair rest
  let rest ← match rest with
    | c :: rest => if c = 'T' ∨ c = 't' ∨ c = ' ' then some rest else none
    | [] => none
  let (hour, rest) ← readPair rest
  let rest ← readMark ':' rest
  let (minute, rest) ← readPair rest
  let rest ← readMark ':' rest
  let (second, rest) ← readPair rest
  let (nanosecond, rest) ← readFraction rest
  let (offset, rest) ← readOffset (trimLeft rest)
  let told : Utc := ⟨⟨year, month, day⟩, hour, minute, second, nanosecond⟩
  let time := told.ofLocal offset
  if isAllBlank rest ∧ told.isValid ∧ time.isValid then some time else none

end MailMerge.Time
