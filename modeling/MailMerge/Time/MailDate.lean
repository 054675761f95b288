/-
# Dates of mails

The three forms in which the date of a mail may be given. Each form has a fixed length; the date
must be one of the calendar between the years 1970 and 9999, and its weekday must be the right one.
-/

import MailMerge.Text.Blank
import MailMerge.Time.Utc

namespace MailMerge.Time

open MailMerge.Text

/-- The characters of a text from one position up to another. -/
def between (first last : Nat) (text : List Char) : List Char :=
  (text.take last).drop first

/-- A text made of digits only, as a number. -/
def digitsNumber? (digits : List Char) : Option Nat :=
  if digits.all isAsciiDigit then some (digitsValue digits) else none

/-- A text stands at a position of another. -/
def standsAt (part : String) (position : Nat) (text : List Char) : Bool :=
  between position (position + part.length) text == part.toList

/-- The place of a name in a list of names. -/
def placeOf? (names : List String) (name : List Char) : Option Nat :=
  names.findIdx? fun candidate => candidate.toList == name

/-- A date with its weekday, counted from Monday as zero. -/
structure WeekdayTime where
  weekday : Nat
  time : Utc
  deriving DecidableEq, Repr

/-- The clock at a position of a text. -/
def clockAt? (position : Nat) (text : List Char) : Option (Nat × Nat × Nat) := do
  let hour ← digitsNumber? (between position (position + 2) text)
  let minute ← digitsNumber? (between (position + 3) (position + 5) text)
  let second ← digitsNumber? (between (position + 6) (position + 8) text)
  if standsAt ":" (position + 2) text && standsAt ":" (position + 5) text then
    some (hour, minute, second)
  else none

/-- The month whose short name stands at a position, between two marks. -/
def monthAt? (mark : Char) (position : Nat) (text : List Char) : Option Nat :=
  let names := monthNames.map fun name => String.ofList (mark :: name.toList ++ [mark])
  (placeOf? names (between position (position + 5) text)).map (· + 1)

/-- Put a date together. -/
def weekdayTime (weekday year month day : Nat) (clock : Nat × Nat × Nat) : WeekdayTime :=
  let (hour, minute, second) := clock
  ⟨weekday, ⟨year, month, day⟩, hour, minute, second, 0⟩

/-- A date such as `Sun, 06 Nov 1994 08:49:37 GMT`. -/
def readFixedDate (text : List Char) : Option WeekdayTime := do
  let weekday ← placeOf? (weekdayNames.map (· ++ ", ")) (text.take 5)
  let day ← digitsNumber? (between 5 7 text)
  let month ← monthAt? ' ' 7 text
  let year ← digitsNumber? (between 12 16 text)
  let clock ← clockAt? 17 text
  if text.length = 29 ∧ standsAt " " 16 text ∧ standsAt " GMT" 25 text then
    some (weekdayTime weekday year month day clock)
  else none

/-- A date such as `Sunday, 06-Nov-94 08:49:37 GMT`. Years below seventy are of this century. -/
def readHyphenDate (text : List Char) : Option WeekdayTime := do
  let name := text.takeWhile fun c => c != ','
  let weekday ← placeOf? fullWeekdayNames name
  let rest := text.drop name.length
  let day ← digitsNumber? (between 2 4 rest)
  let month ← monthAt? '-' 4 rest
  let year ← digitsNumber? (between 9 11 rest)
  let clock ← clockAt? 12 rest
  if rest.length = 24 ∧ standsAt ", " 0 rest ∧ standsAt " GMT" 20 rest then
    some (weekdayTime weekday (if year < 70 then year + 2000 else year + 1900) month day clock)
  else none

/-- A date such as `Sun Nov  6 08:49:37 1994`. -/
def readSpacedDate (text : List Char) : Option WeekdayTime := do
  let weekday ← placeOf? weekdayNames (text.take 3)
  let month ← monthAt? ' ' 3 text
  let day ← match between 8 10 text with
    | [' ', digit] => digitsNumber? [digit]
    | digits => digitsNumber? digits
  let clock ← clockAt? 11 text
  let year ← digitsNumber? (between 20 24 text)
  if text.length = 24 ∧ standsAt " " 10 text ∧ standsAt " " 19 text then
    some (weekdayTime weekday year month day clock)
  else none

namespace WeekdayTime

/-- The date is one of the calendar, in the range of years, on its weekday. -/
def isValid (date : WeekdayTime) : Bool :=
  date.time.isValid && date.time.second < 60 && 1970 ≤ date.time.date.year &&
    date.time.date.year ≤ 9999 && date.time.date.weekday == date.weekday

end WeekdayTime

/-- A text with the offset zero at its end spelled as the name of the zone. -/
def nameZeroOffset (text : List Char) : List Char :=
  if "+0000".toList.isSuffixOf text then text.take (text.length - 5) ++ "GMT".toList else text

/-- A text is the date of a mail. -/
def isMailDate (text : List Char) : Bool :=
  let text := nameZeroOffset text
  let core := trim text
  let date := (readFixedDate core).or ((readHyphenDate core).or (readSpacedDate core))
  text.all (fun c => c.toNat < 128) && (date.map WeekdayTime.isValid).getD false

end MailMerge.Time
