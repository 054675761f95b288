/-
# Points in time

A point in time as the fields of a clock in UTC, to the nanosecond. A minute may have a
sixty-first second. Years are those of the Gregorian calendar extended in both directions. A time
told by a clock with another offset is brought to UTC by moving over at most one midnight.
-/

import MailMerge.Text.Numeral

namespace MailMerge.Time

open MailMerge.Text

/-- A leap year of the Gregorian calendar. -/
def isLeapYear (year : Int) : Bool :=
  year % 4 = 0 && (year % 100 ≠ 0 || year % 400 = 0)

/-- The length of a month. -/
def daysInMonth (year : Int) (month : Nat) : Nat :=
  match month with
  | 2 => if isLeapYear year then 29 else 28
  | 4 | 6 | 9 | 11 => 30
  | _ => 31

/-- A day of the calendar. -/
structure Day where
  year : Int
  month : Nat
  day : Nat
  deriving DecidableEq, Repr

namespace Day

/-- The first and the last year that can be told. -/
def isYearInRange (year : Int) : Bool :=
  -262143 ≤ year && year ≤ 262142

/-- The fields tell a day of the calendar. -/
def isValid (d : Day) : Bool :=
  isYearInRange d.year && 1 ≤ d.month && d.month ≤ 12 && 1 ≤ d.day &&
    d.day ≤ daysInMonth d.year d.month

/-- The day after. -/
def next (d : Day) : Day :=
  if d.day < daysInMonth d.year d.month then { d with day := d.day + 1 }
  else if d.month < 12 then ⟨d.year, d.month + 1, 1⟩
  else ⟨d.year + 1, 1, 1⟩

/-- The day before. -/
def previous (d : Day) : Day :=
  if 1 < d.day then { d with day := d.day - 1 }
  else if 1 < d.month then ⟨d.year, d.month - 1, daysInMonth d.year (d.month - 1)⟩
  else ⟨d.year - 1, 12, 31⟩

/-- The weekday, counted from Monday as zero. The year is taken to begin in March, so that the
leap day is its last. -/
def weekday (d : Day) : Nat :=
  let year := if d.month ≤ 2 then d.year - 1 else d.year
  let month := if d.month ≤ 2 then d.month + 9 else d.month - 3
  let dayOfYear : Int := ((153 * month + 2) / 5 + d.day : Nat) - 1
  let days := 365 * year + year / 4 - year / 100 + year / 400 + dayOfYear
  ((days + 2) % 7).toNat

end Day

/-- A point in time, as a clock in UTC tells it. -/
structure Utc where
  date : Day
  hour : Nat
  minute : Nat
  /-- Up to sixty, in a minute with a leap second. -/
  second : Nat
  nanosecond : Nat
  deriving DecidableEq, Repr

namespace Utc

/-- The fields are those of a clock. -/
def isValid (t : Utc) : Bool :=
  t.date.isValid && t.hour < 24 && t.minute < 60 && t.second ≤ 60 && t.nanosecond < 1000000000

/-- The time when a clock ahead of UTC by `offset` minutes tells `told`. -/
def ofLocal (told : Utc) (offset : Int) : Utc :=
  let minutes : Int := (told.hour * 60 + told.minute : Nat) - offset
  let (date, minutes) :=
    if minutes < 0 then (told.date.previous, minutes + 1440)
    else if 1440 ≤ minutes then (told.date.next, minutes - 1440)
    else (told.date, minutes)
  { told with date, hour := (minutes / 60).toNat, minute := (minutes % 60).toNat }

end Utc

/-- The beginning of the year 1970. -/
def epoch : Utc := ⟨⟨1970, 1, 1⟩, 0, 0, 0, 0⟩

/-- Short names of the weekdays, from Monday. -/
def weekdayNames : List String := ["Mon", "Tue", "Wed", "Thu", "Fri", "Sat", "Sun"]

/-- Full names of the weekdays, from Monday. -/
def fullWeekdayNames : List String :=
  ["Monday", "Tuesday", "Wednesday", "Thursday", "Friday", "Saturday", "Sunday"]

/-- Short names of the months. -/
def monthNames : List String :=
  ["Jan", "Feb", "Mar", "Apr", "May", "Jun", "Jul", "Aug", "Sep", "Oct", "Nov", "Dec"]

/-- The time as the date of a mail: weekday, day, month, year, clock and the offset zero. -/
def Utc.mailDate (t : Utc) : String :=
  let name (names : List String) (index : Nat) : List Char := (names.getD index "").toList
  String.ofList
    (name weekdayNames t.date.weekday ++ [',', ' '] ++ paddedDigits 2 t.date.day ++ [' '] ++
      name monthNames (t.date.month - 1) ++ [' '] ++ paddedDigits 4 t.date.year.toNat ++ [' '] ++
      paddedDigits 2 t.hour ++ [':'] ++ paddedDigits 2 t.minute ++ [':'] ++
      paddedDigits 2 t.second ++ " +0000".toList)

end MailMerge.Time
