/-
# Counted time

The fields of a clock from a count of seconds since the beginning of 1970. Days are counted from the
first of March of the year zero, so that every leap day is the last day of its year.
-/

import MailMerge.Time.Utc

namespace MailMerge.Time

/-- The days of four hundred years. -/
def cycleDays : Nat := 146097

/-- The days from the first of March of the year zero to the beginning of 1970. -/
def epochDays : Nat := 719468

/-- The day that lies a number of days after the beginning of 1970. -/
def Day.ofCount (days : Nat) : Day :=
  let cycle := (days + epochDays) / cycleDays
  let day := (days + epochDays) % cycleDays
  let year := (day - day / 1460 + day / 36524 - day / 146096) / 365
  let day := day - (365 * year + year / 4 - year / 100)
  let month := (5 * day + 2) / 153
  let first := (153 * month + 2) / 5
  let year := cycle * 400 + year
  if month < 10 then ⟨year, month + 3, day - first + 1⟩
  else ⟨year + 1, month - 9, day - first + 1⟩

/-- The time that lies a number of seconds after the beginning of 1970. -/
def Utc.ofSeconds (seconds : Nat) (nanosecond : Nat) : Utc where
  date := .ofCount (seconds / 86400)
  hour := seconds % 86400 / 3600
  minute := seconds % 3600 / 60
  second := seconds % 60
  nanosecond

end MailMerge.Time
