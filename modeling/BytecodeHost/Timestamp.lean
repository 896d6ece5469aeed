import BytecodeHost.Text

/-!
# Points in time

A point in time is a whole number of nanoseconds since the beginning of 1970. It is written as a
date and a time in UTC, to the second.
-/

namespace BytecodeHost

namespace Timestamp

/-- A day of the calendar. -/
structure Date where
  year : Int
  month : Nat
  day : Nat
  deriving DecidableEq

/-- The days in 400 years. -/
def daysPerEra : Int := 146097

/-- The days from the first of March of year 0 to the beginning of 1970. -/
def daysToEpoch : Int := 719468

/-- The date so many days after the beginning of 1970. Years are counted from March, so that a leap
day is the last of its year. -/
def dateOfDays (days : Int) : Date :=
  let shifted := days + daysToEpoch
  let era := shifted.fdiv daysPerEra
  let dayOfEra := (shifted - era * daysPerEra).toNat
  let year := (dayOfEra - dayOfEra / 1460 + dayOfEra / 36524 - dayOfEra / 146096) / 365
  let dayOfYear := dayOfEra - (365 * year + year / 4 - year / 100)
  let month := (5 * dayOfYear + 2) / 153
  let day := dayOfYear - (153 * month + 2) / 5 + 1
  let january := 10 ≤ month
  { year := year + era * 400 + if january then 1 else 0
    month := if january then month - 9 else month + 3
    day }

/-- A number with at least so many digits. -/
def digits (width n : Nat) : String :=
  Text.padLeft '0' width (toString n)

/-- The text of a point in time. -/
def render (nanoseconds : Int) : String :=
  let seconds := nanoseconds.fdiv 1000000000
  let days := seconds.fdiv 86400
  let second := (seconds - days * 86400).toNat
  let date := dateOfDays days
  digits 4 date.year.toNat ++ "-" ++ digits 2 date.month ++ "-" ++ digits 2 date.day ++ "T"
    ++ digits 2 (second / 3600) ++ ":" ++ digits 2 (second / 60 % 60) ++ ":"
    ++ digits 2 (second % 60) ++ "Z"

end Timestamp

end BytecodeHost
