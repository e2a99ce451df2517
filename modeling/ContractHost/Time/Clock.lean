import ContractHost.Decimal.Binary64

/-!
# Moments of universal time

A number of seconds since the first day of 1970, as a day of the calendar and a time of that day. Days
are counted in eras of 400 years, all of the same length, whose years begin in March, so that a leap day
comes last.

* `Clock.ofSeconds`: the day and time of a number of seconds.
-/

namespace ContractHost

/-- A day of the calendar and a time of that day. -/
structure Clock where
  year : Int
  month : Nat
  day : Nat
  hour : Nat
  minute : Nat
  second : Nat
  /-- The day of the week, from zero on Sunday. -/
  weekday : Nat
  /-- The day of the year, from zero. -/
  yearDay : Nat
  /-- The seconds since the first day of 1970. -/
  seconds : Int
  deriving DecidableEq, Repr

namespace Clock

/-- The number of days of an era. -/
def daysOfEra : Nat := 146097

/-- The days from the first day of an era to that of 1970. -/
def eraOffset : Int := 719468

/-- The year of an era that a day of the era lies in. -/
def yearOfEra (day : Nat) : Nat := (day - day / 1460 + day / 36524 - day / 146096) / 365

/-- The first day of a year of an era. -/
def firstDay (year : Nat) : Nat := 365 * year + year / 4 - year / 100

/-- Whether a year has a leap day. -/
def isLeap (year : Int) : Bool := year % 4 = 0 && (year % 100 ≠ 0 || year % 400 = 0)

/-- The day and time of a number of seconds since the first day of 1970. -/
def ofSeconds (seconds : Int) : Clock :=
  let days := Int.fdiv seconds 86400
  let rest := (Int.fmod seconds 86400).toNat
  let shifted := days + eraOffset
  let era := Int.fdiv shifted daysOfEra
  let dayOfEra := (Int.fmod shifted daysOfEra).toNat
  let year := yearOfEra dayOfEra
  -- from the first of March
  let dayOfYear := dayOfEra - firstDay year
  let march := (5 * dayOfYear + 2) / 153
  let month := if march < 10 then march + 3 else march - 9
  let year : Int := year + era * 400 + (if month ≤ 2 then 1 else 0)
  { year, month
    day := dayOfYear - (153 * march + 2) / 5 + 1
    hour := rest / 3600
    minute := rest / 60 % 60
    second := rest % 60
    weekday := (Int.fmod (days + 4) 7).toNat
    yearDay := if month ≤ 2 then dayOfYear - 306
      else dayOfYear + 59 + (if isLeap year then 1 else 0)
    seconds }

/-- The whole seconds of a number, those before it if it has a fraction. -/
def wholeSeconds? : Binary64 → Option Int
  | .finite negative mantissa exponent =>
    let (num, den) : Int × Int :=
      if 0 ≤ exponent then ((mantissa * twoTo exponent.toNat : Nat), 1)
      else (mantissa, (twoTo (-exponent).toNat : Nat))
    some (Int.fdiv (if negative then -num else num) den)
  | _ => none

/-! ## Weeks -/

/-- The week of the year by a first day of the week: the days before the first such day are in week
zero. -/
def weekFrom (c : Clock) (firstWeekday : Nat) : Nat :=
  (c.yearDay + 7 - (c.weekday + 7 - firstWeekday) % 7) / 7

/-- The number of days of a year. -/
def daysOfYear (year : Int) : Nat := if isLeap year then 366 else 365

/-- The days from the Monday of the first week of a year to a day: the first week is the one with the
first Thursday. The day is given by its number in the year and its day of the week. -/
def daysOfWeeks (yearDay : Int) (weekday : Nat) : Int :=
  yearDay - Int.fmod (yearDay - weekday + 382) 7 + 3

/-- The year whose weeks a day counts in, and its week. -/
def isoWeek (c : Clock) : Int × Nat :=
  let days := daysOfWeeks c.yearDay c.weekday
  if days < 0 then
    let days := daysOfWeeks (c.yearDay + daysOfYear (c.year - 1)) c.weekday
    (c.year - 1, (days / 7 + 1).toNat)
  else
    let next := daysOfWeeks (c.yearDay - daysOfYear c.year) c.weekday
    if 0 ≤ next then (c.year + 1, (next / 7 + 1).toNat)
    else (c.year, (days / 7 + 1).toNat)

end Clock

end ContractHost
