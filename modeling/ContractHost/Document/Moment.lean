import ContractHost.Decimal.Digits

/-!
# Dates and times

A date, a time of day, or both together, with an optional distance from universal time in minutes. A
moment has two texts.

* `Moment.display`: the call that makes it, as messages show it among other values.
* `Moment.iso`: its numbers in order, from the largest unit to the smallest.
-/

namespace ContractHost

/-- A day of the calendar. -/
structure Date where
  year : Nat
  month : Nat
  day : Nat
  deriving DecidableEq, Repr

/-- A time of day. -/
structure TimeOfDay where
  hour : Nat
  minute : Nat
  second : Nat
  microsecond : Nat
  deriving DecidableEq, Repr

/-- A date, a time or both. -/
inductive Moment
  | date (date : Date)
  | time (time : TimeOfDay)
  | both (date : Date) (time : TimeOfDay) (offset : Option Int)
  deriving DecidableEq, Repr

namespace Moment

/-- Whether a year has a leap day. -/
def isLeapYear (year : Nat) : Bool :=
  year % 4 = 0 && (year % 100 ≠ 0 || year % 400 = 0)

/-- The number of days of a month. -/
def daysIn (year month : Nat) : Nat :=
  match month with
  | 2 => if isLeapYear year then 29 else 28
  | 4 => 30
  | 6 => 30
  | 9 => 30
  | 11 => 30
  | _ => 31

/-- Whether a day is one of the calendar. -/
def Valid (d : Date) : Prop :=
  1 ≤ d.year ∧ 1 ≤ d.month ∧ d.month ≤ 12 ∧ 1 ≤ d.day ∧ d.day ≤ daysIn d.year d.month

instance (d : Date) : Decidable (Valid d) := by unfold Valid; infer_instance

/-- Numbers with commas between them. -/
def commas (numbers : List Nat) : String :=
  String.intercalate ", " (numbers.map fun n => String.ofList (Decimal.digits n))

/-- The numbers of a day. -/
def dateNumbers (d : Date) : List Nat := [d.year, d.month, d.day]

/-- The numbers of a time, without trailing seconds that are zero. -/
def timeNumbers (t : TimeOfDay) : List Nat :=
  [t.hour, t.minute] ++
    (if t.microsecond ≠ 0 then [t.second, t.microsecond]
     else if t.second ≠ 0 then [t.second] else [])

/-- A span of minutes, as days and seconds if it is negative. -/
def spanText (minutes : Int) : String :=
  if minutes = 0 then "datetime.timezone.utc"
  else
    let days := Int.fdiv minutes 1440
    let seconds := (Int.fmod minutes 1440) * 60
    let parts := (if days = 0 then [] else [s!"days={Decimal.intText days}"]) ++
      (if seconds = 0 then [] else [s!"seconds={Decimal.intText seconds}"])
    "datetime.timezone(datetime.timedelta(" ++ String.intercalate ", " parts ++ "))"

/-- The call that makes a moment. -/
def display : Moment → String
  | .date d => "datetime.date(" ++ commas (dateNumbers d) ++ ")"
  | .time t => "datetime.time(" ++ commas (timeNumbers t) ++ ")"
  | .both d t offset =>
    let zone := match offset with
      | none => ""
      | some minutes => ", tzinfo=" ++ spanText minutes
    "datetime.datetime(" ++ commas (dateNumbers d ++ timeNumbers t) ++ zone ++ ")"

/-- A number on a fixed count of places. -/
def padded (places n : Nat) : String := String.ofList (Decimal.fixedDigits places n)

/-- A day as year, month and day. -/
def dateIso (d : Date) : String := s!"{padded 4 d.year}-{padded 2 d.month}-{padded 2 d.day}"

/-- A time as hour, minute and second, with six places of the second if any of them is not zero. -/
def timeIso (t : TimeOfDay) : String :=
  s!"{padded 2 t.hour}:{padded 2 t.minute}:{padded 2 t.second}" ++
    (if t.microsecond = 0 then "" else "." ++ padded 6 t.microsecond)

/-- A distance from universal time as a sign, hours and minutes. -/
def offsetIso (minutes : Int) : String :=
  let sign := if minutes < 0 then "-" else "+"
  s!"{sign}{padded 2 (minutes.natAbs / 60)}:{padded 2 (minutes.natAbs % 60)}"

/-- A moment as its numbers in order. -/
def iso : Moment → String
  | .date d => dateIso d
  | .time t => timeIso t
  | .both d t offset => s!"{dateIso d} {timeIso t}" ++ (offset.map offsetIso).getD ""

end Moment

end ContractHost
