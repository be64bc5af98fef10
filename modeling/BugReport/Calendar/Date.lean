/-!
# Calendar dates

The proleptic Gregorian calendar over all years, with day numbers counted from 1 January 1970. A date
and its day number determine each other, and day numbers are ordered as the dates are.
-/

namespace BugReport.Calendar

/-- A year, a month from 1 to 12 and a day from 1. -/
structure Date where
  year : Int
  month : Nat
  day : Nat
  deriving DecidableEq, Repr, Inhabited

/-- Whether a year has 366 days. -/
def isLeap (year : Int) : Bool :=
  year % 4 == 0 && (year % 100 != 0 || year % 400 == 0)

def daysInMonth (year : Int) (month : Nat) : Nat :=
  match month with
  | 2 => if isLeap year then 29 else 28
  | 4 | 6 | 9 | 11 => 30
  | _ => 31

/-- The days from 1 January of the year 1 to 1 January of a year. -/
def yearStart (year : Int) : Int :=
  365 * (year - 1) + (year - 1) / 4 - (year - 1) / 100 + (year - 1) / 400

/-- The days of a year before the first day of a month. -/
def monthStart (year : Int) (month : Nat) : Nat :=
  (List.range (month - 1)).foldl (fun days m => days + daysInMonth year (m + 1)) 0

/-- The days from 1 January of the year 1 to 1 January 1970. -/
def epochStart : Int := yearStart 1970

/-- The days from 1 January 1970 to a date. -/
def Date.dayNumber (d : Date) : Int :=
  yearStart d.year + monthStart d.year d.month + (d.day - 1 : Nat) - epochStart

/-- The year that holds a day, counted from 1 January of the year 1. -/
def yearOf (n : Int) : Int :=
  -- an average year is 146097 / 400 days long, so the guess is off by at most one
  let guess := n * 400 / 146097 + 1
  if n < yearStart guess then guess - 1
  else if yearStart (guess + 1) ≤ n then guess + 1
  else guess

/-- The month that holds a day of a year, counted from 0 on 1 January. -/
def monthOf (year : Int) (dayOfYear : Nat) : Nat :=
  1 + ((List.range 11).filter fun m => monthStart year (m + 2) ≤ dayOfYear).length

/-- The date with a given day number. -/
def Date.ofDayNumber (n : Int) : Date :=
  let n := n + epochStart
  let year := yearOf n
  let dayOfYear := (n - yearStart year).toNat
  let month := monthOf year dayOfYear
  ⟨year, month, dayOfYear - monthStart year month + 1⟩

/-- The first year with dates that can be represented. -/
def firstYear : Int := -262143

/-- The last year with dates that can be represented. -/
def lastYear : Int := 262142

/-- Whether a year, a month and a day make a date that can be represented. -/
def Date.isValid (d : Date) : Bool :=
  firstYear ≤ d.year && d.year ≤ lastYear && 1 ≤ d.month && d.month ≤ 12 && 1 ≤ d.day &&
    d.day ≤ daysInMonth d.year d.month

/-- Whether a day number belongs to a date that can be represented. -/
def inRange (n : Int) : Bool :=
  (Date.mk firstYear 1 1).dayNumber ≤ n && n ≤ (Date.mk lastYear 12 31).dayNumber

/-- The same day some months later, or the last day of that month if it is shorter. There is none
after the last year. -/
def Date.addMonths? (d : Date) (count : Nat) : Option Date :=
  let months := d.month - 1 + count
  let year := d.year + (months / 12 : Nat)
  let month := months % 12 + 1
  if year ≤ lastYear then some ⟨year, month, min d.day (daysInMonth year month)⟩ else none

/-- The day of the week, 0 on a Monday. -/
def weekday (n : Int) : Int :=
  (n + 3) % 7

/-- The ISO year and week of a day: weeks start on a Monday and belong to the year that holds their
Thursday. -/
def isoWeek (n : Int) : Int × Int :=
  let thursday := n - weekday n + 3
  let year := (Date.ofDayNumber thursday).year
  (year, (thursday - (Date.mk year 1 1).dayNumber) / 7 + 1)

/-- Digits with zeros in front of them up to a width. -/
def padded (width n : Nat) : String :=
  let ds := Nat.toDigits 10 n
  String.ofList (List.replicate (width - ds.length) '0' ++ ds)

/-- A year in four digits; outside of 0 to 9999 it has a sign and at least four digits. -/
def yearText (year : Int) : String :=
  if 0 ≤ year && year ≤ 9999 then padded 4 year.toNat
  else (if year < 0 then "-" else "+") ++ padded 4 year.natAbs

/-- A date as year, month and day with hyphens between them. -/
def Date.text (d : Date) : String :=
  yearText d.year ++ "-" ++ padded 2 d.month ++ "-" ++ padded 2 d.day

end BugReport.Calendar
