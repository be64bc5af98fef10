import BugReport.Calendar.Date
import BugReport.Text.Blank
import BugReport.Text.Digits
import BugReport.Text.Split

/-!
# Instants and timestamps

Reports are made at an instant, a whole number of seconds since the start of 1970. Bug databases hold
timestamps as text, with or without a time of day; reading one gives a day, a second of that day, and
whether it is the inserted second of a leap second.
-/

namespace BugReport.Calendar

open Text (trim trimLeft digitsValue takeChar?)

/-- A second of a day. A leap second carries the number of the second before it. -/
structure Timestamp where
  day : Int
  second : Nat
  leap : Bool
  deriving DecidableEq, Repr, Inhabited

def Timestamp.ofInstant (seconds : Int) : Timestamp :=
  ⟨seconds / 86400, (seconds % 86400).toNat, false⟩

def Timestamp.date (t : Timestamp) : Date :=
  Date.ofDayNumber t.day

/-- Whether a timestamp comes before another one. -/
def Timestamp.before (a b : Timestamp) : Bool :=
  a.day < b.day || (a.day == b.day && (a.second < b.second ||
    (a.second == b.second && (! a.leap && b.leap))))

/-- The seconds from a timestamp to one that is no leap second. A leap second counts on the side of
the minute in which it was inserted. -/
def Timestamp.secondsUntil (a b : Timestamp) : Int :=
  let plain := (b.day - a.day) * 86400 + ((b.second : Int) - a.second)
  if a.leap && b.second ≤ a.second then plain - 1 else plain

/-! ## Reading -/

/-- Takes the digits at the start, at most `limit` of them if there is a limit, and their value.
There has to be one digit at least. -/
def digits? (limit : Option Nat) (cs : List Char) : Option (Nat × List Char) :=
  let ds := cs.takeWhile Char.isDigit
  let ds := match limit with
    | some n => ds.take n
    | none => ds
  if ds.isEmpty then none
  else some (digitsValue ds, cs.drop ds.length)

/-- A year: four digits at most, or a sign and any number of digits. Blanks may come first. -/
def year? (cs : List Char) : Option (Int × List Char) :=
  match trimLeft cs with
  | '-' :: cs => (digits? none cs).map fun (n, cs) => (-(n : Int), cs)
  | '+' :: cs => (digits? none cs).map fun (n, cs) => ((n : Int), cs)
  | cs => (digits? (some 4) cs).map fun (n, cs) => ((n : Int), cs)

/-- A part of a date or time of at most two digits, within bounds. Blanks may come first. -/
def part? (low high : Nat) (cs : List Char) : Option (Nat × List Char) := do
  let (n, cs) ← digits? (some 2) (trimLeft cs)
  if low ≤ n && n ≤ high then some (n, cs) else none

/-- Year, month and day with hyphens between them. -/
def date? (cs : List Char) : Option (Date × List Char) := do
  let (year, cs) ← year? cs
  let cs ← takeChar? '-' cs
  let (month, cs) ← part? 1 12 cs
  let cs ← takeChar? '-' cs
  let (day, cs) ← part? 1 31 cs
  let date := Date.mk year month day
  if date.isValid then some (date, cs) else none

/-- Hour, minute and second with colons between them: the second of the day, and whether it is a
leap second, which is written as second 60. -/
def time? (cs : List Char) : Option ((Nat × Bool) × List Char) := do
  let (hour, cs) ← part? 0 23 cs
  let cs ← takeChar? ':' cs
  let (minute, cs) ← part? 0 59 cs
  let cs ← takeChar? ':' cs
  let (second, cs) ← part? 0 60 cs
  let minutes := 60 * hour + minute
  some ((60 * minutes + min second 59, second == 60), cs)

/-- What stands between a date and a time: the letter `T`, or blanks, which may be missing. -/
def gap (cs : List Char) : List Char :=
  match cs with
  | 'T' :: rest => rest
  | _ => trimLeft cs

/-- Reads a timestamp, or a date as its first second. Blanks at the ends do not count; anything else
that is left over makes the text unreadable. -/
def Timestamp.read? (s : String) : Option Timestamp := do
  let (date, rest) ← date? (trim s.toList)
  if rest.isEmpty then some ⟨date.dayNumber, 0, false⟩
  else
    let ((second, leap), rest) ← time? (gap rest)
    if rest.isEmpty then some ⟨date.dayNumber, second, leap⟩ else none

end BugReport.Calendar
