import BugReport.Calendar.Timestamp

/-!
# Ages and due dates

Two ways of showing a time in relation to the present. A radar label says in which stretch of the
calendar the time lies, from overdue to years away; an age mark says how many hours, days or weeks it
is away, with a class for styling.
-/

namespace BugReport

open Calendar (Date Timestamp isoWeek)

/-! ## The radar -/

/-- The stretches of the calendar around the present, in order. -/
inductive Radar where
  | overdue | yesterday | today | tomorrow | thisWeek | nextWeek | thisMonth | nextMonth | thisYear
  | nextYear | yearsAway
  deriving DecidableEq, Repr

namespace Radar

def label : Radar → String
  | overdue => "overdue"
  | yesterday => "yesterday"
  | today => "today"
  | tomorrow => "tomorrow"
  | thisWeek => "this week"
  | nextWeek => "next week"
  | thisMonth => "this month"
  | nextMonth => "next month"
  | thisYear => "this year"
  | nextYear => "next year"
  | yearsAway => "years away"

def monthKey (d : Date) : Int × Nat :=
  (d.year, d.month)

/-- The date some months after a date; if there is none, the date itself. -/
def monthsAfter (d : Date) (count : Nat) : Date :=
  (d.addMonths? count).getD d

/-- The stretch in which a time lies, seen from an instant: the first that fits, from the day before
to the year after. -/
def of (now time : Timestamp) : Radar :=
  let date := time.date
  let present := now.date
  if time.day == now.day - 1 then yesterday
  else if time.before { now with day := now.day - 1 } then overdue
  else if time.day == now.day then today
  else if time.day == now.day + 1 then tomorrow
  else if isoWeek time.day == isoWeek now.day then thisWeek
  else if isoWeek time.day == isoWeek (now.day + 7) then nextWeek
  else if monthKey date == monthKey present then thisMonth
  else if monthKey date == monthKey (monthsAfter present 1) then nextMonth
  else if date.year == present.year then thisYear
  else if date.year == (monthsAfter present 12).year then nextYear
  else yearsAway

end Radar

/-! ## Age marks -/

/-- How a time is shown by its distance from the present: what is visible, what a pointer shows with
the date, and a class. -/
structure AgeMark where
  visible : String
  hint : String
  styleClass : String
  deriving DecidableEq, Repr

namespace AgeMark

/-- The mark for a time that is some seconds, more than none, in the past. -/
def past (seconds : Int) (date : String) : AgeMark :=
  if seconds < 3600 then ⟨"+++", "&lt; 1 hour", "date2"⟩
  else if seconds < 86400 then ⟨"++", "&lt; 1 day", "date3"⟩
  else if seconds < 172800 then ⟨"+", "&lt; 2 days", "date3"⟩
  else if seconds < 259200 then ⟨"-", "&lt; 3 days", "date3"⟩
  else if seconds < 345600 then ⟨".", "&lt; 4 days", "date3"⟩
  else if seconds < 604800 then ⟨"&nbsp;", "&lt; 1 week", "date4"⟩
  else if seconds < 1209600 then ⟨"&nbsp;", "&lt; 2 weeks", "date4"⟩
  else if seconds < 2592000 then ⟨"&nbsp;", "&lt; 1 month", "date5"⟩
  else if seconds < 31536000 then ⟨"&nbsp;", "&lt; 1 year", "date6"⟩
  else ⟨date, "", "date6"⟩

/-- The mark for a time that is some seconds ahead. -/
def ahead (seconds : Int) (date : String) : AgeMark :=
  if seconds < 60 then ⟨"&lt; 1 min to go", "", "date1"⟩
  else if seconds < 3600 then ⟨"&lt; 1 hr to go", "", "date2"⟩
  else if seconds < 86400 then ⟨"&lt; 1 day to go", "", "date3"⟩
  else if seconds < 604800 then ⟨"&lt; 1 week to go", "", "date4"⟩
  else if seconds < 2592000 then ⟨"&gt; 1 week to go", "", "date5"⟩
  else ⟨date, "", "date6"⟩

/-- The mark of a time, seen from an instant. -/
def of (now time : Timestamp) : AgeMark :=
  let seconds := time.secondsUntil now
  let date := time.date.text
  if 0 < seconds then past seconds date else ahead (-seconds) date

/-- Writes a mark, with the date in the hint. -/
def text (m : AgeMark) (date : String) : String :=
  let hint := if m.hint == "" then "(" ++ date ++ ")" else m.hint ++ " (" ++ date ++ ")"
  "<div class=\"" ++ m.styleClass ++ "\" title=\"" ++ hint ++ "\">" ++ m.visible ++ "</div>"

end AgeMark

end BugReport
