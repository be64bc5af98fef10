import BugReport.Report.Table

/-!
# Report output

What a finished report is, however it is written: a count, the message that nothing was found, or a
table, with the statement, the address of the same search, and what was wrong with the request.
-/

namespace BugReport

/-- The result of a report. -/
inductive ReportBody where
  | count (n : Int)
  | noResults (message : String)
  | table (t : Table)
  deriving DecidableEq, Repr

/-- A finished report. -/
structure ReportOutput where
  body : ReportBody
  /-- The statement with its values. -/
  sql : String := ""
  /-- The address of the same search, if it is shown. -/
  searchAddress : Option String := none
  warnings : List Warning := []
  /-- The debug level; at any level the statement is shown. -/
  debug : Option Nat := none
  deriving DecidableEq, Repr

end BugReport
