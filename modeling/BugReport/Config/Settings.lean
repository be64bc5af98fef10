/-!
# Settings of a report

What one report needs to know about its surroundings: the database, the server that links lead to, and
the limits on rows.
-/

namespace BugReport

/-- The settings of one report. -/
structure Settings where
  database : Option String := none
  schema : Option String := none
  /-- The root of the server that addresses and links lead to. -/
  server : String := ""
  /-- The name under which a wiki links to bugs. -/
  interwiki : Option String := none
  /-- Whether links are written in HTML. -/
  rawHtml : Bool := false
  /-- The greatest number of rows in a table. -/
  maxRows : Nat := 100
  /-- The greatest number of rows counted in bars. -/
  maxRowsBar : Nat := 500
  deriving DecidableEq, Repr, Inhabited

end BugReport
