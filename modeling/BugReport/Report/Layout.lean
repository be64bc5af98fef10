import BugReport.Report.Document
import BugReport.Report.Markdown
import BugReport.Report.PlainText

/-!
# Layouts of reports

The ways in which a finished report can be written.
-/

namespace BugReport

/-- The layouts. -/
inductive Layout where
  | table
  | markdown
  | json
  deriving DecidableEq, Repr

def Layout.ofName? : String → Option Layout
  | "table" => some .table
  | "markdown" => some .markdown
  | "json" => some .json
  | _ => none

def ReportOutput.write (o : ReportOutput) : Layout → String
  | .table => o.plainText
  | .markdown => o.markdown
  | .json => o.document

end BugReport
