import BugReport.Report.Output
import BugReport.Text.Json

/-!
# Reports as JSON

A report as one JSON object. Parts that a report does not have are left out, except for hidden
headings, which are null.
-/

namespace BugReport

def Warning.toJson (w : Warning) : JsonValue :=
  .object [("kind", .text w.kind.name), ("message", .text w.message)]

def TableRow.toJson : TableRow → JsonValue
  | .group heading => .object [("kind", .text "group"), ("heading", .text heading)]
  | .bug styleClass cells comment =>
    .object ([("kind", .text "bug"), ("class", .text styleClass), ("cells", .texts cells)] ++
      JsonValue.optional "comment" (comment.map .text))

def BarEntry.toJson (b : BarEntry) : JsonValue :=
  .object [("value", .text b.value), ("count", .integer b.count)]

def Table.toJson (t : Table) : JsonValue :=
  .object <|
    JsonValue.optional "title" (t.title.map .text) ++
    [("columns", .texts t.columns),
     ("headings", match t.headings with
        | some headings => .texts headings
        | none => .null),
     ("rows", .array (t.rows.map TableRow.toJson))] ++
    JsonValue.optional "totals" (t.totals.map .texts) ++
    JsonValue.optional "bars" (t.bars.map fun bars => .array (bars.map BarEntry.toJson)) ++
    [("sortable", .bool t.sortable), ("truncated", .bool t.truncated)]

/-- A result as JSON: its type and its value. -/
def ReportBody.toJson : ReportBody → JsonValue
  | .count n => .object [("type", .text "count"), ("value", .integer n)]
  | .noResults message => .object [("type", .text "no_results"), ("value", .text message)]
  | .table t => .object [("type", .text "table"), ("value", t.toJson)]

def ReportOutput.toJson (o : ReportOutput) : JsonValue :=
  .object <|
    [("body", o.body.toJson), ("sql", .text o.sql)] ++
    JsonValue.optional "search_url" (o.searchAddress.map .text) ++
    [("diagnostics", .array (o.warnings.map Warning.toJson))] ++
    JsonValue.optional "debug" (o.debug.map fun n => .integer n)

/-- Writes a report as JSON. -/
def ReportOutput.document (o : ReportOutput) : String :=
  o.toJson.pretty

end BugReport
