import BugReport.Report.Output

/-!
# Reports as Markdown

A table is written with a header, also when its headings are hidden. Bars inside of cells and comments
are escaped, because links hold them.
-/

namespace BugReport

namespace Table

def escapeBars (s : String) : String :=
  Text.substitute '|' "\\|" s

def markdownLine (cells : List String) : String :=
  "| " ++ String.intercalate " | " cells ++ " |\n"

/-- Writes a line whose first cell is followed by empty ones. -/
def markdownSpan (columns : Nat) (first : String) : String :=
  "| " ++ first ++ " |" ++ Text.repeated (columns - 1) " |" ++ "\n"

/-- Writes a row of a table with some columns. -/
def markdownRow (columns : Nat) : TableRow → String
  | .group heading => markdownSpan columns ("**" ++ heading ++ "**")
  | .bug _ cells comment =>
    markdownLine (cells.map escapeBars) ++ match comment with
      | some comment => markdownSpan columns ("*" ++ escapeBars comment ++ "*")
      | none => ""

def markdown (t : Table) : String :=
  let title := match t.title with
    | some title => "### " ++ title ++ "\n\n"
    | none => ""
  if t.rows.isEmpty && t.totals.isNone then title ++ "*No results*\n"
  else
    let headings := t.headings.getD (t.columns.map fun _ => " ")
    String.join [
      title,
      markdownLine headings,
      markdownLine (headings.map fun _ => "---"),
      String.join (t.rows.map (markdownRow t.columns.length)),
      match t.totals with
        | some totals => markdownLine (totals.map fun total => "**" ++ total ++ "**")
        | none => "",
      match t.bars with
        | some bars =>
          "\n" ++ String.join (bars.map fun b => "- " ++ b.value ++ ": " ++ toString b.count ++ "\n")
        | none => ""]

end Table

def ReportOutput.markdown (o : ReportOutput) : String :=
  String.join [
    match o.body with
      | .count n => "**" ++ toString n ++ "**\n"
      | .noResults message => "*" ++ message ++ "*\n"
      | .table t => t.markdown,
    match o.searchAddress with
      | some address => "\n[Search](" ++ address ++ ")\n"
      | none => "",
    if o.warnings.isEmpty then ""
    else "\n" ++ String.join (o.warnings.map fun w => "> " ++ w.message ++ "\n"),
    if o.debug.isSome then "\n```sql\n" ++ o.sql ++ "\n```\n" else ""]

end BugReport
