import BugReport.Report.Output

/-!
# Reports as plain text

A table is written in columns as wide as their widest heading, cell or total, with bars between them.
Groups, comments and the counts of bars have lines of their own.
-/

namespace BugReport

namespace Table

/-- The cells of the lines of bugs. -/
def cellLines (t : Table) : List (List String) :=
  t.rows.filterMap fun
    | .bug _ cells _ => some cells
    | .group _ => none

/-- Widens columns to hold a line of cells. There are no more columns than before. -/
def widen : List Nat → List String → List Nat
  | w :: ws, c :: cs => max w (Text.width c) :: widen ws cs
  | ws, _ => ws

def widths (t : Table) : List Nat :=
  let start := match t.headings with
    | some headings => headings.map Text.width
    | none => t.columns.map fun _ => 0
  (t.cellLines ++ t.totals.toList).foldl widen start

/-- Fills cells up to the widths of their columns. -/
def padCells : List Nat → List String → List String
  | w :: ws, c :: cs => Text.padRight w c :: padCells ws cs
  | [], cs => cs
  | _, [] => []

/-- Writes a line of cells, without blanks at its end. -/
def writeLine (widths : List Nat) (cells : List String) : String :=
  Text.trimmedRight (String.intercalate " | " (padCells widths cells)) ++ "\n"

/-- Writes the line under the headings. -/
def writeSeparator (widths : List Nat) : String :=
  String.intercalate "-+-" (widths.map fun w => Text.repeated w "-") ++ "\n"

def writeRow (widths : List Nat) : TableRow → String
  | .group heading => "[" ++ heading ++ "]\n"
  | .bug _ cells comment =>
    writeLine widths cells ++ match comment with
      | some comment => "    > " ++ comment ++ "\n"
      | none => ""

def writeBars (bars : List BarEntry) : String :=
  let width := (bars.map fun b => Text.width b.value).foldl max 0
  "\n" ++ String.join (bars.map fun b =>
    Text.padRight width b.value ++ " | " ++ Text.repeated b.count "#" ++ " " ++ toString b.count ++ "\n")

def plainText (t : Table) : String :=
  let widths := t.widths
  String.join [
    match t.title with
      | some title => title ++ "\n\n"
      | none => "",
    match t.headings with
      | some headings => writeLine widths headings ++ writeSeparator widths
      | none => "",
    if t.rows.isEmpty && t.totals.isNone then "(no results)\n" else "",
    String.join (t.rows.map (writeRow widths)),
    match t.totals with
      | some totals => writeSeparator widths ++ writeLine widths totals
      | none => "",
    if t.truncated then "...\n" else "",
    match t.bars with
      | some bars => writeBars bars
      | none => ""]

end Table

def ReportOutput.plainText (o : ReportOutput) : String :=
  String.join [
    match o.body with
      | .count n => toString n ++ "\n"
      | .noResults message => "(" ++ message ++ ")\n"
      | .table t => t.plainText,
    match o.searchAddress with
      | some address => "\nSearch: " ++ address ++ "\n"
      | none => "",
    String.join (o.warnings.map fun w => "warning: " ++ w.message ++ "\n"),
    if o.debug.isSome then "SQL = " ++ o.sql ++ "\n" else ""]

end BugReport
