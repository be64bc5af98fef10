import BugReport.Query.Compile
import BugReport.Report.Format

/-!
# Report tables

The table that a compiled request makes of the rows it fetched: a line for each bug up to the row
limit, a heading wherever the value of the group changes, totals over the lines, and a count of rows
for each value of the bar column. The bars have a limit of their own. All of this is gathered while
the rows are read once, in their order.
-/

namespace BugReport

/-- A line of a table. -/
inductive TableRow where
  /-- Stands before the first line of a new group value. -/
  | group (heading : String)
  /-- A bug: a class for styling, a cell for each column, and the latest comment if it is shown. -/
  | bug (styleClass : String) (cells : List String) (comment : Option String)
  deriving DecidableEq, Repr

/-- The number of rows with a value of the bar column. -/
structure BarEntry where
  value : String
  count : Nat
  deriving DecidableEq, Repr

/-- A table, ready to be written. -/
structure Table where
  title : Option String := none
  columns : List String
  /-- Missing when the headings are hidden. -/
  headings : Option (List String) := none
  rows : List TableRow
  totals : Option (List String) := none
  bars : Option (List BarEntry) := none
  sortable : Bool := false
  /-- Whether there were more rows than the limit admits. -/
  truncated : Bool := false
  deriving DecidableEq, Repr

/-- What a table is made with. -/
structure Renderer where
  store : Store
  settings : Settings
  query : Query
  now : Int

namespace Renderer

/-- How values are written. -/
def formatter (r : Renderer) : Formatter :=
  { store := r.store, settings := r.settings, overrides := r.query.formats, now := r.now }

/-! ## Limits -/

/-- The greatest number that a limit can be. -/
def greatestLimit : Nat := 18446744073709551615

/-- The limit that a parameter asks for, as long as the settings admit it. What is asked for is a row of digits:
a number may have a plus in front of them, too, but the policy of the two parameters admits no sign. -/
def limit (r : Renderer) (parameter : String) (configured : Nat) : Nat × List Diagnostic :=
  match r.store.present? parameter with
  | none => (configured, [])
  | some value =>
    match (Text.natural? value).filter (· ≤ greatestLimit) with
    | none => (configured, [.limitNotNumeric parameter value])
    | some requested =>
      if configured < requested then (configured, [.limitTooHigh parameter requested configured])
      else (requested, [])

/-- The limit on the lines of the table. -/
def maxRows (r : Renderer) : Nat × List Diagnostic :=
  r.limit "maxrows" r.settings.maxRows

/-- The limit on the rows counted in bars. -/
def maxRowsBar (r : Renderer) : Nat × List Diagnostic :=
  r.limit "maxrowsbar" r.settings.maxRowsBar

/-! ## Lines -/

def valueOf (row : Row) (column : String) : String :=
  row.textAt (Catalog.resultKey column)

/-- The column by which the lines are grouped: the first word of the group's first entry. -/
def groupColumn? (r : Renderer) : Option String :=
  r.store.group?.bind fun group => (Text.parts ',' group).head?.bind Text.firstWord?

def cell (r : Renderer) (row : Row) (column : String) : String × List Diagnostic :=
  r.formatter.writeColumn (valueOf row column) column (Formatter.cellTitle row column)

/-- The latest comment of a row, if comments are shown and the row has one. -/
def comment? (r : Renderer) (row : Row) : Option String :=
  (r.store.present? "lastcomment").bind fun _ => (row.lookup "thetext").map Cell.toText

def bugRow (r : Renderer) (row : Row) : TableRow × List Diagnostic :=
  let cells := r.query.columns.map (r.cell row)
  (.bug (row.textAt "priority" ++ " " ++ row.textAt "severity") (cells.map Prod.fst) (r.comment? row),
    cells.flatMap Prod.snd)

/-! ## Totals and bars -/

/-- The columns of a total, as often as they are named. -/
def totalColumns? (r : Renderer) : Option (List String) :=
  (r.store.present? "total").map (Text.parts ',')

/-- The number that a cell adds to a total; what is no number adds nothing. -/
def addend (row : Row) (column : String) : Binary64 :=
  (Binary64.read? (valueOf row column)).getD .zero

def writeTotal (r : Renderer) (total : Binary64) : String :=
  if total.isZero then "0" else r.formatter.write .number total.plainText ""

/-- The totals under the columns: the sums of those that have one. -/
def totals? (r : Renderer) (sums : List (String × Binary64)) : Option (List String) :=
  r.totalColumns?.map fun _ => r.query.columns.map fun column =>
    match sums.lookup column with
    | some sum => r.writeTotal sum
    | none => ""

/-- Counts a value: in its entry, or in a new one at the end. -/
def countValue (bars : List BarEntry) (value : String) : List BarEntry :=
  if bars.any (·.value == value) then
    bars.map fun b => if b.value == value then { b with count := b.count + 1 } else b
  else bars ++ [⟨value, 1⟩]

/-! ## Reading rows -/

/-- What the rows that were read so far come to. -/
structure Progress where
  /-- The number of rows, whether they have a line or not. -/
  count : Nat := 0
  lines : List TableRow := []
  /-- The value of the group in the latest line. -/
  group : Option String := none
  /-- A sum for each column of a total. -/
  sums : List (String × Binary64) := []
  bars : List BarEntry := []
  /-- Whether a row was left out of the lines. -/
  truncated : Bool := false
  diagnostics : List Diagnostic := []

/-- Counts a row in the bars, as long as their limit admits it. -/
def countRow (r : Renderer) (limit : Nat) (p : Progress) (row : Row) : Progress :=
  match r.store.present? "bar" with
  | none => p
  | some column =>
    if p.count < limit then
      let (value, problems) := r.formatter.writeHeading (valueOf row column) column
      { p with bars := countValue p.bars value, diagnostics := p.diagnostics ++ problems }
    else p

/-- Starts a group with its heading, if the value of the group in a row differs from that in the latest
line. -/
def headRow (r : Renderer) (p : Progress) (row : Row) : Progress :=
  match r.groupColumn? with
  | none => p
  | some column =>
    let value := valueOf row column
    if p.group == some value then p
    else
      let (heading, problems) := r.formatter.writeHeading value column
      { p with
        lines := p.lines ++ [.group heading]
        group := some value
        diagnostics := p.diagnostics ++ problems }

/-- Adds a cell of a row to the sum of its column. -/
def addCell (row : Row) (sums : List (String × Binary64)) (column : String) : List (String × Binary64) :=
  putEntry sums column (((sums.lookup column).getD .zero).add (addend row column))

/-- Adds the cells of a row to the sums and gives it a line. A column that is named more than once is added
as often. -/
def addRow (r : Renderer) (p : Progress) (row : Row) : Progress :=
  let (line, problems) := r.bugRow row
  { p with
    lines := p.lines ++ [line]
    sums := (r.totalColumns?.getD []).foldl (addCell row) p.sums
    diagnostics := p.diagnostics ++ problems }

/-- Reads one row. Behind the limit on the lines it counts in the bars only. -/
def readRow (r : Renderer) (rowLimit barLimit : Nat) (p : Progress) (row : Row) : Progress :=
  let counted := r.countRow barLimit p row
  let next := { counted with count := counted.count + 1 }
  if rowLimit ≤ counted.count then { next with truncated := true }
  else r.addRow (r.headRow next row) row

/-- The progress before the first row: every column of a total has a sum already. -/
def start (r : Renderer) (diagnostics : List Diagnostic) : Progress :=
  { sums := (r.totalColumns?.getD []).foldl (fun sums column => putEntry sums column .zero) []
    diagnostics }

/-- The progress behind all rows. -/
def progress (r : Renderer) (rows : List Row) : Progress :=
  let (rowLimit, problemOfRows) := r.maxRows
  let (barLimit, problemOfBars) := r.maxRowsBar
  rows.foldl (r.readRow rowLimit barLimit) (r.start (problemOfRows ++ problemOfBars))

/-! ## The table -/

/-- The heading of a column: the one given by the request, else that of the catalog, else its
name. -/
def heading (r : Renderer) (column : String) : String :=
  (r.query.titles.lookup column <|> Catalog.heading? column).getD column

/-- The table of rows, and what was wrong with them. -/
def render (r : Renderer) (rows : List Row) : Table × List Diagnostic :=
  let p := r.progress rows
  ({ title := r.store.present? "heading"
     columns := r.query.columns
     headings :=
       if r.store.get? "headers" == some "hide" then none else some (r.query.columns.map r.heading)
     rows := p.lines
     totals := r.totals? p.sums
     bars := (r.store.present? "bar").map fun _ => p.bars
     sortable := r.store.isOn "sortable"
     truncated := p.truncated },
   p.diagnostics)

end Renderer

end BugReport
