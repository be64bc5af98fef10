import BugReport.Expression.Match

/-!
# Search charts

The same filters as an address of the bug list: boolean charts of the search engine, in which the rows
of a chart are joined by AND and the positions in a row by OR. Each entry has a field, a type and a
value, all three marked with its row and its position.
-/

namespace BugReport

/-- One entry of a chart. -/
structure ChartEntry where
  row : Nat
  position : Nat
  field : String
  negated : Bool
  value : String
  deriving DecidableEq, Repr

def ChartEntry.mark (e : ChartEntry) : String :=
  "0-" ++ toString e.row ++ "-" ++ toString e.position

def ChartEntry.kind (e : ChartEntry) : String :=
  if e.negated then "notequals" else "equals"

def ChartEntry.text (e : ChartEntry) : String :=
  "&field" ++ e.mark ++ "=" ++ e.field ++ "&type" ++ e.mark ++ "=" ++ e.kind ++
    "&value" ++ e.mark ++ "=" ++ e.value

/-- A chart and the number of its rows. -/
structure Chart where
  entries : List ChartEntry := []
  rows : Nat := 0
  deriving DecidableEq, Repr

namespace Chart

/-- Whether a value has no place in a chart: the ones that start like a special value. -/
def isInexpressible (value : List Char) : Bool :=
  match value with
  | '+' :: _ => true
  | '-' :: _ => true
  | '*' :: _ => true
  | _ => false

/-- The list of values in a filter value, and whether they are negated. A value with a sign of
negation anywhere is negated as a whole. -/
def listOf (value : List Char) : List Char × Bool :=
  match value with
  | '!' :: '(' :: inner => (MatchExpr.dropClosing inner, true)
  | '!' :: rest => (rest, true)
  | cs => (cs, cs.contains '!')

/-- The entries for the values of one filter from a row on. Negated values take a row each; the
others share one row. -/
def entriesFor (row : Nat) (field : String) (negated : Bool) (values : List (List Char)) :
    List ChartEntry :=
  values.zipIdx.map fun (value, i) =>
    { row := if negated then row + i else row
      position := if negated then 0 else i
      field
      negated
      value := String.ofList value }

/-- Blanks as they are written in an address. -/
def escapeBlanks (cs : List Char) : List Char :=
  cs.flatMap fun c => if c == ' ' then ['%', '2', '0'] else [c]

/-- Adds the entries for one filter. -/
def append (chart : Chart) (field value : String) : Chart :=
  if isInexpressible value.toList then chart
  else
    let (list, negated) := listOf (escapeBlanks value.toList)
    let values := list.splitOn ','
    { entries := chart.entries ++ entriesFor chart.rows field negated values
      rows := chart.rows + if negated then values.length else 1 }

def query (chart : Chart) : String :=
  String.join (chart.entries.map ChartEntry.text)

/-- The address of the bug list on a server. -/
def address (chart : Chart) (server : String) : String :=
  server ++ "/buglist.cgi?" ++ chart.query

end Chart

end BugReport
