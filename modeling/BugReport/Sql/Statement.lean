import BugReport.Sql.Piece
import BugReport.Parameter.Store

/-!
# Statements

The statement of a report as data: what it selects, which tables it joins, which conditions the rows
meet and how they are ordered. Writing it gives the pieces of its text.
-/

namespace BugReport.Sql

/-! ## Selected items -/

/-- An entry of a select list. -/
inductive Item where
  /-- A column under its own name. -/
  | plain (name : String)
  /-- An expression under a label. -/
  | labelled (expression : List Piece) (label : String)
  deriving DecidableEq

namespace Item

/-- A column of an owner under a label. -/
def ofColumn (owner name label : String) : Item :=
  .labelled [.column (.of owner name)] label

/-- The label under which an entry is fetched. -/
def label : Item → String
  | plain name => name
  | labelled _ label => label

def pieces : Item → List Piece
  | plain name => [.column (.bare name)]
  | labelled expression label => expression ++ [.text " AS ", .text label]

end Item

/-! ## Joins -/

/-- How a source is joined. -/
inductive JoinKind where
  | left
  | inner
  /-- After a comma; what ties it to the other sources is said in the conditions. -/
  | cross
  deriving DecidableEq, Repr

/-- What can be joined. -/
inductive Source where
  | table (t : Table) (correlation : String)
  /-- A derived table: its select list, the rest of its text, and its correlation name. -/
  | derived (items : List Item) (body : List Piece) (correlation : String)
  deriving DecidableEq

namespace Source

/-- The correlation name that a source introduces. -/
def correlation : Source → String
  | table _ correlation => correlation
  | derived _ _ correlation => correlation

def pieces : Source → List Piece
  | table t correlation => [.source t correlation]
  | derived items body correlation =>
    .text "(SELECT " :: separated ", " (items.map Item.pieces) ++ body ++ [.text ") AS ", .text correlation]

end Source

/-- A joined source with the condition that ties it to the sources before it. -/
structure Join where
  kind : JoinKind
  source : Source
  condition : List Piece
  deriving DecidableEq

def Join.pieces (j : Join) : List Piece :=
  match j.kind with
  | .left => .text " LEFT JOIN " :: j.source.pieces ++ .text " ON " :: j.condition
  | .inner => .text " INNER JOIN " :: j.source.pieces ++ .text " ON " :: j.condition
  | .cross => .text ", " :: j.source.pieces

def equation (a b : Column) : List Piece :=
  [.column a, .text "=", .column b]

/-! ## Conditions -/

/-- The operator of a comparison with a bound value. -/
inductive Operator where
  | eq | ne | lt | gt | le | ge | like | notLike
  deriving DecidableEq, Repr

/-- Writes an operator with the blanks around it. -/
def Operator.text : Operator → String
  | eq => "="
  | ne => "<>"
  | lt => " < "
  | gt => " > "
  | le => " <= "
  | ge => " >= "
  | like => " LIKE "
  | notLike => " NOT LIKE "

/-- A comparison of a column with the value of a slot. -/
structure Comparison where
  operator : Operator
  slot : Nat
  deriving DecidableEq, Repr

/-- A condition on one column. -/
inductive Condition where
  | isNull
  | isNotNull
  /-- Greater than zero. -/
  | isPositive
  | single (c : Comparison)
  | any (cs : List Comparison)
  | all (cs : List Comparison)
  deriving DecidableEq, Repr

def Comparison.pieces (column : Column) (c : Comparison) : List Piece :=
  [.column column, .text c.operator.text, .slot c.slot]

namespace Condition

/-- Writes a condition after the conditions before it. -/
def pieces (column : Column) : Condition → List Piece
  | isNull => [.text " AND ", .column column, .text " IS NULL"]
  | isNotNull => [.text " AND ", .column column, .text " IS NOT NULL"]
  | isPositive => [.text " AND ", .column column, .text " > 0"]
  | single c => .text " AND " :: c.pieces column
  | any cs => .text " AND (" :: separated " OR " (cs.map (·.pieces column)) ++ [.text ")"]
  | all cs => .text " AND (" :: separated " AND " (cs.map (·.pieces column)) ++ [.text ")"]

def listPieces (column : Column) (cs : List Condition) : List Piece :=
  cs.flatMap (pieces column)

end Condition

/-- An entry of the conditions on the rows. -/
inductive Clause where
  /-- A condition on a column of the statement. -/
  | column (column : Column) (condition : Condition)
  /-- A bug has a keyword whose name meets the conditions. -/
  | keyword (conditions : List Condition)
  deriving DecidableEq

def Clause.pieces : Clause → List Piece
  | .column c condition => condition.pieces c
  | .keyword conditions =>
    [.text " AND EXISTS (SELECT ", .column (.of "keywords" "keywordid"), .text " FROM ",
      .source .keywords "keywords", .text " LEFT JOIN ", .source .keyworddefs "keyworddefs",
      .text " ON "] ++ equation (.of "keywords" "keywordid") (.of "keyworddefs" "id") ++
    .text " WHERE " :: equation (.of "keywords" "bug_id") (.of "bugs" "bug_id") ++
    Condition.listPieces (.of "keyworddefs" "name") conditions ++ [.text ")"]

/-! ## Order -/

/-- An entry of the order, with a direction of its own if it has one. -/
structure OrderKey where
  expression : List Piece
  direction : Option Direction
  deriving DecidableEq

def OrderKey.pieces (k : OrderKey) : List Piece :=
  k.expression ++ match k.direction with
    | some d => [.text " ", .text d.keyword]
    | none => []

/-! ## The statement -/

/-- The statement of a report. -/
structure Statement where
  /-- Whether the rows are counted and not listed. -/
  counted : Bool
  items : List Item
  joins : List Join
  clauses : List Clause
  /-- Whether the rows are tied to comments and grouped by bug, to sum up the work. -/
  summed : Bool
  order : List OrderKey
  /-- The direction behind the last entry of the order. -/
  direction : Direction
  deriving DecidableEq

namespace Statement

/-- The sources of a statement: the bugs and what is joined to them. -/
def sources (s : Statement) : List Source :=
  .table .bugs "bugs" :: s.joins.map Join.source

/-- The labels under which a statement fetches its columns. -/
def labels (s : Statement) : List String :=
  s.items.map Item.label

/-- Writes the part that ties the comments to the bugs and groups the rows. -/
def summedPieces (summed : Bool) : List Piece :=
  if summed then
    .text " AND " :: equation (.of "longdescswork" "bug_id") (.of "bugs" "bug_id") ++
      [.text " GROUP BY ", .column (.of "bugs" "bug_id")]
  else []

def orderPieces (s : Statement) : List Piece :=
  .text " ORDER BY " :: separated "," (s.order.map OrderKey.pieces) ++
    [.text " ", .text s.direction.keyword]

/-- Writes the list of rows, without a final sign. -/
def listPieces (s : Statement) : List Piece :=
  .text "SELECT DISTINCT " :: separated ", " (s.items.map Item.pieces) ++
    [.text " FROM ", .source .bugs "bugs"] ++ s.joins.flatMap Join.pieces ++
    .text " WHERE 1=1" :: s.clauses.flatMap Clause.pieces ++ summedPieces s.summed ++ s.orderPieces

def pieces (s : Statement) : List Piece :=
  if s.counted then
    .text "SELECT COUNT(DISTINCT(id)) AS count FROM (" :: s.listPieces ++ [.text ") AS b", .text ";"]
  else s.listPieces ++ [.text ";"]

def text (naming : Naming) (s : Statement) : String :=
  write naming s.pieces

end Statement

end BugReport.Sql
