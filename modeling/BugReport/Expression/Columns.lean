import BugReport.Text.Blank
import BugReport.Text.Split

/-!
# Column expressions

The values of the column list: a new list of columns, or edits of the default list when the first
character is a plus or a minus. A column may carry a title behind a colon.
-/

namespace BugReport

open Text (trim)

/-- A column with an optional title. -/
structure ColumnRef where
  name : String
  title : Option String
  deriving DecidableEq, Repr

/-- What an edit does with its column. -/
inductive ColumnOp where
  | add
  | remove
  deriving DecidableEq, Repr

/-- One edit of the default list. -/
structure ColumnEdit where
  op : ColumnOp
  column : ColumnRef
  deriving DecidableEq, Repr

/-- The value of the column list. -/
inductive ColumnsExpr where
  | delta (edits : List ColumnEdit)
  | replace (columns : List ColumnRef)
  deriving DecidableEq, Repr

namespace ColumnRef

/-- Reads an entry: the name up to a colon, trimmed, and the title up to the next colon. What follows
a second colon does not count. -/
def ofList (cs : List Char) : ColumnRef :=
  match cs.splitOn ':' with
  | name :: title :: _ => ⟨String.ofList (trim name), some (String.ofList title)⟩
  | _ => ⟨String.ofList (trim cs), none⟩

/-- Writes an entry. -/
def toList (c : ColumnRef) : List Char :=
  c.name.toList ++ match c.title with
    | some title => ':' :: title.toList
    | none => []

end ColumnRef

namespace ColumnOp

def sign : ColumnOp → Char
  | add => '+'
  | remove => '-'

/-- Cuts the sign off an entry, if it has one. -/
def take? : List Char → Option (ColumnOp × List Char)
  | '+' :: cs => some (.add, cs)
  | '-' :: cs => some (.remove, cs)
  | _ => none

end ColumnOp

namespace ColumnEdit

/-- Reads an entry of a list of edits. An entry without a sign does what the first sign of the whole
list says. -/
def ofList (default : ColumnOp) (cs : List Char) : ColumnEdit :=
  let (op, cs) := (ColumnOp.take? cs).getD (default, cs)
  ⟨op, .ofList cs⟩

def toList (e : ColumnEdit) : List Char :=
  e.op.sign :: e.column.toList

end ColumnEdit

namespace ColumnsExpr

/-- Reads a trimmed expression. Entries without a name are dropped. -/
def ofTrimmed (cs : List Char) : ColumnsExpr :=
  match ColumnOp.take? cs with
  | some (op, rest) =>
    .delta (((rest.splitOn ',').map (ColumnEdit.ofList op)).filter (·.column.name != ""))
  | none => .replace (((cs.splitOn ',').map ColumnRef.ofList).filter (·.name != ""))

/-- Reads an expression. Blanks at its ends do not count. -/
def parse (s : String) : ColumnsExpr :=
  ofTrimmed (trim s.toList)

def toList : ColumnsExpr → List Char
  | delta edits => [','].intercalate (edits.map ColumnEdit.toList)
  | replace columns => [','].intercalate (columns.map ColumnRef.toList)

end ColumnsExpr

end BugReport
