import BugReport.Diagnostic
import BugReport.Entries
import BugReport.Expression.Columns
import BugReport.Parameter.Store

/-!
# The selected columns

Which columns a report shows: the default list, edits of it by the caller, or a list of the caller's.
On the way a request adds and removes columns by itself; these implicit changes are kept apart, so
that an explicit edit wins over them. The list is settled when it is first asked for.
-/

namespace BugReport

/-- Puts a name at the end of a list that does not hold it. -/
def insertLast (names : List String) (name : String) : List String :=
  if names.contains name then names else names ++ [name]

/-- The columns added and removed implicitly, the titles given with columns, and the settled list. -/
structure ColumnSelection where
  added : List String := []
  removed : List String := []
  titles : List (String × String) := []
  settled : Option (List String) := none
  deriving DecidableEq, Repr

namespace ColumnSelection

/-- Adds a column implicitly. -/
def add (s : ColumnSelection) (column : String) : ColumnSelection :=
  { s with added := insertLast s.added column }

def remove (s : ColumnSelection) (column : String) : ColumnSelection :=
  { s with removed := insertLast s.removed column }

/-- Keeps the title of a column, if it has one. -/
def entitle (s : ColumnSelection) (c : ColumnRef) : ColumnSelection :=
  match c.title with
  | some title => { s with titles := putEntry s.titles c.name title }
  | none => s

/-- A base list with the implicit changes: additions at its end, without the removed columns. -/
def changed (s : ColumnSelection) (base : List String) : List String :=
  ((base ++ s.added).foldl insertLast []).filter fun c => ! s.removed.contains c

/-- The state of working through the edits of the caller. -/
structure Editing where
  selection : ColumnSelection
  /-- What is left of the default list. -/
  base : List String
  /-- The columns that the caller added. -/
  wanted : List String := []
  diagnostics : List Diagnostic := []
  deriving DecidableEq, Repr

/-- Applies one edit. Adding a column lifts its implicit removal; removing one takes it off the
default list and lifts its implicit addition, and is refused if the list does not hold it. -/
def Editing.apply (e : Editing) (edit : ColumnEdit) : Editing :=
  let selection := e.selection.entitle edit.column
  let name := edit.column.name
  match edit.op with
  | .add =>
    { e with
      selection := { selection with removed := selection.removed.filter (· != name) }
      wanted := e.wanted ++ [name] }
  | .remove =>
    if e.base.contains name then
      { e with
        selection := { selection with added := selection.added.filter (· != name) }
        base := e.base.erase name }
    else { e with selection, diagnostics := e.diagnostics ++ [.missingColumn name] }

def Editing.run (e : Editing) (edits : List ColumnEdit) : Editing :=
  edits.foldl apply e

/-- The list after the edits: the default list with the implicit changes, and then the columns that
the caller added. -/
def Editing.result (e : Editing) : List String :=
  e.wanted.foldl insertLast (e.selection.changed e.base)

/-- Works out the list for a default list and the value of the caller, which counts only if it is not
empty. -/
def compute (s : ColumnSelection) (defaults : List String) (explicit : Option String) :
    List String × ColumnSelection × List Diagnostic :=
  match explicit.filter (· != "") with
  | none => (s.changed defaults, s, [])
  | some value =>
    match ColumnsExpr.parse value with
    | .delta edits =>
      let e := Editing.run { selection := s, base := defaults } edits
      (e.result, { s with titles := e.selection.titles }, e.diagnostics)
    | .replace columns =>
      ((columns.map ColumnRef.name).foldl insertLast [], columns.foldl entitle s, [])

/-- The columns that a report shows by default. -/
def defaultColumns : List String :=
  (Text.parts ',' ((Parameter.default? "columns").getD "")).filter (· != "")

/-- The list for a request, the selection in which it is settled, and what was wrong with it. A
settled list is answered again as it is. -/
def settle (s : ColumnSelection) (store : Store) :
    List String × ColumnSelection × List Diagnostic :=
  match s.settled with
  | some columns => (columns, s, [])
  | none =>
    let (columns, s, diagnostics) := s.compute defaultColumns (store.explicit "columns")
    (columns, { s with settled := some columns }, diagnostics)

end ColumnSelection

end BugReport
