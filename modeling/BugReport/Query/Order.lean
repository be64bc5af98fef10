import BugReport.Column.Catalog
import BugReport.Diagnostic
import BugReport.Sql.Statement
import BugReport.Text.Blank

/-!
# Ordering rows

The order that a sort list asks for. An entry is a column and, behind a blank, a direction; entries
whose column cannot be written into a statement are refused.
-/

namespace BugReport

open Sql (OrderKey Identifier Column)

/-- The direction that a word in a sort list names, in either case. -/
def Direction.ofWord? (word : String) : Option Direction :=
  let cs := word.toList.map Char.toUpper
  if cs == "DESC".toList then some .desc
  else if cs == "ASC".toList then some .asc
  else none

namespace SortEntry

/-- The order of a column: by its expression in the catalog, or by its name. -/
def keyOf? (column : String) (direction : Option Direction) : Option OrderKey :=
  (Identifier.ofName? column).map fun i =>
    { expression := (Catalog.sortExpression? column).getD [.identifier i], direction }

/-- The order that one entry asks for. -/
def compile (entry : String) : Option OrderKey × List Diagnostic :=
  match Text.wordsOf entry with
  | [] => (none, [])
  | column :: rest =>
    match keyOf? column (rest.head?.bind Direction.ofWord?) with
    | none => (none, [.invalidSortColumn column])
    | some key =>
      match rest.head? with
      | some word => (some key, if (Direction.ofWord? word).isNone then [.unknownDirection word] else [])
      | none => (some key, [])

end SortEntry

/-- The order of bugs when no entry is left. -/
def defaultOrderKey : OrderKey :=
  { expression := [.column (.of "bugs" "bug_id")], direction := none }

/-- The order that a sort list asks for. -/
def compileOrder (sort : String) : List OrderKey × List Diagnostic :=
  let entries := (Text.parts ',' sort).map SortEntry.compile
  let keys := entries.filterMap Prod.fst
  (if keys.isEmpty then [defaultOrderKey] else keys, entries.flatMap Prod.snd)

/-- The columns that a sort list names, in order. -/
def sortColumns (sort : String) : List String :=
  (Text.parts ',' sort).filterMap Text.firstWord?

end BugReport
