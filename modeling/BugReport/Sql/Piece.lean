import BugReport.Sql.Identifier

/-!
# Pieces of SQL text

A statement is written from pieces: fixed text, quoted literals, columns, tables and slots. The pieces
say what a part of the text is, so that a statement can be looked at without reading its text again.
How tables are called is left open until the text is written.
-/

namespace BugReport.Sql

/-- The tables of the bug database. -/
inductive Table where
  | attachments | bugs | bugsActivity | bugsAliases | cc | components | dependencies | fielddefs
  | flags | flagtypes | keyworddefs | keywords | longdescs | products | profiles
  deriving DecidableEq, Repr

def Table.name : Table → String
  | attachments => "attachments"
  | bugs => "bugs"
  | bugsActivity => "bugs_activity"
  | bugsAliases => "bugs_aliases"
  | cc => "cc"
  | components => "components"
  | dependencies => "dependencies"
  | fielddefs => "fielddefs"
  | flags => "flags"
  | flagtypes => "flagtypes"
  | keyworddefs => "keyworddefs"
  | keywords => "keywords"
  | longdescs => "longdescs"
  | products => "products"
  | profiles => "profiles"

/-- A column, alone or qualified by the table or the correlation name that owns it. -/
structure Column where
  owner : Option String
  name : String
  deriving DecidableEq, Repr

/-- A column written alone. -/
def Column.bare (name : String) : Column := ⟨none, name⟩

def Column.of (owner name : String) : Column := ⟨some owner, name⟩

def Column.text (c : Column) : String :=
  match c.owner with
  | some owner => owner ++ "." ++ c.name
  | none => c.name

/-- A piece of a statement. -/
inductive Piece where
  /-- Fixed words, signs and blanks. -/
  | text (s : String)
  /-- A fixed literal, written in quotes. -/
  | literal (s : String)
  | column (c : Column)
  /-- A name that the request brought in. -/
  | identifier (i : Identifier)
  /-- A table by its name. -/
  | table (t : Table)
  /-- A table with a correlation name, which it introduces. -/
  | source (t : Table) (correlation : String)
  /-- A value that is bound to the statement, by its number. -/
  | slot (n : Nat)
  /-- The number under which changes of the status are logged. -/
  | statusField
  deriving DecidableEq

/-- How the open parts of a statement are written: what tables are called, and the number of the
status field if it is known. -/
structure Naming where
  tableName : String → String
  statusField : Option Int := none

/-- Tables called by their own names, and no known number. -/
def Naming.plain : Naming := { tableName := id }

namespace Piece

/-- Writes a piece. Without a known number the status field is looked up by the statement itself. -/
def write (naming : Naming) : Piece → String
  | text s => s
  | literal s => "'" ++ s ++ "'"
  | column c => c.text
  | identifier i => i.text
  | table t => naming.tableName t.name
  | source t correlation => naming.tableName t.name ++ " AS " ++ correlation
  | slot n => "?" ++ toString n
  | statusField =>
    match naming.statusField with
    | some n => toString n
    | none => "(SELECT id FROM " ++ naming.tableName Table.fielddefs.name ++
        " WHERE name='bug_status')"

end Piece

/-- Writes pieces one after the other. -/
def write (naming : Naming) (pieces : List Piece) : String :=
  String.join (pieces.map (·.write naming))

theorem toList_write (naming : Naming) (pieces : List Piece) :
    (write naming pieces).toList = pieces.flatMap fun p => (p.write naming).toList := by
  simp [write, List.flatMap_map]

/-- Sets a separator between groups of pieces and joins them. -/
def separated (separator : String) (groups : List (List Piece)) : List Piece :=
  [Piece.text separator].intercalate groups

end BugReport.Sql
