import BugReport.Report.Cell
import BugReport.Sql.Value

/-!
# Connectors

What a report needs of a database: how its tables are called, whether a connection comes about, and
what its statements answer. Failures that end a report arise here.
-/

namespace BugReport

/-- A failure that ends a report. -/
inductive ReportError where
  | connectionFailed (reason : String)
  /-- A statement failed, with what the database says about it. -/
  | queryFailed (sql message : String)
  deriving DecidableEq, Repr

/-- The wording of a failure. -/
def ReportError.message : ReportError → String
  | connectionFailed reason => "unable to connect to the bug database: " ++ reason
  | queryFailed sql message => "query failed: " ++ message ++ " [SQL: " ++ sql ++ "]"

/-- A database. -/
structure Connector where
  tableName : String → String := id
  connect : Except ReportError Unit
  execute : String → List Sql.Value → Except ReportError (List Row)

/-- The names of tables in a schema. An empty schema is none. -/
def qualifiedName (schema : Option String) (table : String) : String :=
  match schema.filter (· != "") with
  | some s => s ++ "." ++ table
  | none => table

/-! ## Databases in files -/

/-- A database in a file, which may be attached under the name of a schema. -/
structure FileDatabase where
  path : String
  schema : Option String := none
  deriving DecidableEq, Repr

namespace FileDatabase

def tableName (d : FileDatabase) (table : String) : String :=
  qualifiedName d.schema table

/-- The schema under which the file has to be attached, if it is not the file's own. -/
def attached? (d : FileDatabase) : Option String :=
  d.schema.filter fun s => s != "" && s != "main"

/-- Whether a schema can be named in a statement. -/
def isSchemaName (schema : String) : Bool :=
  schema.toList.all fun c => c.isAlphanum || c == '_'

/-- What stands against opening a database before its file is read: there is no file, or its schema
cannot be named. -/
def obstacle? (d : FileDatabase) (pathExists : Bool) : Option ReportError :=
  if ! pathExists then some (.connectionFailed ("database not found: " ++ d.path))
  else match d.attached?.filter fun s => ! isSchemaName s with
    | some schema => some (.connectionFailed ("invalid schema name '" ++ schema ++ "'"))
    | none => none

end FileDatabase

end BugReport
