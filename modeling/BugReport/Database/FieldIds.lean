import BugReport.Database.Connector
import BugReport.Entries

/-!
# Numbers of database fields

The activity log names fields by numbers. The table of these numbers is fetched once and kept for the
reports that follow; when fetching it fails, the next report tries again.
-/

namespace BugReport

/-- The numbers of fields by their names. -/
abbrev FieldIds := List (String × Int)

namespace FieldIds

/-- The statement that fetches the numbers. -/
def statement (tableName : String → String) : String :=
  "SELECT id, name FROM " ++ tableName "fielddefs"

/-- The name and the number in a row. Rows without an integer of 64 bits and a text have none. -/
def ofRow? (row : Row) : Option (String × Int) := do
  let id ← (row.lookup "id").bind Cell.int64?
  let name ← (row.lookup "name").bind Cell.text?
  return (name, id)

/-- The numbers in rows. Of several rows for a name the last one counts. -/
def ofRows (rows : List Row) : FieldIds :=
  (rows.filterMap ofRow?).foldl (fun ids (name, id) => putEntry ids name id) []

end FieldIds

/-- The numbers that are kept, if they have been fetched. -/
abbrev FieldIdCache := Option FieldIds

end BugReport
