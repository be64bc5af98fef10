import BugReport.Sql.Piece

/-!
# The column catalog

What is known about the columns of a report by their names: how they are headed and formatted, where
they are found in the database, and under which label and name the rows and the search engine have
them.
-/

namespace BugReport.Catalog

open Sql (Column Piece)

/-- The headings of the built-in columns. -/
def headings : List (String × String) :=
  [("alias", "Alias"),
   ("assigned", "Assigned"),
   ("attachments", "@"),
   ("blocks", "Blocks"),
   ("closed", "Closed"),
   ("component", "Component"),
   ("cc", "CC"),
   ("created", "Created"),
   ("deadline", "Deadline"),
   ("depends", "Depends"),
   ("estimated", "E"),
   ("flag", "Flagged For"),
   ("flagdate", "Flag Date"),
   ("flagfrom", "Flagged By"),
   ("flagname", "Flag"),
   ("from", "Requester"),
   ("hardware", "Hardware"),
   ("keywords", "Keywords"),
   ("id", "ID"),
   ("milestone", "Milestone"),
   ("modified", "Modified"),
   ("os", "OS"),
   ("product", "Product"),
   ("priority", "P"),
   ("qa", "QA"),
   ("remaining", "R"),
   ("reopened", "Reopened"),
   ("resolution", "Resolution"),
   ("resolved", "Resolved"),
   ("severity", "Severity"),
   ("status", "Status"),
   ("status_whiteboard", "Whiteboard"),
   ("summary", "Summary"),
   ("to", "Assignee"),
   ("url", "&nbsp;"),
   ("version", "Version"),
   ("verified", "Verified"),
   ("votes", "Votes"),
   ("work", "W")]

/-- The value formats of columns. -/
def formats : List (String × String) :=
  [("alias", "id"),
   ("assigned", "date"),
   ("blocks", "id"),
   ("cc", "name"),
   ("created", "date"),
   ("closed", "date"),
   ("deadline", "date"),
   ("depends", "id"),
   ("estimated", "number"),
   ("flagdate", "date"),
   ("flagfrom", "name"),
   ("from", "name"),
   ("id", "id"),
   ("modified", "relativedate"),
   ("qa", "name"),
   ("remaining", "number"),
   ("reopened", "date"),
   ("resolved", "date"),
   ("to", "name"),
   ("url", "url"),
   ("verified", "date"),
   ("votes", "number"),
   ("work", "number")]

/-- The places in the database of the fields that are not columns of their own name. -/
def places : List (String × Column) :=
  [("alias", .of "aliases" "alias"),
   ("assigned", .of "assignedactivity" "bug_when"),
   ("attachments", .of "attachments" "nattachments"),
   ("blocks", .of "blockstab" "blocks"),
   ("cc", .of "ccprofiles" "login_name"),
   ("component", .of "components" "name"),
   ("closed", .of "closedactivity" "bug_when"),
   ("created", .bare "creation_ts"),
   ("depends", .of "dependstab" "depends"),
   ("estimated", .bare "estimated_time"),
   ("hardware", .bare "rep_platform"),
   ("id", .of "bugs" "bug_id"),
   ("from", .of "reporterprofiles" "login_name"),
   ("keywords", .of "keyworddefs" "name"),
   ("milestone", .bare "target_milestone"),
   ("modified", .bare "lastdiffed"),
   ("product", .of "products" "name"),
   ("os", .bare "op_sys"),
   ("qa", .of "qaprofiles" "login_name"),
   ("remaining", .bare "remaining_time"),
   ("reopened", .of "reopenedactivity" "bug_when"),
   ("resolved", .of "resolvedactivity" "bug_when"),
   ("severity", .bare "bug_severity"),
   ("status", .bare "bug_status"),
   ("to", .of "profiles" "login_name"),
   ("url", .bare "bug_file_loc"),
   ("verified", .of "verifiedactivity" "bug_when"),
   ("work", .bare "work_time")]

/-- The names that the search engine has for fields. -/
def searchNames : List (String × String) :=
  [("blocks", "blocked"),
   ("hardware", "rep_platform"),
   ("id", "bug_id"),
   ("milestone", "target_milestone"),
   ("os", "op_sys"),
   ("qa", "qa_contact"),
   ("severity", "bug_severity"),
   ("status", "bug_status"),
   ("to", "assigned_to")]

/-- The directions of the fields whose filters bring an order of their own. -/
def defaultOrders : List (String × String) :=
  [("modified", "desc"), ("votes", "desc")]

/-- The fields that are not sorted by their place alone. -/
def sortExpressions : List (String × List Piece) :=
  [("deadline", [.text "COALESCE(", .column (.bare "deadline"), .text ", ", .literal "2100-01-01",
      .text ")"]),
   ("milestone", [.text "COALESCE(NULLIF(", .column (.bare "target_milestone"), .text ",",
      .literal "---", .text "),", .literal "XXXXX", .text ")"]),
   ("id", [.column (.of "bugs" "bug_id")])]

/-- The labels of the columns that are fetched under another name than their own. -/
def resultKeys : List (String × String) :=
  [("cc", "cc"), ("from", "raisedby"), ("to", "assignedto")]

/-- The labels of the values that make the title of a column's cells. -/
def titleKeys : List (String × List String) :=
  [("alias", ["id", "alias"]),
   ("blocks", ["blocks", "blocksalias"]),
   ("depends", ["depends", "dependsalias"]),
   ("id", ["id", "alias"])]

/-- The heading of a built-in column. -/
def heading? (column : String) : Option String :=
  headings.lookup column

def format? (column : String) : Option String :=
  formats.lookup column

/-- The place of a field in the database; by default a column of its name. -/
def place (field : String) : Column :=
  (places.lookup field).getD (.bare field)

/-- The name that the search engine has for a field; by default its own. -/
def searchName (field : String) : String :=
  (searchNames.lookup field).getD field

/-- The direction that comes with a filter on a field. -/
def defaultOrder? (field : String) : Option String :=
  defaultOrders.lookup field

/-- The expression that sorts by a column, if it is not the bare name. -/
def sortExpression? (column : String) : Option (List Piece) :=
  sortExpressions.lookup column <|> (places.lookup column).map fun c => [.column c]

/-- The label under which a column is fetched; by default its name. -/
def resultKey (column : String) : String :=
  (resultKeys.lookup column).getD column

/-- The labels of the values that make the title of a column's cells. -/
def titleKeys? (column : String) : Option (List String) :=
  titleKeys.lookup column

end BugReport.Catalog
