import BugReport.Field
import BugReport.Sql.Statement

/-!
# Selecting fields

The entries that a field adds to the select list of a statement. A field may fetch several columns;
each is fetched under a label of its own.
-/

namespace BugReport

open Sql (Item Piece Column)

/-- Which name of a person is shown. -/
inductive PersonName where
  | login
  | real
  deriving DecidableEq, Repr

/-- The column that holds a name of a person. -/
def PersonName.column : PersonName → String
  | login => "login_name"
  | real => "realname"

/-- The end of the labels under which the flags hold a name of a person. -/
def PersonName.suffix : PersonName → String
  | login => "login"
  | real => "realname"

namespace Field

/-- The values that a dependency fetches about the other bug. -/
def dependencyItems (tab label : String) : List Item :=
  [.ofColumn tab label label,
   .ofColumn tab (label ++ "alias") (label ++ "alias"),
   .ofColumn tab (label ++ "summary") (label ++ "summary"),
   .ofColumn tab (label ++ "status") (label ++ "status"),
   .ofColumn tab (label ++ "priority") (label ++ "priority"),
   .ofColumn tab "realname" (label ++ "to")]

/-- The names of the keywords of a bug in one text. -/
def keywordList : List Piece :=
  [.text "(SELECT GROUP_CONCAT(", .column (.of "keyworddefs" "name"), .text ") FROM ",
    .source .keyworddefs "keyworddefs", .text " WHERE ", .column (.of "keyworddefs" "id"),
    .text " IN (SELECT ", .column (.of "keywords" "keywordid"), .text " FROM ",
    .source .keywords "keywords", .text " WHERE "] ++
    Sql.equation (.of "keywords" "bug_id") (.of "bugs" "bug_id") ++ [.text "))"]

/-- A column of the bugs under a label. -/
def bugColumn (name label : String) : Item :=
  .labelled [.column (.bare name)] label

/-- The entries of a field. The id of the bugs is no field's: every statement starts with it. -/
def items (person : PersonName) : Field → List Item
  | id => []
  | nickname => [.ofColumn "aliases" "alias" "alias"]
  | assigned => [.ofColumn "assignedactivity" "bug_when" "assigned"]
  | attachments => [.ofColumn "attachments" "nattachments" "attachments"]
  | blocks => dependencyItems "blockstab" "blocks"
  | cc => [.ofColumn "ccprofiles" person.column "cc"]
  | closed => [.ofColumn "closedactivity" "bug_when" "closed"]
  | component => [.ofColumn "components" "name" "component"]
  | created => [bugColumn "creation_ts" "created"]
  | deadline => [.plain "deadline"]
  | depends => dependencyItems "dependstab" "depends"
  | flag =>
    [.ofColumn "flagprofiles" ("flagfrom_" ++ person.suffix) "flagfrom",
     .ofColumn "flagprofiles" ("flag_" ++ person.suffix) "flag",
     .ofColumn "flagprofiles" "flagname" "flagname",
     .ofColumn "flagprofiles" "flagdate" "flagdate"]
  | quickflag => [.ofColumn "quickflag" "flagdate" "flagdate"]
  | estimated => [bugColumn "estimated_time" "estimated"]
  | reporter => [.ofColumn "reporterprofiles" person.column "raisedby"]
  | hardware => [bugColumn "rep_platform" "hardware"]
  | keywords => [.labelled keywordList "keywords"]
  | milestone => [bugColumn "target_milestone" "milestone"]
  | lastcomment => [.ofColumn "longdescslastcomment" "thetext" "thetext"]
  | modified => [bugColumn "lastdiffed" "modified"]
  | os => [bugColumn "op_sys" "os"]
  | priority => [.plain "priority"]
  | product => [.ofColumn "products" "name" "product"]
  | qa => [.ofColumn "qaprofiles" person.column "qa"]
  | remaining => [bugColumn "remaining_time" "remaining"]
  | reopened => [.ofColumn "reopenedactivity" "bug_when" "reopened"]
  | resolution => [.plain "resolution"]
  | resolved => [.ofColumn "resolvedactivity" "bug_when" "resolved"]
  | severity => [bugColumn "bug_severity" "severity"]
  | status => [bugColumn "bug_status" "status"]
  | summary => [bugColumn "short_desc" "summary"]
  | assignee => [.ofColumn "profiles" person.column "assignedto"]
  | url => [bugColumn "bug_file_loc" "url"]
  | verified => [.ofColumn "verifiedactivity" "bug_when" "verified"]
  | version => [.plain "version"]
  | votes => [.plain "votes"]
  | whiteboard => [.plain "status_whiteboard"]
  | work => [.labelled [.text "SUM(", .column (.of "longdescswork" "work_time"), .text ")"] "work"]

end Field

namespace FieldSet

/-- Whether a statement selects a field: the required ones, and always priority and severity. The
short form of the flags gives way to the full one. -/
def selects (required : FieldSet) (f : Field) : Bool :=
  match f with
  | .priority => true
  | .severity => true
  | .quickflag => required.contains .quickflag && ! required.contains .flag
  | f => required.contains f

/-- The entries of all fields that a statement selects. -/
def items (required : FieldSet) (person : PersonName) : List Item :=
  (Field.all.filter required.selects).flatMap (Field.items person)

end FieldSet

end BugReport
