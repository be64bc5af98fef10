import BugReport.Field
import BugReport.Filter.Restriction
import BugReport.Parameter.Store

/-!
# Joining fields

The sources that a field joins to the bugs. Copies, flags and dependencies are joined as derived
tables which are filtered inside, by a parameter of the request.
-/

namespace BugReport

open Sql (Item Piece Column Table Source Join Condition equation)

def bugKey : Column := .of "bugs" "bug_id"

namespace Field

/-- The fields that join something, in the order of their joins. -/
def joinOrder : List Field :=
  [assigned, attachments, blocks, component, cc, closed, depends, flag, quickflag, reporter,
    lastcomment, product, qa, reopened, resolved, assignee, verified, nickname, work]

/-- The column and the parameter that filter inside of a field's join. -/
def innerFilter? : Field → Option (Column × String)
  | cc => some (.of "profiles" "login_name", "cc")
  | flag => some (.of "flagsto" "login_name", "flag")
  | blocks => some (.of "blockedbugs" "bug_status", "dependsstatus")
  | depends => some (.of "dependsonbugs" "bug_status", "dependsstatus")
  | _ => none

/-- The restriction that a request puts inside of a field's join. -/
def innerRestriction (f : Field) (store : Store) (bound : Nat) : Restriction :=
  match f.innerFilter? with
  | some (_, parameter) =>
    match store.present? parameter with
    | some value => .ofMatch bound value
    | none => .none
  | none => .none

/-- Writes the conditions inside of a field's join. -/
def innerPieces (f : Field) (conditions : List Condition) : List Piece :=
  match f.innerFilter? with
  | some (column, _) => Condition.listPieces column conditions
  | none => []

/-- A table joined from the left by an equation. -/
def tableJoin (t : Table) (correlation : String) (a b : Column) : Join :=
  ⟨.left, .table t correlation, equation a b⟩

/-- A table of persons joined by a column of the bugs. -/
def personJoin (correlation column : String) : Join :=
  tableJoin .profiles correlation (.of "bugs" column) (.of correlation "userid")

/-- The latest change of the status to a value. -/
def transitionJoin (correlation status : String) : Join :=
  ⟨.left,
    .derived
      [.plain "bug_id", .labelled [.text "MAX(", .column (.bare "bug_when"), .text ")"] "bug_when"]
      [.text " FROM ", .table .bugsActivity, .text " WHERE ", .column (.bare "fieldid"), .text "=",
        .statusField, .text " AND ", .column (.bare "added"), .text "=", .literal status,
        .text " GROUP BY ", .column (.bare "bug_id")]
      correlation,
    equation bugKey (.of correlation "bug_id")⟩

/-- The bugs on the other side of a dependency. `near` and `far` are the columns of this and of the
other bug, `other` and `aliases` stand for the other bug and its aliases. -/
def dependencyJoin (tab other aliases near far label : String) (inner : List Piece) : Join :=
  ⟨.left,
    .derived
      [.ofColumn "dependencies" near near,
       .ofColumn "dependencies" far label,
       .ofColumn aliases "alias" (label ++ "alias"),
       .ofColumn other "short_desc" (label ++ "summary"),
       .ofColumn other "bug_status" (label ++ "status"),
       .ofColumn other "priority" (label ++ "priority"),
       .ofColumn "profiles" "login_name" "login_name",
       .ofColumn "profiles" "realname" "realname"]
      ([.text " FROM ", .source .dependencies "dependencies", .text " INNER JOIN ",
          .source .bugs other, .text " ON "] ++
        equation (.of "dependencies" far) (.of other "bug_id") ++
        [.text " LEFT JOIN ", .source .bugsAliases aliases, .text " ON "] ++
        equation (.of aliases "bug_id") (.of other "bug_id") ++
        [.text " INNER JOIN ", .source .profiles "profiles", .text " ON "] ++
        equation (.of other "assigned_to") (.of "profiles" "userid") ++
        .text " WHERE 1=1" :: inner ++
        [.text " ORDER BY ", .column (.of other "priority")])
      tab,
    equation (.of tab near) bugKey⟩

def attachmentsJoin : Join :=
  ⟨.left,
    .derived
      [.labelled [.column (.bare "bug_id")] "attachmentbugid",
       .labelled [.text "COUNT(", .column (.bare "attach_id"), .text ")"] "nattachments"]
      [.text " FROM ", .source .attachments "attachments", .text " GROUP BY ",
        .column (.bare "bug_id")]
      "attachments",
    equation (.of "attachments" "attachmentbugid") bugKey⟩

/-- The persons that get copies. -/
def copiesJoin (inner : List Piece) : Join :=
  ⟨.inner,
    .derived
      [.ofColumn "cc" "bug_id" "bug_id",
       .ofColumn "profiles" "login_name" "login_name",
       .ofColumn "profiles" "realname" "realname"]
      ([.text " FROM ", .source .cc "cc", .text " INNER JOIN ", .source .profiles "profiles",
          .text " ON "] ++ equation (.of "cc" "who") (.of "profiles" "userid") ++
        .text " WHERE 1=1" :: inner)
      "ccprofiles",
    equation (.of "ccprofiles" "bug_id") bugKey⟩

/-- The requested flags with the persons on both sides. -/
def flagsJoin (inner : List Piece) : Join :=
  ⟨.inner,
    .derived
      [.ofColumn "flags" "bug_id" "bug_id",
       .ofColumn "flags" "creation_date" "flagdate",
       .ofColumn "flagsto" "login_name" "flag_login",
       .ofColumn "flagsto" "realname" "flag_realname",
       .ofColumn "flagsfrom" "login_name" "flagfrom_login",
       .ofColumn "flagsfrom" "realname" "flagfrom_realname",
       .ofColumn "flagtypes" "name" "flagname"]
      ([.text " FROM ", .source .flags "flags", .text " INNER JOIN ",
          .source .flagtypes "flagtypes", .text " ON "] ++
        equation (.of "flags" "type_id") (.of "flagtypes" "id") ++
        [.text " INNER JOIN ", .source .profiles "flagsto", .text " ON "] ++
        equation (.of "flags" "requestee_id") (.of "flagsto" "userid") ++
        [.text " INNER JOIN ", .source .profiles "flagsfrom", .text " ON "] ++
        equation (.of "flags" "setter_id") (.of "flagsfrom" "userid") ++
        [.text " WHERE ", .column (.of "flags" "status"), .text "=", .literal "?"] ++ inner)
      "flagprofiles",
    equation (.of "flagprofiles" "bug_id") bugKey⟩

/-- The dates of the latest requested flags. -/
def flagDatesJoin : Join :=
  ⟨.left,
    .derived
      [.labelled [.column (.bare "bug_id")] "quickflagbugid",
       .labelled [.text "MAX(", .column (.bare "creation_date"), .text ")"] "flagdate"]
      [.text " FROM ", .source .flags "flags", .text " WHERE ", .column (.bare "status"), .text "=",
        .literal "?", .text " GROUP BY ", .column (.bare "bug_id")]
      "quickflag",
    equation (.of "quickflag" "quickflagbugid") bugKey⟩

/-- The latest comments: first their times, then their texts. -/
def lastCommentJoins : List Join :=
  [⟨.left,
    .derived
      [.labelled [.text "MAX(", .column (.of "longdescs" "bug_when"), .text ")"] "sub_comment_when",
       .ofColumn "longdescs" "bug_id" "sub_bug_id"]
      [.text " FROM ", .source .longdescs "longdescs", .text " GROUP BY ",
        .column (.of "longdescs" "bug_id")]
      "descs",
    equation bugKey (.of "descs" "sub_bug_id")⟩,
   ⟨.left,
    .table .longdescs "longdescslastcomment",
    equation (.of "longdescslastcomment" "bug_when") (.of "descs" "sub_comment_when") ++
      .text " AND " :: equation (.of "longdescslastcomment" "bug_id") (.of "descs" "sub_bug_id")⟩]

/-- The joins of a field, given the text of the conditions inside. -/
def joins (inner : List Piece) : Field → List Join
  | attachments => [attachmentsJoin]
  | blocks =>
    [dependencyJoin "blockstab" "blockedbugs" "blockedalias" "dependson" "blocked" "blocks" inner]
  | component =>
    [tableJoin .components "components" (.of "bugs" "component_id") (.of "components" "id")]
  | cc => [copiesJoin inner]
  | depends =>
    [dependencyJoin "dependstab" "dependsonbugs" "dependsonalias" "blocked" "dependson" "depends"
      inner]
  | flag => [flagsJoin inner]
  | quickflag => [flagDatesJoin]
  | reporter => [personJoin "reporterprofiles" "reporter"]
  | lastcomment => lastCommentJoins
  | product => [tableJoin .products "products" (.of "bugs" "product_id") (.of "products" "id")]
  | qa => [personJoin "qaprofiles" "qa_contact"]
  | assignee => [personJoin "profiles" "assigned_to"]
  | nickname => [tableJoin .bugsAliases "aliases" (.of "aliases" "bug_id") bugKey]
  | work => [⟨.cross, .table .longdescs "longdescswork", []⟩]
  | f =>
    match f.transitionStatus? with
    | some entered => [transitionJoin (f.name ++ "activity") entered]
    | none => []

end Field

/-- The joins of a statement with the values that are bound inside of them. -/
structure JoinPlan where
  joins : List Join := []
  values : List String := []
  diagnostics : List Diagnostic := []

/-- The joins of some fields, in order. Their values are bound after the ones bound before. -/
def JoinPlan.ofFields (store : Store) (bound : Nat) : List Field → JoinPlan
  | [] => {}
  | f :: fs =>
    let r := f.innerRestriction store bound
    let rest := ofFields store (bound + r.values.length) fs
    { joins := f.joins (f.innerPieces r.conditions) ++ rest.joins
      values := r.values ++ rest.values
      diagnostics := r.diagnostics ++ rest.diagnostics }

/-- Whether a required field is joined: the short form of the flags gives way to the full one. -/
def FieldSet.joinsField (required : FieldSet) (f : Field) : Bool :=
  required.contains f && (f != .quickflag || ! required.contains .flag)

def FieldSet.joinPlan (required : FieldSet) (store : Store) (bound : Nat) : JoinPlan :=
  .ofFields store bound (Field.joinOrder.filter required.joinsField)

end BugReport
