import BugReport.Column.Custom
import BugReport.Column.Selection
import BugReport.Query.Joins
import BugReport.Query.Order
import BugReport.Query.Select
import BugReport.Search.Chart
import BugReport.Sql.Value

/-!
# Compiling a request

A request is worked through in the order of the schema: every parameter that is set restricts the
rows, makes fields required, and changes the columns or the search chart. Then the rules that tie
parameters together apply, the columns and the order are settled, and the statement is put together
for the fields that turned out to be required.
-/

namespace BugReport

open Sql (Identifier Condition Clause Item Statement)
open Parameter (Kind)

/-- What a request compiles to. -/
structure Query where
  statement : Statement
  /-- The texts bound to the slots of the statement, in the order of their numbers. -/
  values : List String
  chart : Chart
  /-- The columns to show, in order. -/
  columns : List String
  /-- The fields that the statement fetches. -/
  required : FieldSet
  customFields : List Identifier
  /-- The value formats that this request gives to columns. -/
  formats : List (String × String)
  /-- The headings that this request gives to columns. -/
  titles : List (String × String)

namespace Query

def sql (q : Query) (naming : Sql.Naming) : String :=
  q.statement.text naming

def params (q : Query) : List Sql.Value :=
  q.values.map .text

/-- The text of the statement with its values in the place of the slots. -/
def displaySql (q : Query) (naming : Sql.Naming) : String :=
  Sql.fillSlots (q.sql naming) q.params

/-- The address of the same search on a server. -/
def searchAddress (q : Query) (server : String) : String :=
  q.chart.address server

end Query

/-- A request while it is compiled. -/
structure Draft where
  store : Store
  custom : CustomFields
  values : List String := []
  chart : Chart := {}
  required : FieldSet := ∅
  selection : ColumnSelection := {}
  customFields : List Identifier := []
  formats : List (String × String) := []
  clauses : List Clause := []
  diagnostics : List Diagnostic := []

namespace Draft

def start (store : Store) : Draft :=
  { store, custom := .ofStore store }

def warn (d : Draft) (diagnostics : List Diagnostic) : Draft :=
  { d with diagnostics := d.diagnostics ++ diagnostics }

def require (d : Draft) (f : Field) : Draft :=
  { d with required := d.required.insert f }

/-- Makes the field with a name required, if there is one. -/
def requireName (d : Draft) (name : String) : Draft :=
  { d with required := d.required.insertName name }

/-- Adds a column implicitly. -/
def addColumn (d : Draft) (column : String) : Draft :=
  { d with selection := d.selection.add column }

def removeColumn (d : Draft) (column : String) : Draft :=
  { d with selection := d.selection.remove column }

def putFormat (d : Draft) (column format : String) : Draft :=
  { d with formats := putEntry d.formats column format }

def addClauses (d : Draft) (clauses : List Clause) : Draft :=
  { d with clauses := d.clauses ++ clauses }

/-! ## Before the filters -/

/-- Applies an entry of the `link` parameter: a column, and the namespace of its links behind a
tilde. -/
def applyLink (d : Draft) (entry : String) : Draft :=
  match Text.cut '~' entry with
  | some (column, namespace_) => (d.putFormat column ("link~" ++ namespace_)).addColumn column
  | none => (d.putFormat entry "link").addColumn entry

def applyLinks (d : Draft) : Draft :=
  match d.store.present? "link" with
  | some links => ((Text.parts ',' links).filter (· != "")).foldl applyLink d
  | none => d

/-- The latest comment comes with the keywords, which are links unless they have a format. -/
def applyLastCommentFormat (d : Draft) : Draft :=
  match d.store.present? "lastcomment" with
  | some _ =>
    let d := d.require .keywords
    if d.formats.any (·.1 == "keywords") then d else d.putFormat "keywords" "link~keyword"
  | none => d

/-- Grouped tables cannot be sorted by the reader. This settles the group. -/
def applyGroup (d : Draft) : Draft :=
  let store := d.store.settleGroup
  match store.group? with
  | some _ =>
    let (store, diagnostics) := store.trySet "sortable" "0"
    { d with store }.warn diagnostics
  | none => { d with store }

/-- Gives a column the format that a parameter names. -/
def applyFormat (parameter column : String) (d : Draft) : Draft :=
  match d.store.present? parameter with
  | some format => d.putFormat column format
  | none => d

/-- The rules that apply before any filter. -/
def prepare (d : Draft) : Draft :=
  d.applyLinks.applyLastCommentFormat.applyGroup
    |> applyFormat "modifiedformat" "modified"
    |> applyFormat "createdformat" "created"

/-! ## Filters -/

/-- The characters of values that match more than one value. -/
def isMultiValueMark (c : Char) : Bool :=
  [',', '!', '+', '*', '%', '<', '>'].contains c

/-- A filter for several values shows its column, and may bring an order; a filter for one value hides
it. Only the kinds whose values are plain have this effect. -/
def showFiltered (d : Draft) (name value : String) (kind : Kind) : Draft :=
  match kind with
  | .field | .fieldDate | .fieldNumber =>
    if value.toList.any isMultiValueMark then
      let d := d.addColumn name
      match Catalog.defaultOrder? name with
      | some order => { d with store := (d.store.infer "sort" name).infer "order" order }
      | none => d
    else d.removeColumn name
  | _ => d

/-- The restriction that a value of a kind puts on a field, for the kinds that restrict by
themselves. -/
def restriction? (bound : Nat) (now : Int) (name value : String) (kind : Kind) :
    Option Restriction :=
  match kind with
  | .field | .fieldId | .fieldDepends => some (.ofMatch bound value)
  | .fieldNumber => some (.ofNumber (Catalog.place name).text value)
  | .fieldDate => some (.ofDate bound now (Catalog.place name).text value)
  | _ => none

/-- Binds the values of a restriction and records its diagnostics. -/
def bind (d : Draft) (r : Restriction) : Draft :=
  { d with values := d.values ++ r.values }.warn r.diagnostics

/-- Filters by a field: the changed draft and the conditions on the field. -/
def filterField (d : Draft) (now : Int) (name value : String) (kind : Kind) :
    Draft × List Condition :=
  let d := d.showFiltered name value kind
  match restriction? d.values.length now name value kind with
  | none => (d, [])
  | some r =>
    let d := (d.bind r).requireName name
    ({ d with chart := d.chart.append (Catalog.searchName name) value }, r.conditions)

/-- Filters by a field and adds the conditions as clauses. -/
def addFilter (d : Draft) (now : Int) (name value : String) (kind : Kind) : Draft :=
  let (d, conditions) := d.filterField now name value kind
  d.addClauses (conditions.map (.column (Catalog.place name)))

/-- Adds a custom field, once. A name that is no identifier is refused. -/
def addCustomField (d : Draft) (name : String) : Draft :=
  match Identifier.ofName? name with
  | some i => if d.customFields.contains i then d else { d with customFields := d.customFields ++ [i] }
  | none => d.warn [.invalidCustomField name]

/-- Applies one pair of the `filters` parameter: a field and a value, with an encoded equals sign
between them. Custom fields are added and filtered as plain fields. -/
def applyPair (now : Int) (d : Draft) (pair : String) : Draft :=
  match Text.cutSeq "%3D" pair with
  | none => d.warn [.malformedPair pair]
  | some (name, rest) =>
    let value := ((Text.cutSeq "%3D" rest).map Prod.fst).getD rest
    if d.custom.holds name then
      let d := d.addCustomField name
      if (Identifier.ofName? name).isSome then d.addFilter now name value .field else d
    else
      match Parameter.kind? name with
      | some kind =>
        if kind.isField then d.addFilter now name value kind else d.warn [.notAField name]
      | none => d.warn [.notAField name]

/-- Applies one parameter that is set. -/
def applyParameter (now : Int) (d : Draft) (parameter : String × Kind × String) : Draft :=
  let (name, kind, value) := parameter
  match kind with
  | .filters => (Text.partsSeq "%26" value).foldl (applyPair now) d
  | .fieldKeywords =>
    let (d, conditions) := d.filterField now name value .field
    d.addClauses [.keyword conditions]
  | _ => d.addFilter now name value kind

/-- The parameters that are set, with their kinds and values, in the order of the schema. -/
def presentParameters (store : Store) : List (String × Kind × String) :=
  Parameter.schema.filterMap fun (name, kind) => (store.present? name).map fun v => (name, kind, v)

/-- Applies every parameter that is set when the loop starts. -/
def applyParameters (d : Draft) (now : Int) : Draft :=
  (presentParameters d.store).foldl (applyParameter now) d

/-! ## After the filters -/

/-- A list needs the assignee and the deadline. -/
def applyListFormat (d : Draft) : Draft :=
  if d.store.get? "format" == some "list" then (d.require .assignee).require .deadline else d

/-- A filter for flags needs the flags and shows them. -/
def applyFlag (d : Draft) : Draft :=
  match d.store.present? "flag" with
  | some _ => (((d.require .flag).addColumn "flagfrom").addColumn "flagname").addColumn "flagdate"
  | none => d

/-- The latest comment is fetched when it is asked for. -/
def applyLastComment (d : Draft) : Draft :=
  match d.store.present? "lastcomment" with
  | some _ => d.require .lastcomment
  | none => d

/-- The searched text has to occur in the summary. -/
def applySearch (d : Draft) : Draft :=
  match d.store.present? "search" with
  | some text =>
    let d := { d with values := d.values ++ ["%" ++ text ++ "%"] }
    d.addClauses [.column (.bare "short_desc") (.single ⟨.like, d.values.length⟩)]
  | none => d

/-- A group may bring a direction. -/
def applyGroupOrder (d : Draft) : Draft :=
  match d.store.group?.bind Catalog.defaultOrder? with
  | some order => { d with store := d.store.infer "grouporder" order }
  | none => d

/-- The rules that apply after the filters. -/
def conclude (d : Draft) : Draft :=
  (d.applyListFormat.applyFlag.applyLastComment.applySearch.applyGroupOrder.require
    .quickflag).require .nickname

/-! ## Columns -/

/-- The entries of the group, as they are written. -/
def groupEntries (store : Store) : List String :=
  match store.group? with
  | some group => Text.parts ',' group
  | none => []

/-- Shows and fetches the columns of the sort list. This settles the sort list. -/
def applySort (d : Draft) : Draft :=
  let d := { d with store := d.store.settleSort }
  (sortColumns d.store.sort).foldl (fun d column => (d.addColumn column).requireName column) d

/-- Hides and fetches the columns of the group. -/
def hideGroup (d : Draft) : Draft :=
  (groupEntries d.store).foldl (fun d column => (d.removeColumn column).requireName column) d

def settleColumns (d : Draft) : Draft × List String :=
  let (columns, selection, diagnostics) := d.selection.settle d.store
  ({ d with selection }.warn diagnostics, columns)

/-- Fetches a column: as a field, or as a custom field. -/
def fetchColumn (d : Draft) (column : String) : Draft :=
  if (Field.ofName? column).isSome then d.requireName column
  else if d.custom.holds column then d.addCustomField column
  else d

/-- Fetches an entry of the group as a custom field, if it is one. -/
def fetchGroup (d : Draft) (column : String) : Draft :=
  if (Field.ofName? column).isNone && d.custom.holds column then d.addCustomField column else d

/-- Fetches the column of the bars. -/
def applyBar (d : Draft) : Draft :=
  match d.store.present? "bar" with
  | some column => d.requireName column
  | none => d

/-- Settles the columns and fetches what they show: the draft and the columns. -/
def arrange (d : Draft) : Draft × List String :=
  let (d, columns) := d.applySort.hideGroup.settleColumns
  let d := columns.foldl fetchColumn d
  let d := (groupEntries d.store).foldl fetchGroup d
  (d.applyBar, columns)

/-! ## The statement -/

/-- Which name of a person is shown. -/
def personName (store : Store) : PersonName :=
  if store.get? "nameformat" == some "login" then .login else .real

/-- The entries of the select list: the id, the required fields, and the custom fields. -/
def items (d : Draft) : List Item :=
  .ofColumn "bugs" "bug_id" "id" :: d.required.items (personName d.store) ++
    d.customFields.map fun i => .ofColumn "bugs" i.text i.text

/-- Puts the statement together. This binds the values inside of the joins and settles the
direction. -/
def assemble (d : Draft) : Draft × Statement :=
  let plan := d.required.joinPlan d.store d.values.length
  let (order, problems) := compileOrder d.store.sort
  let d := { d with values := d.values ++ plan.values, store := d.store.settleOrder }
  (d.warn (plan.diagnostics ++ problems),
    { counted := d.store.get? "format" == some "count"
      items := d.items
      joins := plan.joins
      clauses := d.clauses
      summed := d.required.contains .work
      order
      direction := d.store.order })

end Draft

/-- A compiled request: the query, the store with all that was inferred and settled, and what was
wrong with the request. -/
structure Compiled where
  query : Query
  store : Store
  diagnostics : List Diagnostic

/-- Compiles the request in a store at an instant. -/
def compile (store : Store) (now : Int) : Compiled :=
  let d := ((Draft.start store).prepare.applyParameters now).conclude
  let (d, columns) := d.arrange
  let (d, statement) := d.assemble
  { query :=
      { statement
        values := d.values
        chart := d.chart
        columns
        required := d.required
        customFields := d.customFields
        formats := d.formats
        titles := d.selection.titles }
    store := d.store
    diagnostics := d.diagnostics }

end BugReport
