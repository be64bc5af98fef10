import BugReport.Database.FieldIds
import BugReport.Report.Output
import BugReport.Report.Request

/-!
# Running reports

A report connects, makes sure of the numbers of fields, executes its statement, and closes the
connection before it looks at the answer. What it did with the connection is told as a list of
events, in order.
-/

namespace BugReport

/-- What a report does with a connection. -/
inductive ConnectorEvent where
  | executed (sql : String) (params : List Sql.Value)
  | closed
  deriving DecidableEq, Repr

/-- A run of a report: its outcome, what it did, and the numbers of fields that are kept after it. -/
structure ReportRun where
  outcome : Except ReportError ReportOutput
  events : List ConnectorEvent
  cache : FieldIdCache

namespace Request

/-- Makes sure of the numbers of fields: those that are kept, else those that the database answers.
Without an answer nothing is kept. -/
def ensureFieldIds (connector : Connector) (cache : FieldIdCache) :
    FieldIdCache × List ConnectorEvent :=
  match cache with
  | some ids => (some ids, [])
  | none =>
    let sql := FieldIds.statement connector.tableName
    let cache := match connector.execute sql [] with
      | .ok rows => some (FieldIds.ofRows rows)
      | .error _ => none
    (cache, [.executed sql []])

/-- How a connector's tables are called, with the number of the status field if it is kept. -/
def naming (connector : Connector) (cache : FieldIdCache) : Sql.Naming where
  tableName := connector.tableName
  statusField := cache.bind fun ids => ids.lookup "bug_status"

/-- The count in the last of the fetched rows. -/
def countOf (rows : List Row) : Int :=
  ((rows.getLast?.bind fun row => row.lookup "count").bind Cell.int64?).getD 0

/-- The result that a compiled request makes of the rows it fetched, and what was wrong with them. A
report without rows is only a message, unless it has totals. -/
def bodyOf (settings : Settings) (now : Int) (c : Compiled) (rows : List Row) :
    ReportBody × List Diagnostic :=
  if c.store.get? "format" == some "count" then (.count (countOf rows), [])
  else if rows.isEmpty && (c.store.present? "total").isNone then
    (.noResults ((c.store.get? "noresultsmessage").getD ""), [])
  else
    let renderer : Renderer := { store := c.store, settings, query := c.query, now }
    let (table, problems) := renderer.render rows
    (.table table, problems)

/-- The finished report of a compiled request. -/
def outputOf (settings : Settings) (now : Int) (c : Compiled) (sql : String) (rows : List Row) :
    ReportOutput :=
  let (body, problems) := bodyOf settings now c rows
  { body
    sql
    searchAddress :=
      if c.store.get? "bzurl" == some "show" then some (c.query.searchAddress settings.server)
      else none
    warnings := (c.diagnostics ++ problems).map Diagnostic.warning
    debug := c.store.debugLevel? }

/-- A failure of the statement is told with the statement as it is displayed. -/
def withDisplayed (sql : String) : ReportError → ReportError
  | .queryFailed _ message => .queryFailed sql message
  | e => e

def run (r : Request) (connector : Connector) (cache : FieldIdCache) (now : Int) : ReportRun :=
  match connector.connect with
  | .error e => { outcome := .error e, events := [], cache }
  | .ok () =>
    let (cache, fetched) := ensureFieldIds connector cache
    let c := r.compile now
    let naming := naming connector cache
    let sql := c.query.sql naming
    let displayed := c.query.displaySql naming
    { outcome :=
        match connector.execute sql c.query.params with
        | .ok rows => .ok (outputOf r.settings now c displayed rows)
        | .error e => .error (withDisplayed displayed e)
      events := fetched ++ [.executed sql c.query.params, .closed]
      cache }

end Request

end BugReport
