import BugReport.Report.Run
import Mathlib.Data.List.Basic

/-! # What a report does with its connection

A report that is connected executes one or two statements and then closes its connection, whatever the
database answers. The query for the numbers of fields and the statement of the report differ in their
text, so a run tells them apart by what it executed, and each may have an outcome of its own.
-/

namespace BugReport

/-! ## The statements of a run -/

/-- The statement in an event, with its values. -/
def ConnectorEvent.statement? : ConnectorEvent → Option (String × List Sql.Value)
  | executed sql params => some (sql, params)
  | closed => none

/-- The statements that a run executed, in order. -/
def ReportRun.statements (run : ReportRun) : List (String × List Sql.Value) :=
  run.events.filterMap ConnectorEvent.statement?

namespace Connector

/-- The query for the numbers of fields. -/
def fieldIdsQuery (connector : Connector) : String × List Sql.Value :=
  (FieldIds.statement connector.tableName, [])

/-- The numbers that the database answers, unless the query for them fails. -/
def fieldIds? (connector : Connector) : Option FieldIds :=
  match connector.execute (FieldIds.statement connector.tableName) [] with
  | .ok rows => some (FieldIds.ofRows rows)
  | .error _ => none

end Connector

/-- The statement of a report. Its text holds the number of the status field if this number is kept or
could be fetched. -/
def Request.reportQuery (r : Request) (connector : Connector) (cache : FieldIdCache) (now : Int) :
    String × List Sql.Value :=
  let query := (r.compile now).query
  (query.sql (naming connector (cache.or connector.fieldIds?)), query.params)

/-! ## The two statements differ -/

/-- Statements of reports select distinct rows, or count them. -/
theorem Sql.Statement.prefix_toList_text (s : Sql.Statement) (naming : Sql.Naming) :
    "SELECT C".toList <+: (s.text naming).toList ∨ "SELECT D".toList <+: (s.text naming).toList := by
  have hfirst {words : String} {pieces : List Piece} {start : List Char} (h : start <+: words.toList) :
      start <+: (write naming (.text words :: pieces)).toList := by
    rw [toList_write, List.flatMap_cons]
    exact h.trans (List.prefix_append _ _)
  rw [text, pieces]
  split
  · exact .inl (hfirst ⟨"OUNT(DISTINCT(id)) AS count FROM (".toList, by decide⟩)
  · exact .inr (hfirst ⟨"ISTINCT ".toList, by decide⟩)

/-- The query for the numbers of fields selects rows as they are. -/
theorem FieldIds.prefix_toList_statement (tableName : String → String) :
    "SELECT i".toList <+: (FieldIds.statement tableName).toList := by
  have hstart : "SELECT i".toList <+: "SELECT id, name FROM ".toList :=
    ⟨"d, name FROM ".toList, by decide⟩
  have htext : (FieldIds.statement tableName).toList =
      "SELECT id, name FROM ".toList ++ (tableName "fielddefs").toList := String.toList_append
  rw [htext]
  exact hstart.trans (List.prefix_append _ _)

theorem Request.reportQuery_ne_fieldIdsQuery (r : Request) (connector : Connector)
    (cache : FieldIdCache) (now : Int) :
    r.reportQuery connector cache now ≠ connector.fieldIdsQuery := by
  intro heq
  have htext : (r.compile now).query.statement.text (naming connector (cache.or connector.fieldIds?)) =
      FieldIds.statement connector.tableName := by
    simpa only [reportQuery, Query.sql, Connector.fieldIdsQuery] using congrArg Prod.fst heq
  have hstart := (r.compile now).query.statement.prefix_toList_text
    (naming connector (cache.or connector.fieldIds?))
  have hquery := FieldIds.prefix_toList_statement connector.tableName
  rw [htext] at hstart
  have hlength : "SELECT C".toList.length ≤ "SELECT i".toList.length ∧
      "SELECT D".toList.length ≤ "SELECT i".toList.length := by decide
  -- Both starts have the same length, so they would be the same.
  rcases hstart with hreport | hreport
  · exact absurd (List.prefix_of_prefix_length_le hreport hquery hlength.1) (by decide)
  · exact absurd (List.prefix_of_prefix_length_le hreport hquery hlength.2) (by decide)

/-! ## Runs -/

namespace Request

variable (r : Request) (connector : Connector) (cache : FieldIdCache) (now : Int)

theorem ensureFieldIds_eq :
    ensureFieldIds connector cache = (cache.or connector.fieldIds?,
      if cache.isNone then [.executed (FieldIds.statement connector.tableName) []] else []) := by
  cases cache with
  | some ids => rfl
  | none =>
      rw [ensureFieldIds, Connector.fieldIds?]
      cases connector.execute (FieldIds.statement connector.tableName) [] <;> rfl

/-- What a run of a connected report does and returns. -/
structure Follows (run : ReportRun) : Prop where
  /-- The numbers of fields are asked for when none are kept, and then the report is executed. -/
  statements : run.statements =
    (if cache.isNone then [connector.fieldIdsQuery] else []) ++ [r.reportQuery connector cache now]
  fieldIdsQuery_count : run.statements.count connector.fieldIdsQuery = if cache.isNone then 1 else 0
  reportQuery_count : run.statements.count (r.reportQuery connector cache now) = 1
  /-- Without numbers the statement looks the number of the status field up by itself. -/
  fallback : cache.or connector.fieldIds? = none →
    (r.reportQuery connector cache now).1 = (r.compile now).query.sql { tableName := connector.tableName }
  closed_once : run.events.count .closed = 1
  closed_last : run.events.getLast? = some .closed
  outcome :
    let (sql, params) := r.reportQuery connector cache now
    match connector.execute sql params with
    | .ok rows =>
      run.outcome = .ok (outputOf r.settings now (r.compile now) (Sql.fillSlots sql params) rows)
    | .error (.queryFailed _ message) =>
      run.outcome = .error (.queryFailed (Sql.fillSlots sql params) message)
    | .error e => run.outcome = .error e

/-- A connected run, by what it executes. -/
theorem run_of_connected (h : connector.connect = .ok ()) :
    (r.run connector cache now).cache = cache.or connector.fieldIds? ∧
    (r.run connector cache now).events =
      (if cache.isNone then [.executed (FieldIds.statement connector.tableName) []] else []) ++
        [.executed (r.reportQuery connector cache now).1 (r.reportQuery connector cache now).2, .closed] := by
  simp only [run, h, ensureFieldIds_eq, reportQuery]
  exact ⟨trivial, trivial⟩

theorem statements_run (h : connector.connect = .ok ()) :
    (r.run connector cache now).statements =
      (if cache.isNone then [connector.fieldIdsQuery] else []) ++ [r.reportQuery connector cache now] := by
  rw [ReportRun.statements, (r.run_of_connected connector cache now h).2]
  split <;> simp [ConnectorEvent.statement?, Connector.fieldIdsQuery]

/-- A report that cannot connect does nothing. Every other one executes the query for the numbers of
fields if none are kept, then its statement once, and then closes the connection. What it returns
depends on its statement alone; a failure of the statement is told with the statement as displayed. -/
theorem run_protocol :
    match connector.connect with
    | .error e => r.run connector cache now = { outcome := .error e, events := [], cache }
    | .ok () => r.Follows connector cache now (r.run connector cache now) := by
  split
  · next e hconnect => simp only [run, hconnect]
  next hconnect =>
    have hstatements := r.statements_run connector cache now hconnect
    have hevents := (r.run_of_connected connector cache now hconnect).2
    have hne := r.reportQuery_ne_fieldIdsQuery connector cache now
    refine ⟨hstatements, ?_, ?_, ?_, ?_, ?_, ?_⟩
    · rw [hstatements]
      split <;> simp [hne]
    · rw [hstatements]
      split <;> simp [hne.symm]
    · intro hnone
      simp only [reportQuery, hnone, naming]
      rfl
    · rw [hevents]
      split <;> simp
    · rw [hevents]
      split <;> simp
    · simp only [run, hconnect, ensureFieldIds_eq, reportQuery, Query.displaySql]
      split
      · next rows hrows => rw [hrows]
      · next message hfailed =>
          rw [hfailed]
          rfl
      · next e hnot hfailed =>
          rw [hfailed]
          cases e with
          | connectionFailed reason => rfl
          | queryFailed sql message => exact absurd rfl (hnot sql message)

end Request

end BugReport
