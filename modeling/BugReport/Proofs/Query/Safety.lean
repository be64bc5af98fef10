import BugReport.Database.Connector
import BugReport.Proofs.Query.Binding
import BugReport.Proofs.Sql.StatementText

/-! # The text of compiled statements is safe

A request reaches the text of its statement through names only, and these are checked. Whatever a
request holds, and whether or not the number of the status field is known, the statement is written from
fixed texts, fixed literals, slots and identifiers; its values are bound and not written.
-/

namespace BugReport

open Sql

/-- A compiled statement is written from vetted pieces and one semicolon behind them, so its text is
safe. Names of tables only have to keep out the signs that the text is made of. -/
theorem sql_safe (store : Store) (now : Int) (naming : Naming)
    (hnaming : naming.Avoids ['\'', '?', '(', ')', ';', '-', '/']) :
    (∃ pieces, (compile store now).query.sql naming = write naming pieces ++ ";" ∧
      ∀ piece ∈ pieces, piece.isVetted = true) ∧
    SafeText ((compile store now).query.sql naming) := by
  have hregular := regular_compile store now
  refine ⟨⟨(compile store now).query.statement.body, ?_, hregular.vetted_body⟩,
    hregular.safeText hnaming⟩
  apply String.toList_injective
  rw [Query.sql, Statement.Regular.toList_text, String.toList_append]
  rfl

/-- Tables of a schema, and a request that tries to end the statement early, of which no line is refused. -/
theorem sql_safe_hostile :
    let lines := ["sort=x DROP TABLE bugs--", "search=%27; OR 1=1 --", "filters=os%3D%27) OR (1%3D1%3B--"]
    (Store.empty.applyLines lines).2 = [] ∧
      SafeText ((compile (Store.empty.applyLines lines).1 0).query.sql
        { tableName := qualifiedName (some "main"), statusField := some (-7) }) :=
  ⟨by decide +kernel, (sql_safe _ 0 _ (Naming.avoids_of_all (by intro t; cases t <;> decide))).2⟩

end BugReport
