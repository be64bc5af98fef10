import BugReport.Proofs.Query.Neighbours
import BugReport.Proofs.Query.Safety
import BugReport.Proofs.Sql.StatusField
import BugReport.Report.Run

/-! # What a query owes to the database

A query is compiled once; how the database calls its tables and which number its status field has only
changes the text of the statement. A number that is known stands where the sub-select for it would stand, and
a schema stands in front of every table and nowhere else.
-/

namespace BugReport

open Sql

/-- A query as it is handed out to a database and to what shows its rows. -/
structure Query.Written where
  sql : String
  params : List Sql.Value
  searchAddress : String
  columns : List String
  required : FieldSet
  customFields : List Identifier
  formats : List (String × String)
  titles : List (String × String)

def Query.written (q : Query) (naming : Naming) (server : String) : Written where
  sql := q.sql naming
  params := q.params
  searchAddress := q.searchAddress server
  columns := q.columns
  required := q.required
  customFields := q.customFields
  formats := q.formats
  titles := q.titles

@[simp] theorem Query.sql_written (q : Query) (naming : Naming) (server : String) :
    (q.written naming server).sql = q.sql naming := rfl

/-- Only the text of the statement depends on the naming. -/
theorem Query.written_eq {q : Query} {naming : Naming} {sql : String} (h : q.sql naming = sql) (other : Naming)
    (server : String) : q.written naming server = { q.written other server with sql := sql } := by
  subst h
  rfl

/-! ## The number of the status field -/

/-- The pieces of a compiled statement are vetted, but for the sign at the end. -/
theorem vetted_of_mem_pieces {store : Store} {now : Int} {piece : Piece}
    (h : piece ∈ (compile store now).query.statement.pieces) :
    piece.isVetted = true ∨ piece = .text ";" := by
  rw [Statement.pieces_eq_body] at h
  rcases List.mem_append.mp h with hbody | hend
  · exact .inl ((regular_compile store now).vetted_body piece hbody)
  · exact .inr (List.mem_singleton.mp hend)

variable (store : Store) (now : Int)

/-- Between the places of the status field a statement is the same, whatever its number is. -/
theorem exists_parts_sql (naming : Naming) :
    ∃ parts : List (List Piece), parts ≠ [] ∧
      (∀ other : Naming, other.tableName = naming.tableName →
        ((compile store now).query.sql other).toList =
          (Piece.statusField.write other).toList.intercalate (parts.map fun part => (write naming part).toList)) ∧
      ∀ part ∈ parts, part ⊆ (compile store now).query.statement.pieces ∧ .statusField ∉ part := by
  obtain ⟨parts, hne, hpieces, hstatus⟩ :=
    exists_groups .statusField (compile store now).query.statement.pieces
  refine ⟨parts, hne, fun other hother => ?_, fun part hpart => ⟨?_, hstatus part hpart⟩⟩
  · have hparts : parts.map (fun part => (write other part).toList) =
        parts.map fun part => (write naming part).toList := by
      refine List.map_congr_left fun part hpart => ?_
      exact congrArg String.toList (write_eq_of_not_mem hother (hstatus part hpart))
    rw [Query.sql, Statement.text, ← hpieces, toList_write_intercalate, hparts]
    simp [toList_write]
  · rw [← hpieces]
    exact Text.subset_intercalate hpart

variable {store now}

/-- A part without the status field is clear of the sub-select. -/
theorem clearOf_part {naming : Naming} {part : List Piece} (hnaming : naming.Avoids ['\''])
    (hsubset : part ⊆ (compile store now).query.statement.pieces) (hstatus : .statusField ∉ part) :
    Text.ClearOf (statusSelect naming.tableName).toList (write naming part).toList := by
  refine clearOf_statusSelect hnaming (fun piece hpiece => ?_) fun hname =>
    (sealed_compile store now).unquoted (hsubset hname)
  rcases vetted_of_mem_pieces (hsubset hpiece) with hvetted | rfl
  · exact Piece.quotesFixed hnaming hvetted fun heq => hstatus (heq ▸ hpiece)
  · exact .inr (by decide : '\'' ∉ ";".toList)

variable (store now)

/-- A statement with the number of the status field, and the same statement without it. -/
theorem exists_parts_of_number (tableName : String → String) (k : Int) :
    ∃ parts : List (List Char), parts ≠ [] ∧
      ((compile store now).query.sql ⟨tableName, none⟩).toList =
        (statusSelect tableName).toList.intercalate parts ∧
      ((compile store now).query.sql ⟨tableName, some k⟩).toList = (toString k).toList.intercalate parts ∧
      (Naming.Avoids ⟨tableName, none⟩ ['\''] →
        ∀ part ∈ parts, Text.ClearOf (statusSelect tableName).toList part) := by
  obtain ⟨parts, hne, hsql, hparts⟩ := exists_parts_sql store now ⟨tableName, none⟩
  refine ⟨parts.map fun part => (write ⟨tableName, none⟩ part).toList, by simpa using hne, ?_, ?_, fun hnaming => ?_⟩
  · rw [hsql ⟨tableName, none⟩ rfl, write_statusField_of_none rfl]
  · rw [hsql ⟨tableName, some k⟩ rfl, write_statusField_of_some rfl]
  · intro text htext
    obtain ⟨part, hpart, rfl⟩ := List.mem_map.mp htext
    exact clearOf_part hnaming (hparts part hpart).1 (hparts part hpart).2

/-- A number that is kept for the status field stands where the sub-select for it would stand, and changes
nothing else. Numbers without one for the status field change nothing. -/
theorem written_with_numbers (connector : Connector) (ids : FieldIds) (server : String) :
    let query := (compile store now).query
    let fallback := query.written (Request.naming connector none) server
    let kept := query.written (Request.naming connector (some ids)) server
    let select := statusSelect connector.tableName
    (ids.lookup "bug_status" = none → kept = fallback) ∧
      ∀ k : Int, ids.lookup "bug_status" = some k →
        (∃ parts : List String, fallback.sql = select.intercalate parts ∧
          kept = { fallback with sql := (toString k).intercalate parts }) ∧
        ((Request.naming connector none).Avoids ['\''] →
          kept = { fallback with sql := Text.replaced select (toString k) fallback.sql }) := by
  intro query fallback kept select
  have hfallback : Request.naming connector none = ⟨connector.tableName, none⟩ := rfl
  refine ⟨fun hnone => ?_, fun k hk => ?_⟩
  · have hkept : Request.naming connector (some ids) = ⟨connector.tableName, none⟩ := by
      simp [Request.naming, hnone]
    simp only [kept, fallback, hkept, hfallback]
  · have hkept : Request.naming connector (some ids) = ⟨connector.tableName, some k⟩ := by
      simp [Request.naming, hk]
    obtain ⟨parts, hne, hselect, hnumber, hclear⟩ := exists_parts_of_number store now connector.tableName k
    have htoList (separator : String) :
        (separator.intercalate (parts.map String.ofList)).toList = separator.toList.intercalate parts := by
      rw [String.toList_intercalate, List.map_map]
      simp [Function.comp_def]
    simp only [kept, fallback, select, query, hkept, hfallback, Query.sql_written]
    refine ⟨⟨parts.map String.ofList, ?_, Query.written_eq ?_ _ _⟩, fun hnaming => Query.written_eq ?_ _ _⟩
    · exact String.toList_injective (hselect.trans (htoList _).symm)
    · exact String.toList_injective (hnumber.trans (htoList _).symm)
    · have hne' : (statusSelect connector.tableName).toList ≠ [] := by
        rw [toList_statusSelect]
        simp
      have hreplaced := Text.toList_replaced hne' hne (hclear hnaming) hselect (toString k)
      exact String.toList_injective (hnumber.trans hreplaced.symm)

/-- Two places of the status field, with tables in a schema. -/
theorem written_with_numbers_schema :
    let store := (Store.empty.applyLines ["columns=+closed,+resolved"]).1
    let connector : Connector :=
      { tableName := qualifiedName (some "bz"), connect := .ok (), execute := fun _ _ => .ok [] }
    let fallback := (compile store 0).query.written (Request.naming connector none) ""
    (compile store 0).query.written (Request.naming connector (some [("bug_status", 9)])) "" =
      { fallback with sql :=
          Text.replaced "(SELECT id FROM bz.fielddefs WHERE name='bug_status')" "9" fallback.sql } := by
  intro store connector fallback
  have hselect : statusSelect connector.tableName = "(SELECT id FROM bz.fielddefs WHERE name='bug_status')" := by
    unfold statusSelect
    decide
  rw [← hselect]
  exact ((written_with_numbers store 0 connector [("bug_status", 9)] "").2 9 (by decide)).2
    (Naming.avoids_of_all (by intro t; cases t <;> decide))

/-! ## Schemas -/

variable {schema : String} {status : Option Int}

theorem qualifiedName_some (hne : schema ≠ "") (table : String) :
    (qualifiedName (some schema) table).toList = (schema ++ ".").toList ++ table.toList := by
  have hfilter : (some schema).filter (· != "") = some schema := by simp [hne]
  simp [qualifiedName, hfilter]

/-- The names of schemas are made of the characters of names, without points. -/
theorem isNameChar_of_isSchemaName (h : FileDatabase.isSchemaName schema = true) :
    (∀ c ∈ schema.toList, isNameChar c = true) ∧ '.' ∉ schema.toList := by
  have hall : ∀ c ∈ schema.toList, (c.isAlphanum || c == '_') = true := List.all_eq_true.mp h
  refine ⟨fun c hc => ?_, fun hc => absurd (hall _ hc) (by decide)⟩
  rw [isNameChar, hall c hc, Bool.true_or]

/-- A schema stands in front of the tables that are called by their bare names. -/
theorem prefixedBy_schema (hne : schema ≠ "") :
    Naming.PrefixedBy (schema ++ ".").toList ⟨qualifiedName none, status⟩ ⟨qualifiedName (some schema), status⟩ where
  status := rfl
  ne_nil t := t.plain_name.1
  blank t := t.plain_name.2.2.1
  table := by
    intro t front rest hmark hend
    obtain ⟨hname, -, hblank, -⟩ := t.plain_name
    have hstart : startsWithTable (t.name.toList ++ rest) = true := by
      refine List.any_eq_true.mpr ⟨t, t.mem_all, ?_⟩
      rw [Bool.and_eq_true, List.isPrefixOf_iff_prefix, List.drop_left, Option.all_eq_true]
      exact ⟨List.prefix_append _ _, fun c hc => by simp [hend c hc]⟩
    have href : isReference front (t.name.toList ++ rest) = true := by
      rw [isReference, hmark, hstart, Bool.and_self]
    rw [qualifiedName_some hne]
    exact (prefixFrom_name hname hblank).trans (by rw [if_pos href]; rfl)

/-- Tables in a schema are not called by their bare names. -/
theorem prefixedBy_self (hschema : FileDatabase.isSchemaName schema = true) (hne : schema ≠ "") :
    Naming.PrefixedBy (schema ++ ".").toList ⟨qualifiedName (some schema), status⟩
      ⟨qualifiedName (some schema), status⟩ := by
  obtain ⟨hchars, -⟩ := isNameChar_of_isSchemaName hschema
  have hpoint (t : Sql.Table) : '.' ∈ (qualifiedName (some schema) t.name).toList := by
    rw [qualifiedName_some hne]
    simp
  have hname (t : Sql.Table) : ∀ c ∈ (qualifiedName (some schema) t.name).toList, isNameChar c = true := by
    intro c hc
    rw [qualifiedName_some hne, String.toList_append, List.mem_append, List.mem_append] at hc
    rcases hc with (hmem | hmem) | hmem
    · exact hchars c hmem
    · rw [List.mem_singleton.mp hmem]
      decide
    · exact t.plain_name.2.1 c hmem
  have hblank (t : Sql.Table) : ' ' ∉ (qualifiedName (some schema) t.name).toList :=
    fun hmem => absurd (hname t _ hmem) (by decide)
  have hnonempty (t : Sql.Table) : (qualifiedName (some schema) t.name).toList ≠ [] :=
    List.ne_nil_of_mem (hpoint t)
  refine ⟨rfl, hnonempty, hblank, fun t front rest _ _ => ?_⟩
  exact prefixFrom_steady (isSteady_of_blank_not_mem (hnonempty t) (hblank t)) fun _ =>
    canStartTable_qualified (hname t) (hpoint t)

/-- What is prefixed by a naming is prefixed in the text of a compiled statement. -/
theorem prefixFrom_sql {naming prefixed : Naming} {pre : List Char} (h : naming.PrefixedBy pre prefixed) :
    prefixFrom pre [] ((compile store now).query.sql naming).toList =
      ((compile store now).query.sql prefixed).toList := by
  have hlinked := (sealed_compile store now).linked naming.statusField.isSome
  have hprefixed : prefixed.statusField.isSome = naming.statusField.isSome := by rw [h.status]
  rw [Query.sql, Query.sql, Statement.text, Statement.text, ← toList_write_spelled rfl,
    ← toList_write_spelled hprefixed]
  refine prefixFrom_write h hlinked.chain (fun part hpart htable => ?_) fun part hpart => ?_
  · obtain ⟨piece, hpiece, hspelled⟩ := List.mem_flatMap.mp hpart
    rcases vetted_of_mem_pieces hpiece with hvetted | rfl
    · obtain ⟨hpart, hsource, hstatus⟩ := Piece.isVetted_of_mem_spelled hvetted hspelled
      exact Piece.faithful hpart hsource htable hstatus
    · obtain rfl := List.mem_singleton.mp hspelled
      exact ⟨(by decide : isSteady ";".toList = true), id, id, fun _ _ => rfl⟩
  · exact ⟨fun hmark => absurd hmark (by decide), fun htable => absurd htable (by simp [hlinked.first part hpart])⟩

/-- A schema stands in front of every table and nowhere else, and can be taken away again. -/
theorem written_with_schema (server : String) (hschema : FileDatabase.isSchemaName schema = true)
    (habsent : ¬ schema.toList <:+: ((compile store now).query.sql ⟨qualifiedName none, status⟩).toList) :
    let query := (compile store now).query
    let plain := query.written ⟨qualifiedName none, status⟩ server
    let qualified := query.written ⟨qualifiedName (some schema), status⟩ server
    qualified = { plain with sql := prefixReferences (schema ++ ".") plain.sql } ∧
      plain = { qualified with sql := Text.replaced (schema ++ ".") "" qualified.sql } ∧
      ∀ front back, qualified.sql.toList = front ++ back → back ≠ [] → isReference front back = false := by
  intro query plain qualified
  have hne : schema ≠ "" := by
    rintro rfl
    exact habsent List.nil_infix
  have hpre : (schema ++ ".").toList ≠ [] := by simp
  have hsql : query.sql ⟨qualifiedName (some schema), status⟩ =
      prefixReferences (schema ++ ".") (query.sql ⟨qualifiedName none, status⟩) := by
    apply String.toList_injective
    rw [prefixReferences, String.toList_ofList, prefixFrom_sql store now (prefixedBy_schema hne)]
  have hremoved : Text.replaced (schema ++ ".") "" (query.sql ⟨qualifiedName (some schema), status⟩) =
      query.sql ⟨qualifiedName none, status⟩ := by
    rw [hsql]
    exact replaced_prefixReferences (isNameChar_of_isSchemaName hschema).2 habsent
  have hfixed : prefixFrom (schema ++ ".").toList [] (query.sql ⟨qualifiedName (some schema), status⟩).toList =
      (query.sql ⟨qualifiedName (some schema), status⟩).toList :=
    prefixFrom_sql store now (prefixedBy_self hschema hne)
  simp only [plain, qualified, Query.sql_written]
  refine ⟨Query.written_eq hsql _ server, Query.written_eq hremoved.symm _ server, fun front back hsplit hback => ?_⟩
  rw [hsplit] at hfixed
  exact isReference_of_prefixFrom_eq hpre hfixed hback

/-- A cross join, with its tables in a schema that no text of the statement mentions. -/
theorem written_with_schema_bz :
    let query := (compile (Store.empty.applyLines ["columns=+work"]).1 0).query
    let plain := query.written ⟨qualifiedName none, none⟩ ""
    let qualified := query.written ⟨qualifiedName (some "bz"), none⟩ ""
    qualified = { plain with sql := prefixReferences ("bz" ++ ".") plain.sql } ∧
      plain = { qualified with sql := Text.replaced ("bz" ++ ".") "" qualified.sql } ∧
      ∀ front back, qualified.sql.toList = front ++ back → back ≠ [] → isReference front back = false := by
  have hpieces : ∀ piece ∈ (compile (Store.empty.applyLines ["columns=+work"]).1 0).query.statement.pieces,
      'z' ∉ (piece.write ⟨qualifiedName none, none⟩).toList := by
    decide +kernel
  have habsent : ¬ "bz".toList <:+:
      ((compile (Store.empty.applyLines ["columns=+work"]).1 0).query.sql ⟨qualifiedName none, none⟩).toList := by
    intro hfound
    have hz : 'z' ∈ "bz".toList := by decide
    rw [Query.sql, Statement.text, toList_write] at hfound
    obtain ⟨piece, hpiece, hmem⟩ := List.mem_flatMap.mp (hfound.subset hz)
    exact hpieces piece hpiece hmem
  exact written_with_schema _ 0 "" (by decide) habsent

end BugReport
