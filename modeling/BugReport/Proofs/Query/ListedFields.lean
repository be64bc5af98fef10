import BugReport.Proofs.Query.ColumnChanges
import BugReport.Proofs.Query.Pairs

/-! # Listed custom fields

Custom fields are given one by one in a list. The list is read at its commas, and each of its names is a custom field
that is fetched when the caller asks for it. But the parameter that holds the list admits words only, so a list
of several names is never stored.
-/

namespace BugReport

open ColumnSelection (arranged mem_arrangement)
open Parameter (Kind counts)
open Sql (Identifier Item)

variable {s : Store} {names : List Identifier} {name : Identifier} {column : String} {now : Int}

/-! ## The list -/

/-- Names as one writes them in a list. -/
def listText (names : List Identifier) : String :=
  String.intercalate "," (names.map Identifier.text)

theorem toList_listText (names : List Identifier) :
    (listText names).toList = [','].intercalate (names.map fun name => name.text.toList) := by
  rw [listText, String.toList_intercalate, List.map_map]
  rfl

theorem comma_not_mem_name (name : Identifier) : ',' ∉ name.text.toList :=
  Sql.not_mem_identifier name.valid (by decide)

/-- A list is read back name by name. -/
theorem parts_listText (hnames : names ≠ []) : Text.parts ',' (listText names) = names.map Identifier.text := by
  have hcomma : ∀ entry ∈ names.map fun name => name.text.toList, ',' ∉ entry :=
    List.forall_mem_map.mpr fun name _ => comma_not_mem_name name
  rw [Text.parts, toList_listText, List.splitOn_intercalate ',' hcomma (by simpa using hnames), List.map_map]
  exact List.map_congr_left fun name _ => String.ofList_toList

theorem listText_singleton (name : Identifier) : listText [name] = name.text := by
  simp [listText]

theorem comma_mem_listText (first second : Identifier) (rest : List Identifier) :
    ',' ∈ (listText (first :: second :: rest)).toList := by
  rw [toList_listText, List.map_cons, List.map_cons, List.intercalate_cons_cons]
  simp

theorem trim_listText (names : List Identifier) : Text.trim (listText names).toList = (listText names).toList := by
  rw [toList_listText]
  exact trim_intercalate (fun name _ => comma_not_mem_name name)
    fun name _ => Text.trim_of_no_blank fun c hc => Sql.isBlank_of_mem_identifier name.valid hc

theorem trimmed_listText (names : List Identifier) : Text.trimmed (listText names) = listText names := by
  rw [Text.trimmed, trim_listText, String.ofList_toList]

theorem counts_listText (hnames : names ≠ []) : counts (listText names) = true := by
  obtain ⟨first, rest, rfl⟩ := List.exists_cons_of_ne_nil hnames
  cases rest with
  | nil =>
      have hne {text : String} (hinvalid : Sql.isIdentifier text.toList = false) : first.text ≠ text := by
        rintro rfl
        rw [first.valid] at hinvalid
        cases hinvalid
      rw [listText_singleton, counts, Bool.and_eq_true, bne_iff_ne, bne_iff_ne]
      exact ⟨hne (by decide), hne (by decide)⟩
  | cons second rest => exact Parameter.counts_of_mem (by decide) (comma_mem_listText first second rest)

/-! ## Setting the list -/

/-- The class of words has no comma. -/
theorem admits_listText_iff (hnames : names ≠ []) : Kind.value.Admits (listText names) ↔ names.length = 1 := by
  have hchars : Kind.value.Admits (listText names) ↔ ∀ c ∈ (listText names).toList, isWordChar c = true := by
    rw [Kind.Admits, trim_listText]
    rfl
  obtain ⟨first, rest, rfl⟩ := List.exists_cons_of_ne_nil hnames
  rw [hchars]
  cases rest with
  | nil =>
      rw [listText_singleton]
      exact iff_of_true (fun c hc => Sql.isWord_of_mem_identifier first.valid hc) rfl
  | cons second rest =>
      refine iff_of_false (fun hwords => ?_) (by simp)
      exact absurd (hwords ',' (comma_mem_listText first second rest)) (by decide)

namespace Store

theorem set_listText (hnames : names ≠ []) (s : Store) : s.set "customfields" (listText names) =
    if names.length = 1 then .ok { s with explicit := s.explicit.set "customfields" (listText names) }
    else .error (.invalidParameter "customfields" (listText names) "^[A-Za-z0-9_]*$") := by
  have hkind : Parameter.kind? "customfields" = some .value := by decide
  have hstored : Parameter.storedForm "customfields" (listText names) = listText names := rfl
  rw [set, Parameter.validate_of_ne_debug hkind (by decide), trimmed_listText]
  by_cases hone : names.length = 1
  · simp only [(admits_listText_iff hnames).mpr hone, hone, if_true, hstored]
  · simp only [mt (admits_listText_iff hnames).mp hone, hone, if_false]
    rfl

/-! ## Reading the list -/

/-- Without the parameter that makes all columns without a heading custom fields, these are the names of the list and
the columns with the start that custom fields share. -/
theorem holds_iff_listed (hnames : names ≠ []) (hlist : s.get? "customfields" = some (listText names))
    (hlisted : s.get? "implicitcustom" ≠ some "true") : (CustomFields.ofStore s).holds column = true ↔
      column ∈ names.map Identifier.text ∨
        ∃ start, s.get? "customprefix" = some start ∧ start ≠ "" ∧ start.toList <+: column.toList := by
  have hpresent : s.present? "customfields" = some (listText names) := by
    rw [present?, hlist, Option.filter_some, if_pos (counts_listText hnames)]
  have hunheaded : (s.get? "implicitcustom" == some "true") = false := by simpa using hlisted
  simp only [CustomFields.holds, CustomFields.ofStore, hpresent, hunheaded, parts_listText hnames]
  cases s.get? "customprefix" with
  | none => simp
  | some start => simp [Text.startsWith, List.isPrefixOf_iff_prefix, or_comm]

end Store

/-! ## Asked columns -/

/-- The columns that the caller adds to the default list or puts on a list of the caller's. -/
def ColumnsExpr.asked : ColumnsExpr → List String
  | .delta edits => ColumnEdit.columnsOf .add edits
  | .replace columns => columns.map ColumnRef.name

theorem mem_arranged_of_asked {defaults added removed : List String} {expr : ColumnsExpr} (h : column ∈ expr.asked) :
    column ∈ arranged defaults added removed expr := by
  cases expr with
  | delta edits => exact mem_arrangement.mpr (.inl h)
  | replace columns => exact List.mem_eraseDups.mpr h

theorem mem_columns_of_asked (h : column ∈ s.columnsExpr.asked) (now : Int) :
    column ∈ (compile s now).query.columns := by
  rw [columns_compile_eq_arranged]
  exact mem_arranged_of_asked h

theorem item_mem_of_customFields (h : name ∈ (compile s now).query.customFields) :
    Item.ofColumn "bugs" name.text name.text ∈ (compile s now).query.statement.items := by
  have hitems (d : Draft) : d.assemble.2.items = d.items := rfl
  rw [customFields_compile] at h
  rw [statement_compile, hitems, Draft.items]
  exact List.mem_append_right _ (List.mem_map_of_mem h)

/-- What a store makes of a list of custom fields. -/
structure Store.ListsFields (s : Store) (names : List Identifier) : Prop where
  custom : ∀ column, (CustomFields.ofStore s).holds column = true ↔ column ∈ names.map Identifier.text ∨
    ∃ start, s.get? "customprefix" = some start ∧ start ≠ "" ∧ start.toList <+: column.toList
  shown : ∀ name ∈ names, name.text ∈ s.columnsExpr.asked → ∀ now, name.text ∈ (compile s now).query.columns
  /-- The name of a built-in field stands for that field. -/
  selected : ∀ name ∈ names, Field.ofName? name.text = none → ∀ now, name.text ∈ (compile s now).query.columns →
    Item.ofColumn "bugs" name.text name.text ∈ (compile s now).query.statement.items

/-- A list of custom fields is stored exactly if it has a single name. Were a longer one stored, its names would be
custom fields as well, and those that the caller asks for would be selected. -/
theorem listed_fields (hnames : names ≠ []) :
    (∀ s : Store, s.set "customfields" (listText names) =
      if names.length = 1 then .ok { s with explicit := s.explicit.set "customfields" (listText names) }
      else .error (.invalidParameter "customfields" (listText names) "^[A-Za-z0-9_]*$")) ∧
    ∀ s : Store, s.get? "customfields" = some (listText names) → s.get? "implicitcustom" ≠ some "true" →
      s.ListsFields names := by
  refine ⟨Store.set_listText hnames, fun s hlist hlisted => ?_⟩
  constructor
  · exact fun column => Store.holds_iff_listed hnames hlist hlisted
  · exact fun name _ hasked now => mem_columns_of_asked hasked now
  · intro name hname hfield now hcolumn
    have hholds : (CustomFields.ofStore s).holds name.text = true :=
      (Store.holds_iff_listed hnames hlist hlisted).mpr (.inl (List.mem_map_of_mem hname))
    exact item_mem_of_customFields (mem_customFields_compile.mpr ⟨hholds, .inr ⟨hfield, .inl hcolumn⟩⟩)

/-- A list of one name, which the caller adds to the default columns. -/
theorem listed_fields_team_size :
    Item.ofColumn "bugs" "team_size" "team_size" ∈
      (compile (Store.empty.applyLines ["customfields=team_size", "columns=+team_size"]).1 0).query.statement.items := by
  let name : Identifier := ⟨"team_size", by decide⟩
  have hlists := (listed_fields (List.cons_ne_nil name [])).2
    (Store.empty.applyLines ["customfields=team_size", "columns=+team_size"]).1
    (by decide +kernel) (by decide +kernel)
  have hmem : name ∈ [name] := List.mem_singleton_self name
  exact hlists.selected name hmem (by decide +kernel) 0 (hlists.shown name hmem (by decide +kernel) 0)

/-- A list of two names is refused, and neither of them is a custom field. -/
theorem list_of_two_refused : listText [⟨"team", by decide⟩, ⟨"size", by decide⟩] = "team,size" ∧
    Store.empty.set "customfields" "team,size" =
      .error (.invalidParameter "customfields" "team,size" "^[A-Za-z0-9_]*$") ∧
    ∀ column ∈ ["team", "size"],
      (CustomFields.ofStore (Store.empty.applyLines ["customfields=team,size"]).1).holds column = false := by
  have htext : listText [⟨"team", by decide⟩, ⟨"size", by decide⟩] = "team,size" := by decide +kernel
  refine ⟨htext, ?_, by decide +kernel⟩
  rw [← htext, Store.set_listText (by decide)]
  rfl

end BugReport
