import BugReport.Proofs.Query.Growth

/-! # The custom fields of a request

Custom fields are fetched for three reasons only: a pair of the `filters` parameter names one, or a
resolved column or an entry of the group is one. An entry of the group counts as it is written, with its
direction if it has one; a column of the bars does not count. Every other rule leaves them alone.
-/

namespace BugReport

open Sql (Identifier)
open Parameter (Kind kind?)

/-- Whether a pair of the `filters` parameter names a column. -/
def Store.FiltersPair (s : Store) (column : String) : Prop :=
  ∃ pairs, s.present? "filters" = some pairs ∧ ∃ pair ∈ Text.partsSeq "%26" pairs, ∃ rest,
    Text.cutSeq "%3D" pair = some (column, rest)

namespace Draft

variable {d : Draft} {i : Identifier}

theorem mem_customFields_addCustomField {name : String} :
    i ∈ (d.addCustomField name).customFields ↔ i ∈ d.customFields ∨ i.text = name := by
  unfold addCustomField
  split
  next j hj =>
      have hsame : i.text = name ↔ i = j := by
        rw [← Identifier.text_of_ofName? hj]
        exact ⟨fun h => by cases i; cases j; cases h; rfl, fun h => h ▸ rfl⟩
      rw [hsame]
      split
      next hcontains =>
          have hj : j ∈ d.customFields := List.contains_iff_mem.mp hcontains
          exact ⟨.inl, fun h => h.elim id fun heq => heq ▸ hj⟩
      · simp
  next hnone =>
      have hne : i.text ≠ name := by
        rintro rfl
        simp [Identifier.ofName?, i.valid] at hnone
      exact ⟨.inl, fun h => h.resolve_right hne⟩

section

variable {α : Type} {f : Draft → α → Draft}

/-- A loop fetches what was fetched before and what one of its entries brings. -/
theorem mem_customFields_foldl (custom : CustomFields) {brings : α → Prop}
    (hcustom : ∀ (d : Draft) x, (f d x).custom = d.custom)
    (hstep : ∀ (d : Draft) x, d.custom = custom →
      (i ∈ (f d x).customFields ↔ i ∈ d.customFields ∨ brings x))
    (d : Draft) (hd : d.custom = custom) (xs : List α) :
    i ∈ (xs.foldl f d).customFields ↔ i ∈ d.customFields ∨ ∃ x ∈ xs, brings x := by
  induction xs generalizing d with
  | nil => simp
  | cons x xs ih =>
      rw [List.foldl_cons, ih _ ((hcustom d x).trans hd), hstep d x hd, or_assoc, List.exists_mem_cons_iff]

end

/-! ## Rules that fetch none -/

theorem apart_customFields : Apart customFields :=
  ⟨fun _ _ => rfl, fun _ _ => rfl, fun _ _ => rfl, fun _ _ => rfl, fun _ _ => rfl⟩

@[simp] theorem customFields_warn (diagnostics : List Diagnostic) :
    (d.warn diagnostics).customFields = d.customFields := rfl

@[simp] theorem customFields_requireName (name : String) :
    (d.requireName name).customFields = d.customFields := rfl

@[simp] theorem customFields_addClauses (clauses : List Sql.Clause) :
    (d.addClauses clauses).customFields = d.customFields := rfl

theorem customFields_prepare : d.prepare.customFields = d.customFields :=
  apart_customFields.prepare d

theorem customFields_filterField (now : Int) (name value : String) (kind : Kind) :
    (d.filterField now name value kind).1.customFields = d.customFields := by
  have hshown := apart_customFields.showFiltered d name value kind
  unfold filterField
  dsimp only
  split
  · exact hshown
  · exact hshown

theorem customFields_addFilter (now : Int) (name value : String) (kind : Kind) :
    (d.addFilter now name value kind).customFields = d.customFields :=
  d.customFields_filterField now name value kind

theorem customFields_conclude : d.conclude.customFields = d.customFields := by
  have hsearch (d : Draft) : d.applySearch.customFields = d.customFields := by
    unfold applySearch
    split <;> rfl
  exact apart_customFields.conclude d hsearch

theorem customFields_settled : d.settled.customFields = d.customFields :=
  (apart_customFields.settleColumns _).trans
    ((apart_customFields.hideGroup _).trans (apart_customFields.applySort d))

theorem customFields_applyBar : d.applyBar.customFields = d.customFields :=
  apart_customFields.applyBar d

/-! ## Pairs -/

theorem mem_customFields_applyPair {now : Int} {pair : String} :
    i ∈ (d.applyPair now pair).customFields ↔ i ∈ d.customFields ∨
      d.custom.holds i.text = true ∧ ∃ rest, Text.cutSeq "%3D" pair = some (i.text, rest) := by
  unfold applyPair
  split
  next hcut => simp [hcut]
  next name rest hcut =>
      have hnamed : (∃ rest, Text.cutSeq "%3D" pair = some (i.text, rest)) ↔ i.text = name := by
        simp [hcut, eq_comm]
      rw [hnamed]
      dsimp only
      split
      next hholds =>
          have hadded : i ∈ (d.addCustomField name).customFields ↔
              i ∈ d.customFields ∨ d.custom.holds i.text = true ∧ i.text = name := by
            rw [mem_customFields_addCustomField]
            exact or_congr_right ⟨fun h => ⟨h ▸ hholds, h⟩, And.right⟩
          split
          · rw [customFields_addFilter]
            exact hadded
          · exact hadded
      next hholds =>
          have hnot : ¬ (d.custom.holds i.text = true ∧ i.text = name) := by
            rintro ⟨hi, rfl⟩
            exact hholds hi
          have hkept : i ∈ d.customFields ↔
              i ∈ d.customFields ∨ d.custom.holds i.text = true ∧ i.text = name :=
            ⟨.inl, fun h => h.resolve_right hnot⟩
          split
          · split
            · rw [customFields_addFilter]
              exact hkept
            · exact hkept
          · exact hkept

/-- Of the parameters only the one that holds pairs fetches custom fields. -/
theorem mem_customFields_applyParameter {now : Int} {name value : String} {kind : Kind} :
    i ∈ (d.applyParameter now (name, kind, value)).customFields ↔ i ∈ d.customFields ∨
      kind = .filters ∧ d.custom.holds i.text = true ∧
        ∃ pair ∈ Text.partsSeq "%26" value, ∃ rest, Text.cutSeq "%3D" pair = some (i.text, rest) := by
  unfold applyParameter
  dsimp only
  split
  · rw [mem_customFields_foldl d.custom (fun d pair => (d.growsTo_applyPair now pair).custom)
      (fun d' pair hd' => by rw [mem_customFields_applyPair, hd']) d rfl]
    simp only [true_and]
    exact or_congr_right ⟨fun ⟨pair, hpair, hi, hcut⟩ => ⟨hi, pair, hpair, hcut⟩,
      fun ⟨hi, pair, hpair, hcut⟩ => ⟨pair, hpair, hi, hcut⟩⟩
  · rw [customFields_addClauses, customFields_filterField]
    simp
  next hkind _ =>
      rw [customFields_addFilter]
      have hne : kind ≠ .filters := fun heq => by simp [heq] at hkind
      simp [hne]

theorem kind?_eq_filters {name : String} : kind? name = some .filters ↔ name = "filters" := by
  have hschema : ∀ entry ∈ Parameter.schema, entry.2 = .filters → entry.1 = "filters" := by decide
  constructor
  · exact fun h => hschema _ (mem_of_lookup h) rfl
  · rintro rfl
    rfl

theorem mem_customFields_applyParameters {now : Int} :
    i ∈ (d.applyParameters now).customFields ↔ i ∈ d.customFields ∨
      d.custom.holds i.text = true ∧ d.store.FiltersPair i.text := by
  rw [applyParameters, mem_customFields_foldl d.custom
    (fun d parameter => (d.growsTo_applyParameter now parameter).custom)
    (fun d' parameter hd' => by rw [mem_customFields_applyParameter, hd']) d rfl]
  refine or_congr_right ⟨?_, ?_⟩
  · rintro ⟨⟨name, kind, value⟩, hmem, rfl, hi, hpair⟩
    obtain ⟨hkind, hvalue⟩ := mem_presentParameters.mp hmem
    rw [kind?_eq_filters.mp hkind] at hvalue
    exact ⟨hi, value, hvalue, hpair⟩
  · rintro ⟨hi, value, hvalue, hpair⟩
    exact ⟨("filters", .filters, value), mem_presentParameters.mpr ⟨rfl, hvalue⟩, rfl, hi, hpair⟩

/-! ## Columns -/

/-- A resolved column is fetched as a custom field if it is one and names no field. -/
theorem mem_customFields_fetchColumn {column : String} :
    i ∈ (d.fetchColumn column).customFields ↔ i ∈ d.customFields ∨
      i.text = column ∧ Field.ofName? column = none ∧ d.custom.holds column = true := by
  unfold fetchColumn
  split
  next hfield =>
      have hsome : Field.ofName? column ≠ none := Option.isSome_iff_ne_none.mp hfield
      simp [hsome]
  next hfield =>
      have hnone : Field.ofName? column = none := by simpa using hfield
      split
      next hholds => simp [mem_customFields_addCustomField, hnone, hholds]
      next hholds => simp [hholds]

theorem mem_customFields_fetchGroup {column : String} :
    i ∈ (d.fetchGroup column).customFields ↔ i ∈ d.customFields ∨
      i.text = column ∧ Field.ofName? column = none ∧ d.custom.holds column = true := by
  unfold fetchGroup
  split
  next hcustom =>
      rw [Bool.and_eq_true, Option.isNone_iff_eq_none] at hcustom
      simp [mem_customFields_addCustomField, hcustom]
  next hcustom =>
      rw [Bool.and_eq_true, Option.isNone_iff_eq_none] at hcustom
      simp [hcustom]

theorem groupEntries_of_kept {s s' : Store} (h : s.Kept s') : groupEntries s' = groupEntries s := by
  rw [groupEntries, groupEntries, h.group?]

theorem mem_customFields_arrange : i ∈ d.arrange.1.customFields ↔ i ∈ d.customFields ∨
    Field.ofName? i.text = none ∧ d.custom.holds i.text = true ∧
      (i.text ∈ d.arrange.2 ∨ i.text ∈ groupEntries d.arrange.1.store) := by
  have hsettled : d.GrowsTo d.settled := d.growsTo_applySort.trans d.growsTo_settled
  have hcolumns : d.GrowsTo d.withColumns := hsettled.trans d.growsTo_withColumns
  have hgroup : groupEntries d.arrange.1.store = groupEntries d.withColumns.store := by
    rw [groupEntries_of_kept d.growsTo_arrange.store, groupEntries_of_kept hcolumns.store]
  have hentries (entries : List String) :
      (∃ column ∈ entries, i.text = column ∧ Field.ofName? column = none ∧
        d.custom.holds column = true) ↔
      Field.ofName? i.text = none ∧ d.custom.holds i.text = true ∧ i.text ∈ entries := by
    constructor
    · rintro ⟨column, hmem, rfl, hnone, hholds⟩
      exact ⟨hnone, hholds, hmem⟩
    · rintro ⟨hnone, hholds, hmem⟩
      exact ⟨_, hmem, rfl, hnone, hholds⟩
  rw [hgroup, arrange_fst, customFields_applyBar, withGroup,
    mem_customFields_foldl d.custom (fun d column => (d.growsTo_fetchGroup column).custom)
      (fun d' column hd' => by rw [mem_customFields_fetchGroup, hd']) _ hcolumns.custom,
    hentries, withColumns,
    mem_customFields_foldl d.custom (fun d column => (d.growsTo_fetchColumn column).custom)
      (fun d' column hd' => by rw [mem_customFields_fetchColumn, hd']) _ hsettled.custom,
    hentries, customFields_settled, or_assoc, ← and_or_left, ← and_or_left]

end Draft

/-! ## Requests -/

theorem columns_compile (store : Store) (now : Int) : (compile store now).query.columns =
    ((Draft.start store).prepare.applyParameters now).conclude.arrange.2 := by
  simp only [compile]

theorem Draft.customFields_assemble (d : Draft) : d.assemble.1.customFields = d.customFields := rfl

theorem customFields_compile (store : Store) (now : Int) :
    (compile store now).query.customFields = (drafted store now).customFields := by
  rw [← Draft.customFields_assemble]
  simp only [compile, drafted]

/-- The custom fields that a request fetches. -/
theorem mem_customFields_compile {store : Store} {now : Int} {i : Identifier} :
    i ∈ (compile store now).query.customFields ↔
      (CustomFields.ofStore store).holds i.text = true ∧
        (store.FiltersPair i.text ∨ Field.ofName? i.text = none ∧
          (i.text ∈ (compile store now).query.columns ∨
            i.text ∈ Draft.groupEntries (compile store now).store)) := by
  have hprepared : (Draft.start store).GrowsTo (Draft.start store).prepare :=
    Draft.growsTo_prepare _
  have hpair : (Draft.start store).prepare.store.FiltersPair i.text ↔ store.FiltersPair i.text := by
    have hfilters : "filters" ∉ Store.writtenNames := by decide
    rw [Store.FiltersPair, hprepared.store.present? hfilters]
    rfl
  have hstore : Draft.groupEntries (compile store now).store =
      Draft.groupEntries (drafted store now).store := by
    rw [store_compile]
    exact Draft.groupEntries_of_kept (Draft.growsTo_assemble _).store
  rw [customFields_compile, columns_compile, hstore, drafted, Draft.mem_customFields_arrange,
    Draft.customFields_conclude, Draft.mem_customFields_applyParameters,
    Draft.customFields_prepare, hpair, (growsTo_concluded store now).custom, hprepared.custom]
  have hnone : i ∉ (Draft.start store).customFields := List.not_mem_nil
  simp only [hnone, false_or]
  rw [and_left_comm, ← and_or_left]
  rfl

end BugReport
