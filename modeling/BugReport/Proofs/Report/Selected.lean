import BugReport.Proofs.Query.CustomFields
import BugReport.Proofs.Query.SortScope
import BugReport.Report.Table

/-! # What a renderer reads is selected

The cells, headings and bars of a table are read under labels of the statement. Columns that name a field
are fetched wherever they come from. Custom fields are fetched for the resolved columns, but not for the
bars, and for the group only if its entry is nothing but the column.
-/

namespace BugReport

open Sql

/-- The columns that a renderer reads: the resolved ones, that of the group and that of the bars. -/
def Renderer.readColumns (r : Renderer) : List String :=
  r.query.columns ++ (r.groupColumn?.toList ++ (r.store.present? "bar").toList)

/-- The renderer of a compiled request. -/
def Compiled.renderer (c : Compiled) (settings : Settings) (now : Int) : Renderer :=
  { store := c.store, settings, query := c.query, now }

/-- The column of the group is one of the columns that the group names. -/
theorem Compiled.mem_readColumns {c : Compiled} {settings : Settings} {now : Int} {column : String}
    (h : column ∈ (c.renderer settings now).readColumns) :
    column ∈ c.query.columns ∨ (∃ group ∈ c.store.group?, column ∈ sortColumns group) ∨
      c.store.present? "bar" = some column := by
  simp only [Renderer.readColumns, renderer, List.mem_append, Option.mem_toList] at h
  refine h.imp id (Or.imp ?_ id)
  intro hgroup
  obtain ⟨group, hgroup, hfirst⟩ := Option.bind_eq_some_iff.mp hgroup
  obtain ⟨entry, hentry, hword⟩ := Option.bind_eq_some_iff.mp hfirst
  exact ⟨group, hgroup, List.mem_filterMap.mpr ⟨entry, List.mem_of_head? hentry, hword⟩⟩

/-! ## Labels -/

namespace Field

/-- The labels under which a field is fetched. -/
def labels (f : Field) : List String :=
  (f.items .real).map Item.label

theorem labels_items (f : Field) (person : PersonName) :
    (f.items person).map Item.label = f.labels := by
  cases person with
  | login => cases f <;> rfl
  | real => rfl

/-- A field is read under one of its labels, but for the short form of the flags and the latest
comment. -/
theorem resultKey_mem_labels : ∀ {f : Field}, f ≠ .quickflag → f ≠ .lastcomment →
    Catalog.resultKey f.name = "id" ∨ Catalog.resultKey f.name ∈ f.labels := by
  decide +kernel

/-- The titles of a field's cells are made of its own labels, the id and the alias. -/
theorem titleKeys_subset : ∀ f : Field, ∀ keys ∈ Catalog.titleKeys? f.name, ∀ key ∈ keys,
    key = "id" ∨ key ∈ nickname.labels ∨ f ≠ .quickflag ∧ key ∈ f.labels := by
  decide +kernel

end Field

theorem FieldSet.selects_of_contains {required : FieldSet} {f : Field}
    (h : required.contains f = true) (hne : f ≠ .quickflag) : required.selects f = true := by
  cases f with
  | priority | severity => rfl
  | quickflag => exact absurd rfl hne
  | _ => exact h

namespace Draft

variable {d : Draft} {f : Field} {column label : String}

/-- A statement selects the id, the labels of its fields, and the custom fields. -/
theorem mem_labels_assemble : label ∈ d.assemble.2.labels ↔
    label = "id" ∨ (∃ f, d.required.selects f = true ∧ label ∈ f.labels) ∨
      ∃ i ∈ d.customFields, i.text = label := by
  have hfields : label ∈ (d.required.items (personName d.store)).map Item.label ↔
      ∃ f, d.required.selects f = true ∧ label ∈ f.labels := by
    simp [FieldSet.items, List.map_flatMap, Field.labels_items, Field.mem_all]
  have hcustom : label ∈ (d.customFields.map fun i => Item.ofColumn "bugs" i.text i.text).map
      Item.label ↔ ∃ i ∈ d.customFields, i.text = label := by
    simp [Item.ofColumn, Item.label]
  have hlabels : d.assemble.2.labels = "id" ::
      ((d.required.items (personName d.store)).map Item.label ++
        (d.customFields.map fun i => Item.ofColumn "bugs" i.text i.text).map Item.label) := by
    rw [← List.map_append]
    rfl
  rw [hlabels, List.mem_cons, List.mem_append, hfields, hcustom]

theorem counted_assemble (d : Draft) :
    d.assemble.2.counted = (d.store.get? "format" == some "count") := rfl

/-! ## Required columns -/

theorem contains_fetchColumn (hf : Field.ofName? column = some f) :
    (d.fetchColumn column).required.contains f = true := by
  rw [fetchColumn, if_pos (by rw [hf]; rfl)]
  exact contains_requireName hf

/-- The fields of the resolved columns are required. -/
theorem contains_arrange_of_resolved (h : column ∈ d.arrange.2) (hf : Field.ofName? column = some f) :
    d.arrange.1.required.contains f = true := by
  obtain ⟨d', -, hgrows⟩ := GrowsTo.exists_turn (fun d column => d.growsTo_fetchColumn column)
    d.settled h
  have hfetched := hgrows.required f (contains_fetchColumn hf)
  rw [← withColumns] at hfetched
  rw [arrange_fst]
  exact (d.growsTo_withGroup.trans (growsTo_applyBar _)).required f hfetched

/-- The field of the bars is required. -/
theorem contains_arrange_of_bar (h : d.arrange.1.store.present? "bar" = some column)
    (hf : Field.ofName? column = some f) : d.arrange.1.required.contains f = true := by
  have hbar : "bar" ∉ Store.writtenNames := by decide
  rw [arrange_fst] at h ⊢
  rw [(d.withGroup.growsTo_applyBar).store.present? hbar] at h
  rw [applyBar, h]
  exact contains_requireName hf

/-- The latest comment is required when it is asked for. -/
theorem contains_conclude_of_lastComment {value : String}
    (h : d.store.present? "lastcomment" = some value) :
    d.conclude.required.contains .lastcomment = true := by
  have hcomment : "lastcomment" ∉ Store.writtenNames := by decide
  rw [← d.growsTo_applyListFormat_applyFlag.store.present? hcomment] at h
  have hrequired : d.applyListFormat.applyFlag.applyLastComment.required.contains .lastcomment =
      true := by
    rw [applyLastComment, h]
    simp [require]
  exact d.growsTo_conclude_of_lastComment.required _ hrequired

theorem contains_conclude_nickname : d.conclude.required.contains .nickname = true := by
  simp [conclude, require]

end Draft

/-! ## Requests -/

section

variable {store : Store} {now : Int} {column : String} {f : Field}

theorem required_compile (store : Store) (now : Int) :
    (compile store now).query.required = (drafted store now).required := by
  have hassemble (d : Draft) : d.assemble.1.required = d.required := rfl
  rw [← hassemble]
  simp only [compile, drafted]

theorem contains_of_resolved (h : column ∈ (compile store now).query.columns)
    (hf : Field.ofName? column = some f) : (compile store now).query.required.contains f = true := by
  rw [columns_compile] at h
  rw [required_compile, drafted]
  exact Draft.contains_arrange_of_resolved h hf

theorem contains_nickname (store : Store) (now : Int) :
    (compile store now).query.required.contains .nickname = true := by
  rw [required_compile, drafted]
  exact (Draft.growsTo_arrange _).required _ Draft.contains_conclude_nickname

theorem contains_lastComment {value : String} (h : store.present? "lastcomment" = some value)
    (now : Int) :
    (compile store now).query.required.contains .lastcomment = true := by
  have hname : "lastcomment" ∉ Store.writtenNames := by decide
  have hpresent := (growsTo_filtered store now).store.present? hname
  rw [required_compile, drafted]
  exact (Draft.growsTo_arrange _).required _
    (Draft.contains_conclude_of_lastComment (hpresent.trans h))

/-- Every field that a renderer reads is required. -/
theorem contains_of_mem_readColumns (hstore : store.Reachable) {settings : Settings} {instant : Int}
    (h : column ∈ ((compile store now).renderer settings instant).readColumns)
    (hf : Field.ofName? column = some f) : (compile store now).query.required.contains f = true := by
  rcases Compiled.mem_readColumns h with hresolved | ⟨group, hgroup, hcolumn⟩ | hbar
  · exact contains_of_resolved hresolved hf
  · -- The sort list starts with the group.
    have hstart := ((kept_compile store now).reachable hstore).coherent.startsWithGroup hgroup
    rw [required_compile]
    exact contains_drafted (hstart.sortColumns_subset hcolumn) hf
  · have hname : "bar" ∉ Store.writtenNames := by decide
    rw [store_compile, (Draft.growsTo_assemble _).store.present? hname, drafted] at hbar
    rw [required_compile, drafted]
    exact Draft.contains_arrange_of_bar hbar hf

/-- The labels of a request's statement. -/
theorem mem_labels_compile {label : String} : label ∈ (compile store now).query.statement.labels ↔
    label = "id" ∨ (∃ f, (compile store now).query.required.selects f = true ∧ label ∈ f.labels) ∨
      ∃ i ∈ (compile store now).query.customFields, i.text = label := by
  rw [statement_compile, required_compile, customFields_compile, Draft.mem_labels_assemble]

theorem resultKey_eq_self
    (h : ∀ f, Field.ofName? column = some f → f = .quickflag ∨ f = .lastcomment) :
    Catalog.resultKey column = column := by
  have hkeys : ∀ entry ∈ Catalog.resultKeys, ∃ f ∈ Field.ofName? entry.1,
      ¬ (f = .quickflag ∨ f = .lastcomment) := by decide
  unfold Catalog.resultKey
  cases hlookup : Catalog.resultKeys.lookup column with
  | none => rfl
  | some key =>
      obtain ⟨f, hf, hne⟩ := hkeys _ (mem_of_lookup hlookup)
      exact absurd (h f hf) hne

/-- Whether a custom field of a request is fetched, or a field has a label of its name. -/
def Compiled.FindsCustom (c : Compiled) (store : Store) (column : String) : Prop :=
  (∃ f, c.query.required.selects f = true ∧ column ∈ f.labels) ∨ store.FiltersPair column ∨
    Field.ofName? column = none ∧
      (column ∈ c.query.columns ∨ column ∈ Draft.groupEntries c.store)

theorem mem_labels_compile_of_custom (hidentifier : isIdentifier column.toList = true)
    (hcustom : (CustomFields.ofStore store).holds column = true)
    (hfield : ∀ f, Field.ofName? column = some f → f = .quickflag ∨ f = .lastcomment) :
    Catalog.resultKey column ∈ (compile store now).query.statement.labels ↔
      (compile store now).FindsCustom store column := by
  have hid : column ≠ "id" := by
    rintro rfl
    exact absurd (hfield .id (by decide)) (by decide)
  have hfetched : (∃ i ∈ (compile store now).query.customFields, i.text = column) ↔
      (⟨column, hidentifier⟩ : Identifier) ∈ (compile store now).query.customFields := by
    constructor
    · rintro ⟨i, hi, rfl⟩
      exact hi
    · exact fun hi => ⟨_, hi, rfl⟩
  rw [resultKey_eq_self hfield, mem_labels_compile, hfetched, mem_customFields_compile]
  simp [hid, hcustom, Compiled.FindsCustom]

end

/-- What the statement of a compiled request selects for its renderer. -/
structure Compiled.Selects (c : Compiled) (store : Store) (r : Renderer) : Prop where
  /-- The rows are listed and not counted. -/
  listed : c.query.statement.counted = false
  fields : ∀ column ∈ r.readColumns, ∀ f, Field.ofName? column = some f → f ≠ .quickflag →
    f ≠ .lastcomment → Catalog.resultKey column ∈ c.query.statement.labels
  /-- Custom fields that no field stands for. -/
  custom : ∀ column ∈ r.readColumns, isIdentifier column.toList = true →
    (CustomFields.ofStore store).holds column = true →
    (∀ f, Field.ofName? column = some f → f = .quickflag ∨ f = .lastcomment) →
    (Catalog.resultKey column ∈ c.query.statement.labels ↔ c.FindsCustom store column)
  classes : ∀ key ∈ ["priority", "severity"], key ∈ c.query.statement.labels
  titles : ∀ column ∈ c.query.columns, (Field.ofName? column).isSome →
    ∀ keys ∈ Catalog.titleKeys? column, ∀ key ∈ keys, key ∈ c.query.statement.labels
  comment : (c.store.present? "lastcomment").isSome → "thetext" ∈ c.query.statement.labels

/-- A renderer finds every field that it reads among the labels of the statement, and a custom field
exactly if it is resolved, named by a pair, or written alone as an entry of the group, or if its name is a
label anyway. -/
theorem selects_read {store : Store} (hstore : store.Reachable)
    (hformat : store.get? "format" ≠ some "count") (now : Int) (settings : Settings) (instant : Int) :
    (compile store now).Selects store ((compile store now).renderer settings instant) where
  listed := by
    have hname : "format" ∉ Store.writtenNames := by decide
    have hget : (drafted store now).store.get? "format" = store.get? "format" :=
      (growsTo_drafted store now).store.get? hname
    rw [statement_compile, Draft.counted_assemble, hget]
    exact beq_eq_false_iff_ne.mpr hformat
  fields column hcolumn f hf hflag hcomment := by
    have hselects := FieldSet.selects_of_contains (contains_of_mem_readColumns hstore hcolumn hf) hflag
    rw [← Field.name_of_ofName? hf, mem_labels_compile]
    exact (Field.resultKey_mem_labels hflag hcomment).imp id fun hkey => .inl ⟨f, hselects, hkey⟩
  custom _ _ hidentifier hcustom hfield := mem_labels_compile_of_custom hidentifier hcustom hfield
  classes := by
    have hclasses : ∀ key ∈ ["priority", "severity"], ∃ f ∈ [Field.priority, Field.severity],
        key ∈ f.labels := by decide
    intro key hkey
    obtain ⟨f, hf, hlabel⟩ := hclasses key hkey
    refine mem_labels_compile.mpr (.inr (.inl ⟨f, ?_, hlabel⟩))
    rcases List.mem_pair.mp hf with rfl | rfl <;> rfl
  titles column hcolumn hsome keys hkeys key hkey := by
    obtain ⟨f, hf⟩ := Option.isSome_iff_exists.mp hsome
    have hrequired := contains_of_resolved hcolumn hf
    rw [← Field.name_of_ofName? hf] at hkeys
    refine mem_labels_compile.mpr ((f.titleKeys_subset keys hkeys key hkey).imp id fun hlabel => .inl ?_)
    rcases hlabel with halias | ⟨hflag, hown⟩
    · exact ⟨.nickname, FieldSet.selects_of_contains (contains_nickname store now) (by decide), halias⟩
    · exact ⟨f, FieldSet.selects_of_contains hrequired hflag, hown⟩
  comment hcomment := by
    have hname : "lastcomment" ∉ Store.writtenNames := by decide
    rw [(kept_compile store now).present? hname] at hcomment
    obtain ⟨value, hvalue⟩ := Option.isSome_iff_exists.mp hcomment
    have hselects := FieldSet.selects_of_contains (contains_lastComment hvalue now) (by decide)
    exact mem_labels_compile.mpr (.inr (.inl ⟨.lastcomment, hselects, by decide⟩))

/-- All that is read at once: a group with a direction, bars, the latest comment and a custom field. -/
theorem selects_read_combined :
    (compile (Store.empty.applyLines ["columns=id,cf_team,blocks", "group=product desc", "bar=to",
        "lastcomment=1"]).1 0).Selects
      (Store.empty.applyLines ["columns=id,cf_team,blocks", "group=product desc", "bar=to",
        "lastcomment=1"]).1
      ((compile (Store.empty.applyLines ["columns=id,cf_team,blocks", "group=product desc", "bar=to",
        "lastcomment=1"]).1 0).renderer {} 0) :=
  selects_read (Store.Reachable.empty.applyLines _) (by decide +kernel) 0 {} 0

/-- Custom fields that are read for the bars, or for a group that is written with a direction, are not
selected for that. -/
theorem custom_fields_unselected :
    isIdentifier "cf_team".toList = true ∧
    ((Store.empty.applyLines ["bar=cf_team"]).1.get? "format" ≠ some "count" ∧
      "cf_team" ∈ ((compile (Store.empty.applyLines ["bar=cf_team"]).1 0).renderer {} 0).readColumns ∧
      (CustomFields.ofStore (Store.empty.applyLines ["bar=cf_team"]).1).holds "cf_team" = true ∧
      Catalog.resultKey "cf_team" ∉
        (compile (Store.empty.applyLines ["bar=cf_team"]).1 0).query.statement.labels) ∧
    ((Store.empty.applyLines
        ["group=cf_team desc", "columns=id,summary"]).1.get? "format" ≠ some "count" ∧
      "cf_team" ∈ ((compile (Store.empty.applyLines
        ["group=cf_team desc", "columns=id,summary"]).1 0).renderer {} 0).readColumns ∧
      (CustomFields.ofStore (Store.empty.applyLines
        ["group=cf_team desc", "columns=id,summary"]).1).holds "cf_team" = true ∧
      Catalog.resultKey "cf_team" ∉ (compile (Store.empty.applyLines
        ["group=cf_team desc", "columns=id,summary"]).1 0).query.statement.labels) := by
  refine ⟨by decide, ?_, ?_⟩
  · decide +kernel
  · decide +kernel

end BugReport
