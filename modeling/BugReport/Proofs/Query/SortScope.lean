import BugReport.Proofs.Query.Order
import BugReport.Proofs.Query.Scope

/-! # The scope of the order

The columns of the sort list are required before the statement is put together, and those of the group
are among them. So what a column is sorted by belongs to the bugs or to the joins of its field. The
keywords are not joined: their names are looked up inside of sub-selects only, and the name that they are
sorted by belongs to nothing outside.
-/

namespace BugReport

open Sql

/-! ## The group in the sort list -/

theorem sortColumns_append (a b : String) :
    sortColumns (a ++ "," ++ b) = sortColumns a ++ sortColumns b := by
  rw [sortColumns, Text.parts_append_comma, List.filterMap_append]
  rfl

/-- A direction behind a sort list keeps its columns. -/
theorem sortColumns_subset_of_word (sort : String) {word : String} (h : ',' ∉ word.toList) :
    sortColumns sort ⊆ sortColumns (sort ++ " " ++ word) := by
  have hmore : ',' ∉ ' ' :: word.toList := by simp [h]
  obtain ⟨entries, last, hsort, hword⟩ := Text.exists_splitOn_append hmore sort.toList
  have htext : (sort ++ " " ++ word).toList = sort.toList ++ ' ' :: word.toList := by simp
  intro column hcolumn
  obtain ⟨entry, hentry, hfirst⟩ := List.mem_filterMap.mp hcolumn
  rw [Text.parts, hsort, List.map_append, List.mem_append] at hentry
  rw [sortColumns, List.mem_filterMap, Text.parts, htext, hword, List.map_append]
  rcases hentry with hmem | hlast
  · exact ⟨entry, List.mem_append_left _ hmem, hfirst⟩
  · rw [List.map_singleton, List.mem_singleton] at hlast
    refine ⟨_, List.mem_append_right _ List.mem_cons_self, ?_⟩
    have happend := Text.firstWord?_append hfirst word.toList
    rwa [hlast, String.toList_ofList] at happend

theorem Direction.comma_not_mem_keyword (direction : Direction) : ',' ∉ direction.keyword.toList := by
  cases direction <;> decide

theorem Store.StartsWithGroup.sortColumns_subset {group sort : String}
    (h : StartsWithGroup group sort) : sortColumns group ⊆ sortColumns sort := by
  obtain ⟨direction, base, rfl⟩ := h
  rw [sortColumns_append]
  have hword := sortColumns_subset_of_word group direction.comma_not_mem_keyword
  exact List.Subset.trans hword (List.subset_append_left _ _)

/-! ## Sorted fields are required -/

namespace Draft

variable {d : Draft} {f : Field} {column : String}

theorem contains_requireName (hf : Field.ofName? column = some f) :
    (d.requireName column).required.contains f = true := by
  simp [requireName, FieldSet.insertName, hf]

/-- The sort list is settled when its columns are required, so no later column is missed. -/
theorem settledSort_applySort (d : Draft) :
    d.applySort.store.settledSort = some d.store.settleSort.sort := by
  have hsettled : d.store.settleSort.settledSort = some d.store.settleSort.sort := by
    rw [Store.settledSort_settleSort, Store.sort_of_settledSort (Store.settledSort_settleSort d.store)]
  have hgrows : ({ d with store := d.store.settleSort } : Draft).GrowsTo d.applySort :=
    .foldl (fun d column => d.growsTo_sortColumn column) _ _
  exact hgrows.store.sort _ hsettled

theorem contains_applySort (h : column ∈ sortColumns d.store.settleSort.sort)
    (hf : Field.ofName? column = some f) : d.applySort.required.contains f = true := by
  obtain ⟨d', -, hgrows⟩ := GrowsTo.exists_turn (fun d column => d.growsTo_sortColumn column)
    { d with store := d.store.settleSort } h
  exact hgrows.required f (contains_requireName hf)

/-- The sort list does not change any more once its columns are required. -/
theorem sort_arrange (d : Draft) : d.arrange.1.store.sort = d.store.settleSort.sort := by
  have hgrows := d.growsTo_settled.trans (growsTo_arrange_of_settled d)
  exact Store.sort_of_settledSort (hgrows.store.sort _ d.settledSort_applySort)

theorem contains_arrange (h : column ∈ sortColumns d.arrange.1.store.sort)
    (hf : Field.ofName? column = some f) : d.arrange.1.required.contains f = true := by
  have hgrows := d.growsTo_settled.trans (growsTo_arrange_of_settled d)
  rw [sort_arrange] at h
  exact hgrows.required f (contains_applySort h hf)

theorem sort_assemble (d : Draft) : d.assemble.1.store.sort = d.store.sort := rfl

end Draft

/-- Every field that the sort list of a request names is required. -/
theorem contains_drafted {store : Store} {now : Int} {column : String} {f : Field}
    (h : column ∈ sortColumns (compile store now).store.sort) (hf : Field.ofName? column = some f) :
    (drafted store now).required.contains f = true := by
  rw [store_compile, Draft.sort_assemble, drafted] at h
  rw [drafted]
  exact Draft.contains_arrange h hf

/-! ## Sort expressions -/

/-- What a column is sorted by. -/
def sortNames (column : String) : List (String × String) :=
  qualifiedNames ((Catalog.sortExpression? column).getD [])

theorem SortEntry.qualifiedNames_of_keyOf? {column : String} {direction : Option Direction}
    {key : OrderKey} (h : keyOf? column direction = some key) :
    qualifiedNames key.expression = sortNames column := by
  obtain ⟨i, -, rfl⟩ := Option.map_eq_some_iff.mp h
  unfold sortNames
  dsimp only
  cases Catalog.sortExpression? column <;> rfl

/-- A field is sorted by names of the bugs and of its own joins, but for the keywords. -/
theorem Field.offers_sortNames : ∀ {f : Field}, f ≠ .keywords → ∀ qualified ∈ sortNames f.name,
    qualified.1 = "bugs" ∨ f ≠ .quickflag ∧ f.Offers qualified := by
  decide +kernel

theorem Field.sortNames_keywords : ("keyworddefs", "name") ∈ sortNames Field.keywords.name := by
  decide +kernel

theorem isIdentifier_fieldName (f : Field) : isIdentifier f.name.toList = true := by
  cases f <;> decide

theorem mem_compileOrder {sort entry : String} {key : OrderKey} (hentry : entry ∈ Text.parts ',' sort)
    (hkey : (SortEntry.compile entry).1 = some key) : key ∈ (compileOrder sort).1 := by
  have hmem : key ∈ sortKeys sort := List.mem_filterMap.mpr ⟨entry, hentry, hkey⟩
  rwa [compileOrder_of_sortKeys_ne_nil (List.ne_nil_of_mem hmem)]

/-- A column of the sort list that names a field has its keys in the order. -/
theorem exists_key_of_sortColumn {sort column : String} {f : Field}
    (h : column ∈ sortColumns sort) (hf : Field.ofName? column = some f) :
    ∃ direction key, SortEntry.keyOf? column direction = some key ∧
      key ∈ (compileOrder sort).1 := by
  obtain ⟨entry, hentry, hfirst⟩ := List.mem_filterMap.mp h
  have hidentifier : isIdentifier column.toList = true := by
    rw [← Field.name_of_ofName? hf]
    exact isIdentifier_fieldName f
  have hhead : (Text.wordsOf entry).head? = some column := by
    rw [← hfirst, Text.wordsOf, List.head?_map]
    rfl
  have hcompiled := SortEntry.compile_fst entry
  rw [hhead, Option.bind_some] at hcompiled
  cases hkey : (SortEntry.compile entry).1 with
  | none =>
      rw [hkey] at hcompiled
      simp [SortEntry.keyOf?, Identifier.ofName?, hidentifier] at hcompiled
  | some key => exact ⟨_, key, hcompiled ▸ hkey, mem_compileOrder hentry hkey⟩

/-! ## Requests -/

/-- The columns by which a request is ordered: those of its sort list, and those of its group. -/
def Compiled.OrdersBy (c : Compiled) (column : String) : Prop :=
  column ∈ sortColumns c.store.sort ∨ ∃ group ∈ c.store.group?, column ∈ sortColumns group

/-- The correlation names that the sources of a statement introduce. -/
def Sql.Statement.correlations (s : Statement) : List String :=
  s.sources.map Source.correlation

/-- Every column of the order that names a field has a key in the order, and the owners of all that any of
its keys names are introduced by the joins of the statement, unless the field is that of the keywords. -/
theorem order_resolves_iff_not_keywords {store : Store} (hstore : store.Reachable) (now : Int)
    {column : String} (hcolumn : (compile store now).OrdersBy column) {f : Field}
    (hf : Field.ofName? column = some f) :
    (∃ direction, ∃ key ∈ (compile store now).query.statement.order,
        SortEntry.keyOf? column direction = some key) ∧
      ∀ direction key, SortEntry.keyOf? column direction = some key →
        ((∀ qualified ∈ qualifiedNames key.expression,
            qualified.1 ∈ (compile store now).query.statement.correlations) ↔ f ≠ .keywords) := by
  have hsort : column ∈ sortColumns (compile store now).store.sort := by
    rcases hcolumn with hmem | ⟨group, hgroup, hmem⟩
    · exact hmem
    · have hstart := ((kept_compile store now).reachable hstore).coherent.startsWithGroup hgroup
      exact hstart.sortColumns_subset hmem
  refine ⟨?_, fun direction key hkey => ?_⟩
  · obtain ⟨direction, key, hkey, hmem⟩ := exists_key_of_sortColumn hsort hf
    rw [order_compile]
    exact ⟨direction, key, hmem, hkey⟩
  have hrequired := contains_drafted hsort hf
  rw [SortEntry.qualifiedNames_of_keyOf? hkey, ← Field.name_of_ofName? hf, statement_compile]
  constructor
  · -- No join is called like the table that holds the names of the keywords.
    rintro hnames rfl
    obtain ⟨source, hsource, heq⟩ := List.mem_map.mp (hnames _ Field.sortNames_keywords)
    rcases Draft.exists_outline_of_mem_sources hsource with rfl | ⟨o, ho, hsame, -⟩
    · revert heq
      decide
    · have hnone : ∀ o ∈ Field.joinOrder.flatMap Field.outlines,
          o.correlation ≠ "keyworddefs" := by decide +kernel
      exact hnone o ho (hsame.trans heq)
  · intro hne qualified hqualified
    have hreaches : (drafted store now).required.Reaches qualified := by
      refine (Field.offers_sortNames hne qualified hqualified).imp id ?_
      rintro ⟨hflag, hoffers⟩
      exact ⟨f, FieldSet.joinsField_of_contains hrequired hflag, hoffers⟩
    obtain ⟨⟨source, hsource, heq⟩, -⟩ := Draft.introduces_assemble hreaches
    exact List.mem_map.mpr ⟨source, hsource, heq⟩

/-- The sort list and the group at once. -/
theorem order_resolves_iff_not_keywords_grouped :
    (∃ direction, ∃ key ∈ (compile (Store.empty.applyLines
          ["group=product desc", "sort=to"]).1 0).query.statement.order,
        SortEntry.keyOf? "product" direction = some key) ∧
      ∀ direction key, SortEntry.keyOf? "product" direction = some key →
        ((∀ qualified ∈ qualifiedNames key.expression, qualified.1 ∈
            (compile (Store.empty.applyLines
              ["group=product desc", "sort=to"]).1 0).query.statement.correlations) ↔
          Field.product ≠ .keywords) :=
  order_resolves_iff_not_keywords (Store.Reachable.empty.applyLines _) 0
    (.inr ⟨"product desc", by decide +kernel, by decide +kernel⟩) (by decide)

/-- Sorting by the keywords names a table that only sub-selects look into. -/
theorem order_by_keywords_unresolved :
    (compile (Store.empty.applyLines ["sort=keywords"]).1 0).OrdersBy "keywords" ∧
    (compile (Store.empty.applyLines ["sort=keywords"]).1 0).query.orderText =
      "keyworddefs.name ASC" ∧
    ∃ key ∈ (compile (Store.empty.applyLines ["sort=keywords"]).1 0).query.statement.order,
      SortEntry.keyOf? "keywords" none = some key ∧
      ¬ ∀ qualified ∈ qualifiedNames key.expression, qualified.1 ∈
        (compile (Store.empty.applyLines ["sort=keywords"]).1 0).query.statement.correlations := by
  refine ⟨.inl ?_, ?_, ?_⟩
  · decide +kernel
  · decide +kernel
  · decide +kernel

end BugReport
