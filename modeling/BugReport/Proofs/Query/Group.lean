import BugReport.Proofs.Parameter.History
import BugReport.Proofs.Query.ColumnChanges

/-! # Grouped requests

A group hides its columns and leads the order. The sort list and the headings read the columns of a group as the first
words of its entries, but what is hidden is every entry as it is written. And the direction of the group is written
behind its last column, while the headings follow the first one. Both are stated here as they are: which columns of a
group are shown, and which direction its first column has in the order.
-/

namespace BugReport

open Sql

/-! ## Hidden columns -/

open ColumnSelection (Change mem_arrangement defaultColumns)
open Draft (linkedColumns flagColumns groupEntries)

variable {store : Store} {now : Int} {sort c : String}

namespace Store

theorem add_mem_columnChanges_of_sorted (h : c ∈ sortColumns sort) : .add c ∈ store.columnChanges sort := by
  have hsorted : Change.add c ∈ (sortColumns sort).map .add := List.mem_map_of_mem h
  exact List.mem_append_left _ (List.mem_append_right _ hsorted)

/-- Columns are hidden by filters and by entries of the group. -/
theorem remove_mem_columnChanges : .remove c ∈ store.columnChanges sort ↔
    (∃ f ∈ store.filters, f.name = c ∧ f.hides = true) ∨ c ∈ groupEntries store := by
  simp [columnChanges, FieldFilter.remove_mem_changes]

end Store

/-- A column of the group is shown, in a request that says nothing of its columns, exactly if no entry of the group is
nothing but the column and no filter hides it. -/
theorem grouped_column_shown_iff (hstore : store.Reachable) (now : Int)
    (hcolumns : ∀ value, store.explicit "columns" = some value → value = "") {group : String}
    (hgroup : store.group? = some group) (hc : c ∈ sortColumns group) :
    c ∈ (compile store now).query.columns ↔
      c ∉ Text.parts ',' group ∧ ∀ f ∈ store.filters, f.name = c → f.hides = false := by
  have hkept := kept_compile store now
  have hstart := (hkept.reachable hstore).coherent.startsWithGroup (hkept.group?.trans hgroup)
  have hadded : .add c ∈ store.columnChanges (compile store now).store.sort :=
    Store.add_mem_columnChanges_of_sorted (hstart.sortColumns_subset hc)
  have hexpr : store.columnsExpr = .delta [] := by
    rw [Store.columnsExpr]
    cases hexplicit : store.explicit "columns" with
    | none => rfl
    | some value => rw [hcolumns value hexplicit]; rfl
  have hentries : groupEntries store = Text.parts ',' group := by rw [groupEntries, hgroup]
  rw [columns_compile_eq_arranged, hexpr, ColumnSelection.arranged, mem_arrangement,
    Change.mem_filterMap_added?, Change.mem_filterMap_removed?, Store.remove_mem_columnChanges, hentries]
  have hunedited (op : ColumnOp) : c ∉ ColumnEdit.columnsOf op [] := List.not_mem_nil
  -- A column of the group is listed in any case: by default, or because the group is in the sort list.
  have hlisted : c ∈ defaultColumns ∧ c ∉ ColumnEdit.columnsOf .remove [] ∨
      .add c ∈ store.columnChanges (compile store now).store.sort ∧ c ∉ defaultColumns := by
    by_cases hdefault : c ∈ defaultColumns
    · exact .inl ⟨hdefault, hunedited .remove⟩
    · exact .inr ⟨hadded, hdefault⟩
  have hhidden : (¬ ∃ f ∈ store.filters, f.name = c ∧ f.hides = true) ↔
      ∀ f ∈ store.filters, f.name = c → f.hides = false := by
    simp only [not_exists, not_and, Bool.not_eq_true]
  rw [or_iff_right (hunedited .add), and_iff_left hlisted, not_or, hhidden, and_comm]

/-- A group of which one column is written with its direction, one behind a blank, and one is filtered by. -/
theorem grouped_column_shown_iff_product :
    "product" ∈ (compile (Store.empty.applyLines
        ["group=product desc, to,version", "version=2", "columns="]).1 0).query.columns ↔
      "product" ∉ Text.parts ',' "product desc, to,version" ∧
        ∀ f ∈ (Store.empty.applyLines
            ["group=product desc, to,version", "version=2", "columns="]).1.filters,
          f.name = "product" → f.hides = false := by
  refine grouped_column_shown_iff (Store.Reachable.empty.applyLines _) 0 ?_ ?_ ?_
  · intro value hvalue
    have hempty : (Store.empty.applyLines
        ["group=product desc, to,version", "version=2", "columns="]).1.explicit "columns" = some "" := by
      decide +kernel
    exact Option.some.inj (hvalue.symm.trans hempty)
  · decide +kernel
  · decide +kernel

/-- A group with a direction, or with a blank behind its comma, is headed by columns that are shown in every row. -/
theorem grouped_columns_stay :
    ((Store.empty.applyLines ["group=product desc"]).1.explicit "columns" = none ∧
      (Store.empty.applyLines ["group=product desc"]).1.group? = some "product desc" ∧
      "product" ∈ sortColumns "product desc" ∧
      "product" ∈ (compile (Store.empty.applyLines ["group=product desc"]).1 0).query.columns) ∧
    ((Store.empty.applyLines ["group=product, to"]).1.explicit "columns" = none ∧
      (Store.empty.applyLines ["group=product, to"]).1.group? = some "product, to" ∧
      "to" ∈ sortColumns "product, to" ∧
      "to" ∈ (compile (Store.empty.applyLines ["group=product, to"]).1 0).query.columns) := by
  constructor
  · decide +kernel
  · decide +kernel

/-! ## The sort list of a group -/

namespace Store

variable {s s' : Store}

/-- Whether a settled sort list starts with the group and its direction, as they are settled with it. -/
def LedByGroup (s : Store) : Prop :=
  ∀ sort, s.settledSort = some sort → ∃ group?, s.settledGroup = some group? ∧
    ∀ group ∈ group?, ∃ direction base, s.settledGroupOrder = some direction ∧
      sort = group ++ " " ++ direction.keyword ++ "," ++ base

/-- What leaves the sort list and all that is settled alone keeps it led by the group. -/
theorem LedByGroup.of_settled (h : s.LedByGroup) (hsort : s'.settledSort = s.settledSort)
    (hsettled : ∀ (reading : Reading) (given : reading.Answer),
      s.settled? reading = some given → s'.settled? reading = some given) : s'.LedByGroup := by
  intro sort hsome
  obtain ⟨group?, hgroup, hled⟩ := h sort (hsort.symm.trans hsome)
  refine ⟨group?, hsettled .group group? hgroup, fun group hmem => ?_⟩
  obtain ⟨direction, base, hdirection, heq⟩ := hled group hmem
  exact ⟨direction, base, hsettled .groupOrder direction hdirection, heq⟩

theorem LedByGroup.settleSort (h : s.LedByGroup) : s.settleSort.LedByGroup := by
  cases hsettled : s.settledSort with
  | some sort =>
      have hsame : s.settleSort = s := by simp [Store.settleSort, hsettled]
      rwa [hsame]
  | none =>
      intro sort hsort
      obtain rfl : s.sort = sort := Option.some.inj ((settledSort_settleSort s).symm.trans hsort)
      refine ⟨s.group?, settledGroup_settleSort hsettled, fun group hgroup => ?_⟩
      obtain ⟨base, hbase⟩ := exists_sort_base s
      have hsome : s.group?.isSome = true := by rw [Option.mem_def.mp hgroup]; rfl
      have hlist := sort_of_unsettled hsettled hbase
      rw [Option.mem_def.mp hgroup] at hlist
      exact ⟨s.groupOrder, base, settledGroupOrder_settleSort hsettled hsome, hlist⟩

/-- Only the first reading of the sort list settles it. -/
theorem Reachable.ledByGroup (h : s.Reachable) : s.LedByGroup := by
  induction h with
  | empty =>
      intro sort hsort
      cases hsort
  | set hs hset ih =>
      exact ih.of_settled (settled?_set hset .sort) fun reading given h =>
        (settled?_set hset reading).trans h
  | @infer s name value hs ih =>
      exact ih.of_settled (settled?_infer s name value .sort) fun reading given h =>
        (settled?_infer s name value reading).trans h
  | settleSort hs ih => exact ih.settleSort
  | settleOrder hs ih => exact ih.of_settled rfl fun _ _ => settled?_settleOrder
  | settleGroup hs ih => exact ih.of_settled rfl fun _ _ => settled?_settleGroup
  | settleGroupOrder hs ih => exact ih.of_settled rfl fun _ _ => settled?_settleGroupOrder

/-- The sort list starts with the group and its direction, whether they are settled or not. -/
theorem Reachable.exists_sort_eq (h : s.Reachable) {group : String} (hgroup : s.group? = some group) :
    ∃ base, s.sort = group ++ " " ++ s.groupOrder.keyword ++ "," ++ base := by
  cases hsettled : s.settledSort with
  | some sort =>
      obtain ⟨group?, hsettledGroup, hled⟩ := h.ledByGroup sort hsettled
      have hsame : s.answer .group = group? := answer_of_settled hsettledGroup
      obtain ⟨direction, base, hdirection, heq⟩ := hled group (hsame.symm.trans hgroup)
      have horder : s.answer .groupOrder = direction := answer_of_settled hdirection
      exact ⟨base, by rw [sort_of_settledSort hsettled, heq, ← horder]; rfl⟩
  | none =>
      obtain ⟨base, hbase⟩ := exists_sort_base s
      have hlist := sort_of_unsettled hsettled hbase
      rw [hgroup] at hlist
      exact ⟨base, hlist⟩

end Store

/-! ## The group in the order -/

/-- The key that rows are sorted by for a column, with a direction of its own if the column has one. -/
def sortKey (column : Identifier) (direction : Option Direction) : OrderKey :=
  { expression := (Catalog.sortExpression? column.text).getD [.identifier column], direction }

namespace SortEntry

variable (column : Identifier)

theorem keyOf?_text (direction : Option Direction) :
    keyOf? column.text direction = some (sortKey column direction) := by
  simp [keyOf?, sortKey, Identifier.ofName?, column.valid]

theorem wordsOf_text : Text.wordsOf column.text = [column.text] :=
  Text.wordsOf_eq_singleton (fun _ hc => Sql.isBlank_of_mem_identifier column.valid hc)
    (ne_nil_of_isIdentifier column.valid)

theorem compile_column : (compile column.text).1 = some (sortKey column none) := by
  rw [compile_fst, wordsOf_text]
  exact keyOf?_text column none

theorem compile_directed (direction : Direction) :
    (compile (column.text ++ " " ++ direction.keyword)).1 = some (sortKey column (some direction)) := by
  have hkeyword : Text.wordsOf direction.keyword = [direction.keyword] := by cases direction <;> decide
  have hread : Direction.ofWord? direction.keyword = some direction := by cases direction <;> decide
  rw [compile_fst, Text.wordsOf_append, wordsOf_text, hkeyword]
  simp only [List.singleton_append, List.head?_cons, Option.bind_some, List.getElem?_cons_succ,
    List.getElem?_cons_zero, hread]
  exact keyOf?_text column (some direction)

end SortEntry

theorem sortKeys_cons {entry : String} {key : OrderKey} (hcomma : ',' ∉ entry.toList)
    (hkey : (SortEntry.compile entry).1 = some key) (rest : String) :
    sortKeys (entry ++ "," ++ rest) = key :: sortKeys rest := by
  have hentry : Text.parts ',' entry = [entry] := by
    rw [Text.parts, List.splitOn_eq_singleton hcomma, List.map_singleton, String.ofList_toList]
  rw [sortKeys, Text.parts_append_comma, hentry, List.singleton_append, List.filterMap_cons, hkey]
  rfl

/-- The direction of a group belongs to its last column. The first one has it only when it is alone. -/
theorem exists_sortKeys_group (g : Identifier) (more : List Identifier) (direction : Direction)
    (base : String) : ∃ keys,
      sortKeys (String.intercalate "," ((g :: more).map Identifier.text) ++ " " ++ direction.keyword ++ "," ++
          base) =
        sortKey g (if more = [] then some direction else none) :: keys ∧ (more ≠ [] → keys ≠ []) := by
  have hcomma (column : Identifier) : ',' ∉ column.text.toList :=
    not_mem_identifier column.valid (by decide)
  induction more generalizing g with
  | nil =>
      have hentry : ',' ∉ (g.text ++ " " ++ direction.keyword).toList := by
        simp [hcomma g, direction.comma_not_mem_keyword]
      refine ⟨sortKeys base, ?_, fun hne => absurd rfl hne⟩
      rw [List.map_singleton, String.intercalate_singleton]
      exact sortKeys_cons hentry (SortEntry.compile_directed g direction) base
  | cons next more ih =>
      obtain ⟨keys, hkeys, -⟩ := ih next
      refine ⟨_, ?_, fun _ => hkeys ▸ List.cons_ne_nil _ keys⟩
      rw [List.map_cons, List.map_cons, String.intercalate_cons_cons, ← List.map_cons,
        if_neg (List.cons_ne_nil next more)]
      have hfirst := sortKeys_cons (hcomma g) (SortEntry.compile_column g)
        (String.intercalate "," ((next :: more).map Identifier.text) ++ " " ++ direction.keyword ++ "," ++ base)
      simpa only [String.append_assoc] using hfirst

/-- The entry that rows are sorted by before all others, as the order of a statement reads. -/
def Query.firstOrderEntry? (q : Query) : Option OrderEntry :=
  (orderEntries? q.orderText).bind List.head?

/-- The first entry of the order of a grouped request is the first column of the group. It has the direction of the
group exactly when the column is alone and another entry follows it, or when it is not alone and the direction is
ascending: the direction is written behind the whole group, and that of the request behind the whole order. -/
theorem group_leads_order_iff {store : Store} (hstore : store.Reachable) (now : Int) (naming : Naming)
    (g : Identifier) (more : List Identifier)
    (hgroup : store.group? = some (String.intercalate "," ((g :: more).map Identifier.text))) :
    (∃ listing, (compile store now).query.sql naming =
      listing ++ " ORDER BY " ++ (compile store now).query.orderText ++
        (compile store now).query.statement.closing) ∧
    ∃ first, (compile store now).query.firstOrderEntry? = some first ∧
      first.expression = lexemesOf .plain ((Catalog.sortExpression? g.text).getD [.identifier g]) ∧
      (first.direction? = some (compile store now).store.groupOrder ↔
        more = [] ∧ 1 < (keptEntries (compile store now).store.sort).length ∨
          more ≠ [] ∧ (compile store now).store.groupOrder = .asc) := by
  have hkept := kept_compile store now
  have hsortable := sortable_compileOrder (compile store now).store.sort
  rw [← order_compile] at hsortable
  refine ⟨(compile store now).query.statement.exists_text_eq naming hsortable, ?_⟩
  obtain ⟨base, hbase⟩ := (hkept.reachable hstore).exists_sort_eq (hkept.group?.trans hgroup)
  obtain ⟨keys, hkeys, hne⟩ :=
    exists_sortKeys_group g more (compile store now).store.groupOrder base
  rw [← hbase] at hkeys
  have hcount : (keptEntries (compile store now).store.sort).length = keys.length + 1 := by
    rw [← length_sortKeys, hkeys, List.length_cons]
  have hentries := orderEntries?_orderText store now
  rw [compileOrder_of_sortKeys_ne_nil (hkeys ▸ List.cons_ne_nil _ _), hkeys, entriesOf_cons] at hentries
  refine ⟨_, by rw [Query.firstOrderEntry?, hentries, Option.bind_some, List.head?_cons], rfl, ?_⟩
  rw [hcount]
  cases more with
  | nil =>
      -- The direction of the request stands behind the column as well when nothing else is sorted by.
      cases keys <;> simp [OrderKey.entry, OrderEntry.direction?, sortKey]
  | cons next more =>
      have hrest : keys ≠ [] := hne (List.cons_ne_nil _ _)
      simp [OrderKey.entry, OrderEntry.direction?, sortKey, hrest, eq_comm]

/-- Two columns in descending order, of which only the second one has it. -/
theorem group_leads_order_iff_product_component :
    (∃ listing, (compile (Store.empty.applyLines
          ["group=product,component", "grouporder=desc"]).1 0).query.sql .plain =
      listing ++ " ORDER BY " ++ (compile (Store.empty.applyLines
          ["group=product,component", "grouporder=desc"]).1 0).query.orderText ++
        (compile (Store.empty.applyLines
          ["group=product,component", "grouporder=desc"]).1 0).query.statement.closing) ∧
    ∃ first, (compile (Store.empty.applyLines
          ["group=product,component", "grouporder=desc"]).1 0).query.firstOrderEntry? = some first ∧
      first.expression = lexemesOf .plain
        ((Catalog.sortExpression? "product").getD [.identifier ⟨"product", by decide⟩]) ∧
      (first.direction? = some (compile (Store.empty.applyLines
            ["group=product,component", "grouporder=desc"]).1 0).store.groupOrder ↔
        [(⟨"component", by decide⟩ : Identifier)] = [] ∧ 1 < (keptEntries (compile (Store.empty.applyLines
            ["group=product,component", "grouporder=desc"]).1 0).store.sort).length ∨
          [(⟨"component", by decide⟩ : Identifier)] ≠ [] ∧ (compile (Store.empty.applyLines
            ["group=product,component", "grouporder=desc"]).1 0).store.groupOrder = .asc) :=
  group_leads_order_iff (Store.Reachable.empty.applyLines _) 0 .plain ⟨"product", by decide⟩
    [⟨"component", by decide⟩] (by decide +kernel)

/-- The first of two columns is sorted in ascending order when the group is to be in descending order. -/
theorem group_of_two_leads_ascending :
    (Store.empty.applyLines ["group=product,component", "grouporder=desc"]).1.group? =
      some "product,component" ∧
    (compile (Store.empty.applyLines
      ["group=product,component", "grouporder=desc"]).1 0).store.groupOrder = .desc ∧
    (compile (Store.empty.applyLines
      ["group=product,component", "grouporder=desc"]).1 0).query.orderText =
        "products.name,components.name DESC,priority,bug_status ASC" ∧
    ((compile (Store.empty.applyLines
      ["group=product,component", "grouporder=desc"]).1 0).query.firstOrderEntry?.bind
        OrderEntry.direction?) = some .asc := by
  have horder : (compile (Store.empty.applyLines ["group=product,component", "grouporder=desc"]).1
      0).query.orderText = "products.name,components.name DESC,priority,bug_status ASC" := by
    decide +kernel
  have hread : orderEntries? "products.name,components.name DESC,priority,bug_status ASC" =
      some [⟨chars "products.name", []⟩, ⟨chars "components.name", [.desc]⟩, ⟨chars "priority", []⟩,
        ⟨chars "bug_status", [.asc]⟩] := by decide +kernel
  refine ⟨by decide +kernel, by decide +kernel, horder, ?_⟩
  rw [Query.firstOrderEntry?, horder, hread]
  rfl

end BugReport
