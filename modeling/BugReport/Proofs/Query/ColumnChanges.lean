import BugReport.Proofs.Column.Arrangement
import BugReport.Proofs.Query.CustomFields
import BugReport.Proofs.Query.Refused
import BugReport.Proofs.Query.SortScope

/-! # The columns of a request

A request changes its columns by its links, by its filters, by the flags, by the sort list and by the group, in this
order. The columns that it compiles to are the arrangement of these changes and of what the caller says. The group
leads the sort list, so its columns are added before the entries of the group are removed; an entry is removed as it is
written, and so it hides its column only if it is nothing else.
-/

namespace BugReport

open ColumnSelection (Change make)
open Parameter (Kind)

/-! ## Filters -/

namespace FieldFilter

/-- Whether a filter has a say in whether its column is shown. -/
def isPlain (f : FieldFilter) : Bool :=
  match f.kind with
  | .field | .fieldDate | .fieldNumber => true
  | _ => false

/-- Whether a filter may match more than one value. -/
def matchesMany (f : FieldFilter) : Bool :=
  f.value.toList.any Draft.isMultiValueMark

/-- Whether a filter hides its column, which is the same in every row. -/
def hides (f : FieldFilter) : Bool :=
  f.isPlain && ! f.matchesMany

def changes (f : FieldFilter) : List Change :=
  if f.isPlain then if f.matchesMany then [.add f.name] else [.remove f.name] else []

variable {f : FieldFilter} {c : String}

theorem remove_mem_changes : .remove c ∈ f.changes ↔ f.name = c ∧ f.hides = true := by
  unfold changes hides
  cases f.isPlain with
  | false => simp
  | true => cases f.matchesMany <;> simp [eq_comm]

end FieldFilter

namespace Draft

variable {d d' d'' : Draft} {changes more : List Change} {now : Int}

/-- Whether a draft comes from another one by some changes of its columns. -/
def Makes (d : Draft) (changes : List Change) (d' : Draft) : Prop :=
  d'.selection = changes.foldl make d.selection

theorem Makes.trans (h : d.Makes changes d') (h' : d'.Makes more d'') : d.Makes (changes ++ more) d'' := by
  rw [Makes, List.foldl_append, ← h]
  exact h'

/-- What changes no column may stand behind what does. -/
theorem Makes.unchanged (h : d.Makes changes d') (hsame : d''.selection = d'.selection) :
    d.Makes changes d'' :=
  hsame.trans h

section

variable {α β : Type} {f : Draft → α → Draft}

/-- A loop makes the changes of its entries, if each of its steps does. The changes may depend on what is seen of
the draft in every step alike. -/
theorem Makes.foldl (view : Draft → β) (taken : β → α → List Change)
    (hstep : ∀ (d : Draft) (x : α), view (f d x) = view d ∧ d.Makes (taken (view d) x) (f d x))
    (d : Draft) (xs : List α) : d.Makes (xs.flatMap (taken (view d))) (xs.foldl f d) := by
  induction xs generalizing d with
  | nil => rfl
  | cons x xs ih =>
      obtain ⟨hview, hmakes⟩ := hstep d x
      have hrest := ih (f d x)
      rw [hview] at hrest
      exact hmakes.trans hrest

theorem Makes.foldl_map {change : α → Change} (hstep : ∀ (d : Draft) (x : α), d.Makes [change x] (f d x))
    (d : Draft) (xs : List α) : d.Makes (xs.map change) (xs.foldl f d) := by
  rw [List.map_eq_flatMap]
  exact Makes.foldl (fun _ => ()) (fun _ x => [change x]) (fun d x => ⟨rfl, hstep d x⟩) d xs

end

/-! ## Before the filters -/

/-- The column of an entry of the `link` parameter. -/
def linkedColumn (entry : String) : String :=
  ((Text.cut '~' entry).map Prod.fst).getD entry

/-- The columns that a request shows as links. -/
def linkedColumns (store : Store) : List String :=
  match store.present? "link" with
  | some links => ((Text.parts ',' links).filter (· != "")).map linkedColumn
  | none => []

theorem makes_applyLinks (d : Draft) : d.Makes ((linkedColumns d.store).map .add) d.applyLinks := by
  have hlink (d : Draft) (entry : String) : d.Makes [.add (linkedColumn entry)] (d.applyLink entry) := by
    unfold applyLink linkedColumn
    cases Text.cut '~' entry <;> rfl
  unfold applyLinks linkedColumns
  cases d.store.present? "link" with
  | none => rfl
  | some links =>
      dsimp only
      rw [List.map_map]
      exact Makes.foldl_map hlink d _

theorem makes_prepare (d : Draft) : d.Makes ((linkedColumns d.store).map .add) d.prepare := by
  have hcomment (d : Draft) : d.applyLastCommentFormat.selection = d.selection := by
    unfold applyLastCommentFormat
    split
    · dsimp only
      split <;> rfl
    · rfl
  have hgroup (d : Draft) : d.applyGroup.selection = d.selection := by
    unfold applyGroup
    dsimp only
    split <;> rfl
  have hformat (parameter column : String) (d : Draft) :
      (applyFormat parameter column d).selection = d.selection := by
    unfold applyFormat
    split <;> rfl
  exact ((((d.makes_applyLinks.unchanged (hcomment _)).unchanged (hgroup _)).unchanged
    (hformat _ _ _)).unchanged (hformat _ _ _))

/-! ## Filters -/

theorem makes_showFiltered (d : Draft) (name value : String) (kind : Kind) :
    d.Makes ((filtersOf name value kind).flatMap FieldFilter.changes) (d.showFiltered name value kind) := by
  have hplain : d.Makes ((filtersOf name value .field).flatMap FieldFilter.changes)
      (d.showFiltered name value .field) := by
    have hchanges : (filtersOf name value .field).flatMap FieldFilter.changes =
        if value.toList.any isMultiValueMark = true then [.add name] else [.remove name] := List.append_nil _
    rw [hchanges]
    simp only [showFiltered]
    split
    · split <;> rfl
    · rfl
  cases kind with
  | field | fieldDate | fieldNumber => exact hplain
  | _ => rfl

theorem makes_filterField (d : Draft) (now : Int) (name value : String) (kind : Kind) :
    d.Makes ((filtersOf name value kind).flatMap FieldFilter.changes)
      (d.filterField now name value kind).1 := by
  have hshown := d.makes_showFiltered name value kind
  unfold filterField
  dsimp only
  split <;> exact hshown

theorem makes_addFilter (d : Draft) (now : Int) (name value : String) (kind : Kind) :
    d.Makes ((filtersOf name value kind).flatMap FieldFilter.changes) (d.addFilter now name value kind) :=
  d.makes_filterField now name value kind

theorem selection_addCustomField (d : Draft) (name : String) :
    (d.addCustomField name).selection = d.selection := by
  unfold addCustomField
  split
  · split <;> rfl
  · rfl

theorem makes_applyPair (d : Draft) (now : Int) (pair : String) :
    d.Makes ((pairFilters d.custom pair).flatMap FieldFilter.changes) (d.applyPair now pair) := by
  unfold pairFilters
  apply applyPair_cases (motive := fun d' filter? => d.Makes
    ((filter?.elim [] fun f => filtersOf f.name f.value f.kind).flatMap FieldFilter.changes) d') d now pair
  · intro told
    rfl
  · intro name rest _ _ _
    have hcustom : d.Makes [] (d.addCustomField name) := d.selection_addCustomField name
    exact hcustom.trans (makes_addFilter _ now name _ .field)
  · intro name rest kind _ _
    exact d.makes_addFilter now name _ kind

theorem makes_applyParameter (d : Draft) (now : Int) (parameter : String × Kind × String) :
    d.Makes ((parameterFilters d.custom parameter).flatMap FieldFilter.changes)
      (d.applyParameter now parameter) := by
  obtain ⟨name, kind, value⟩ := parameter
  cases kind with
  | filters =>
      have hpairs := Makes.foldl custom (fun custom pair => (pairFilters custom pair).flatMap FieldFilter.changes)
        (fun d pair => ⟨(d.growsTo_applyPair now pair).custom, d.makes_applyPair now pair⟩) d
        (Text.partsSeq "%26" value)
      rw [← List.flatMap_assoc] at hpairs
      exact hpairs
  | fieldKeywords => exact d.makes_filterField now name value .field
  | _ => exact d.makes_addFilter now name value _

theorem makes_applyParameters (d : Draft) (now : Int) :
    d.Makes (((presentParameters d.store).flatMap (parameterFilters d.custom)).flatMap FieldFilter.changes)
      (d.applyParameters now) := by
  rw [List.flatMap_assoc]
  exact Makes.foldl custom
    (fun custom parameter => (parameterFilters custom parameter).flatMap FieldFilter.changes)
    (fun d parameter => ⟨(d.growsTo_applyParameter now parameter).custom,
      d.makes_applyParameter now parameter⟩) d _

/-! ## After the filters -/

/-- The columns that show the flags, if a request filters by them. -/
def flagColumns (store : Store) : List String :=
  match store.present? "flag" with
  | some _ => ["flagfrom", "flagname", "flagdate"]
  | none => []

theorem makes_conclude (d : Draft) : d.Makes ((flagColumns d.store).map .add) d.conclude := by
  have hlist : d.applyListFormat.selection = d.selection := by
    unfold applyListFormat
    split <;> rfl
  have hstore : d.applyListFormat.store = d.store := by
    unfold applyListFormat
    split <;> rfl
  have hflag : d.Makes ((flagColumns d.store).map .add) d.applyListFormat.applyFlag := by
    unfold applyFlag flagColumns
    rw [hstore]
    cases d.store.present? "flag" <;> simp [Makes, hlist, addColumn, require, make]
  have hcomment (d : Draft) : d.applyLastComment.selection = d.selection := by
    unfold applyLastComment
    split <;> rfl
  have hsearch (d : Draft) : d.applySearch.selection = d.selection := by
    unfold applySearch
    split <;> rfl
  have horder (d : Draft) : d.applyGroupOrder.selection = d.selection := by
    unfold applyGroupOrder
    split <;> rfl
  exact ((hflag.unchanged (hcomment _)).unchanged (hsearch _)).unchanged (horder _)

/-! ## Columns -/

theorem makes_applySort (d : Draft) :
    d.Makes ((sortColumns d.store.settleSort.sort).map .add) d.applySort := by
  have hcolumn (d : Draft) (column : String) :
      d.Makes [.add column] ((d.addColumn column).requireName column) := rfl
  exact Makes.foldl_map hcolumn { d with store := d.store.settleSort } _

theorem makes_hideGroup (d : Draft) : d.Makes ((groupEntries d.store).map .remove) d.hideGroup := by
  have hentry (d : Draft) (entry : String) :
      d.Makes [.remove entry] ((d.removeColumn entry).requireName entry) := rfl
  exact Makes.foldl_map hentry d _

end Draft

/-! ## Requests -/

open Draft (linkedColumns flagColumns groupEntries)

/-- The implicit changes of the columns that a request makes, in order, for the sort list that it settles. -/
def Store.columnChanges (s : Store) (sort : String) : List Change :=
  (linkedColumns s).map .add ++ s.filters.flatMap FieldFilter.changes ++ (flagColumns s).map .add ++
    (sortColumns sort).map .add ++ (groupEntries s).map .remove

/-- The draft of a request when its columns are to be settled. -/
def columnsDrafted (store : Store) (now : Int) : Draft :=
  ((Draft.start store).prepare.applyParameters now).conclude.applySort.hideGroup

theorem sort_compile (store : Store) (now : Int) : (compile store now).store.sort =
    ((Draft.start store).prepare.applyParameters now).conclude.store.settleSort.sort := by
  rw [store_compile, Draft.sort_assemble, drafted, Draft.sort_arrange]

/-- The implicit changes are those of the links, the filters, the flags, the sort list and the group. -/
theorem makes_columnsDrafted (store : Store) (now : Int) :
    (Draft.start store).Makes (store.columnChanges (compile store now).store.sort)
      (columnsDrafted store now) := by
  have hsorted := (growsTo_concluded store now).trans (Draft.growsTo_applySort _)
  have hflag : flagColumns ((Draft.start store).prepare.applyParameters now).store = flagColumns store := by
    have hname : "flag" ∉ Store.writtenNames := by decide
    rw [flagColumns, flagColumns, (growsTo_filtered store now).store.present? hname]
    rfl
  have hfilters := (Draft.start store).prepare.makes_applyParameters now
  rw [filters_prepare] at hfilters
  have hconclude := ((Draft.start store).prepare.applyParameters now).makes_conclude
  have hsort := ((Draft.start store).prepare.applyParameters now).conclude.makes_applySort
  have hgroup := ((Draft.start store).prepare.applyParameters now).conclude.applySort.makes_hideGroup
  rw [hflag] at hconclude
  rw [← sort_compile] at hsort
  rw [Draft.groupEntries_of_kept hsorted.store] at hgroup
  exact (((((Draft.start store).makes_prepare.trans hfilters).trans hconclude).trans hsort).trans hgroup)

/-- The columns of a request are the arrangement of its implicit changes and of what the caller says. -/
theorem columns_compile_eq_arranged (store : Store) (now : Int) :
    (compile store now).query.columns = ColumnSelection.arranged ColumnSelection.defaultColumns
      ((store.columnChanges (compile store now).store.sort).filterMap Change.added?)
      ((store.columnChanges (compile store now).store.sort).filterMap Change.removed?) store.columnsExpr := by
  have hselection : (columnsDrafted store now).selection =
      ColumnSelection.after (store.columnChanges (compile store now).store.sort) :=
    makes_columnsDrafted store now
  have hgrows : (Draft.start store).GrowsTo (columnsDrafted store now) :=
    ((growsTo_concluded store now).trans (Draft.growsTo_applySort _)).trans (Draft.growsTo_hideGroup _)
  have hexpr : (columnsDrafted store now).store.columnsExpr = store.columnsExpr := by
    rw [Store.columnsExpr, Store.columnsExpr, hgrows.store.explicit "columns" (by decide)]
    rfl
  have hcolumns : (compile store now).query.columns =
      ((columnsDrafted store now).selection.settle (columnsDrafted store now).store).1 := by
    rw [columns_compile]
    simp only [Draft.arrange, Draft.settleColumns, columnsDrafted]
  rw [hcolumns, hselection, ColumnSelection.settle_after, hexpr]

end BugReport
