import BugReport.Proofs.Sql.OrderClause
import BugReport.Query.Compile

/-! # Counting rows

A report can count the rows that a table would list. The format that asks for this is a parameter like
others, so it is in the store that every rule reads and writes. But only two rules look at it: the one for
lists, and the one that puts the statement together. All other rules do the same whatever the format is;
each of them commutes with setting it, and so does their sequence.
-/

namespace BugReport

open Parameter (Assignment Kind)

/-! ## The store -/

namespace Store

variable {s : Store} {name format : String}

/-- A store with another format. -/
def withFormat (s : Store) (format : String) : Store :=
  { s with explicit := s.explicit.set "format" format }

theorem withFormat_withFormat (s : Store) (first format : String) :
    (s.withFormat first).withFormat format = s.withFormat format := by
  simp only [withFormat]
  congr 1
  funext name
  simp only [Assignment.set]
  split
  · rfl
  · rfl

theorem get?_format (s : Store) (format : String) : (s.withFormat format).get? "format" = some format := by
  simp [get?, withFormat, Assignment.set]

section

variable (h : name ≠ "format")

include h

theorem explicit_withFormat : (s.withFormat format).explicit name = s.explicit name := by
  simp [withFormat, Assignment.set, h]

theorem get?_withFormat : (s.withFormat format).get? name = s.get? name := by
  rw [get?, get?, explicit_withFormat h]
  rfl

theorem present?_withFormat : (s.withFormat format).present? name = s.present? name := by
  rw [present?, present?, get?_withFormat h]

theorem given?_withFormat : (s.withFormat format).given? name = s.given? name := by
  rw [given?, given?, explicit_withFormat h]
  rfl

theorem givenOrDefault?_withFormat : (s.withFormat format).givenOrDefault? name = s.givenOrDefault? name := by
  rw [givenOrDefault?, givenOrDefault?, given?_withFormat h]

theorem trySet_withFormat (raw : String) : (s.withFormat format).trySet name raw =
    ((s.trySet name raw).1.withFormat format, (s.trySet name raw).2) := by
  unfold trySet set
  cases Parameter.validate name raw with
  | error told => rfl
  | ok value =>
      simp only [withFormat, Prod.mk.injEq, and_true]
      congr 1
      funext other
      simp only [Assignment.set]
      by_cases hother : other = name
      · simp [hother, h]
      · simp [hother]

end

theorem infer_withFormat (name value : String) :
    (s.withFormat format).infer name value = (s.infer name value).withFormat format := by
  unfold infer
  split
  · rfl
  · rfl

/-! ### Settled values -/

@[simp] theorem group?_withFormat : (s.withFormat format).group? = s.group? := by
  rw [group?, group?, given?_withFormat (by decide)]
  rfl

@[simp] theorem groupOrder_withFormat : (s.withFormat format).groupOrder = s.groupOrder := by
  rw [groupOrder, groupOrder, givenOrDefault?_withFormat (by decide)]
  rfl

@[simp] theorem order_withFormat : (s.withFormat format).order = s.order := by
  rw [order, order, givenOrDefault?_withFormat (by decide)]
  rfl

@[simp] theorem sort_withFormat : (s.withFormat format).sort = s.sort := by
  simp only [sort, givenOrDefault?_withFormat (show "sort" ≠ "format" by decide), group?_withFormat,
    groupOrder_withFormat]
  rfl

theorem settleGroup_withFormat : (s.withFormat format).settleGroup = s.settleGroup.withFormat format := by
  rw [settleGroup, group?_withFormat]
  rfl

theorem settleGroupOrder_withFormat :
    (s.withFormat format).settleGroupOrder = s.settleGroupOrder.withFormat format := by
  rw [settleGroupOrder, groupOrder_withFormat]
  rfl

theorem settleOrder_withFormat : (s.withFormat format).settleOrder = s.settleOrder.withFormat format := by
  rw [settleOrder, order_withFormat]
  rfl

theorem settleSort_withFormat : (s.withFormat format).settleSort = s.settleSort.withFormat format := by
  have hsettled : (s.withFormat format).settledSort = s.settledSort := rfl
  unfold settleSort
  rw [hsettled]
  cases s.settledSort with
  | some sort => rfl
  | none =>
      dsimp only
      rw [settleGroup_withFormat, group?_withFormat, sort_withFormat]
      split
      · rw [settleGroupOrder_withFormat]
        rfl
      · rfl

end Store

/-! ## Rules -/

namespace Draft

variable {name format : String}

/-- A draft with another format. -/
def withFormat (d : Draft) (format : String) : Draft :=
  { d with store := d.store.withFormat format }

variable (d : Draft)

theorem foldl_withFormat {α : Type} {step : Draft → α → Draft}
    (hstep : ∀ d x, step (d.withFormat format) x = (step d x).withFormat format) (xs : List α) :
    xs.foldl step (d.withFormat format) = (xs.foldl step d).withFormat format :=
  List.foldl_hom (fun d : Draft => d.withFormat format) hstep

theorem present?_withFormat (hname : name ≠ "format") :
    (d.withFormat format).store.present? name = d.store.present? name :=
  Store.present?_withFormat hname

/-! ### Before the filters -/

theorem applyLink_withFormat (entry : String) :
    (d.withFormat format).applyLink entry = (d.applyLink entry).withFormat format := by
  unfold applyLink
  split
  · rfl
  · rfl

theorem applyLinks_withFormat : (d.withFormat format).applyLinks = d.applyLinks.withFormat format := by
  unfold applyLinks
  rw [d.present?_withFormat (by decide)]
  split
  · exact d.foldl_withFormat applyLink_withFormat _
  · rfl

theorem applyLastCommentFormat_withFormat :
    (d.withFormat format).applyLastCommentFormat = d.applyLastCommentFormat.withFormat format := by
  unfold applyLastCommentFormat
  rw [d.present?_withFormat (by decide)]
  cases d.store.present? "lastcomment" with
  | none => rfl
  | some _ =>
      have hformats : ((d.withFormat format).require .keywords).formats = (d.require .keywords).formats := rfl
      dsimp only
      rw [hformats]
      split
      · rfl
      · rfl

theorem applyGroup_withFormat : (d.withFormat format).applyGroup = d.applyGroup.withFormat format := by
  unfold applyGroup
  simp only [withFormat, Store.group?_withFormat, Store.settleGroup_withFormat,
    Store.trySet_withFormat (show "sortable" ≠ "format" by decide)]
  cases d.store.settleGroup.group? with
  | none => rfl
  | some group => rfl

theorem applyFormat_withFormat (hname : name ≠ "format") (column : String) :
    applyFormat name column (d.withFormat format) = (applyFormat name column d).withFormat format := by
  unfold applyFormat
  rw [d.present?_withFormat hname]
  cases d.store.present? name with
  | none => rfl
  | some value => rfl

theorem prepare_withFormat : (d.withFormat format).prepare = d.prepare.withFormat format := by
  rw [prepare, applyLinks_withFormat, applyLastCommentFormat_withFormat, applyGroup_withFormat,
    applyFormat_withFormat _ (by decide), applyFormat_withFormat _ (by decide)]
  rfl

/-! ### Filters -/

theorem showFiltered_withFormat (name value : String) (kind : Kind) :
    (d.withFormat format).showFiltered name value kind =
      (d.showFiltered name value kind).withFormat format := by
  have hshown : (d.withFormat format).showFiltered name value .field =
      (d.showFiltered name value .field).withFormat format := by
    simp only [showFiltered]
    split
    · split
      · simp only [addColumn, withFormat, Store.infer_withFormat]
      · rfl
    · rfl
  cases kind with
  | field | fieldDate | fieldNumber => exact hshown
  | _ => rfl

theorem filterField_withFormat (now : Int) (name value : String) (kind : Kind) :
    (d.withFormat format).filterField now name value kind =
      ((d.filterField now name value kind).1.withFormat format, (d.filterField now name value kind).2) := by
  have hvalues : ((d.showFiltered name value kind).withFormat format).values =
      (d.showFiltered name value kind).values := rfl
  unfold filterField
  rw [showFiltered_withFormat]
  dsimp only
  rw [hvalues]
  cases restriction? (d.showFiltered name value kind).values.length now name value kind with
  | none => rfl
  | some r => rfl

theorem addFilter_withFormat (now : Int) (name value : String) (kind : Kind) :
    (d.withFormat format).addFilter now name value kind =
      (d.addFilter now name value kind).withFormat format := by
  simp only [addFilter, filterField_withFormat]
  rfl

theorem addCustomField_withFormat (name : String) :
    (d.withFormat format).addCustomField name = (d.addCustomField name).withFormat format := by
  have hcustomFields : (d.withFormat format).customFields = d.customFields := rfl
  unfold addCustomField
  rw [hcustomFields]
  split
  · split
    · rfl
    · rfl
  · rfl

theorem applyPair_withFormat (now : Int) (pair : String) :
    (d.withFormat format).applyPair now pair = (d.applyPair now pair).withFormat format := by
  have hcustom : (d.withFormat format).custom = d.custom := rfl
  unfold applyPair
  rw [hcustom]
  cases Text.cutSeq "%3D" pair with
  | none => rfl
  | some parts =>
      obtain ⟨name, rest⟩ := parts
      dsimp only
      rw [addCustomField_withFormat]
      split
      · split
        · exact addFilter_withFormat _ now name _ .field
        · rfl
      · split
        · split
          · exact addFilter_withFormat d now name _ _
          · rfl
        · rfl

theorem applyParameter_withFormat (now : Int) (parameter : String × Kind × String) :
    (d.withFormat format).applyParameter now parameter =
      (d.applyParameter now parameter).withFormat format := by
  obtain ⟨name, kind, value⟩ := parameter
  unfold applyParameter
  dsimp only
  split
  · exact d.foldl_withFormat (fun d pair => d.applyPair_withFormat now pair) _
  · rw [filterField_withFormat]
    rfl
  · exact d.addFilter_withFormat now _ _ _

/-- The turn of a parameter that is a plain value changes nothing. -/
theorem applyParameter_value (now : Int) (name value : String) :
    d.applyParameter now (name, .value, value) = d := by
  simp [applyParameter, addFilter, filterField, showFiltered, restriction?, addClauses]

/-- What an entry of the schema does in the loop over the parameters. -/
def applyEntry (store : Store) (now : Int) (d : Draft) (entry : String × Kind) : Draft :=
  match store.present? entry.1 with
  | some value => d.applyParameter now (entry.1, entry.2, value)
  | none => d

theorem applyParameters_eq (now : Int) :
    d.applyParameters now = Parameter.schema.foldl (applyEntry d.store now) d := by
  rw [applyParameters, presentParameters, List.foldl_filterMap]
  apply List.foldl_ext
  rintro d' ⟨name, kind⟩ _
  dsimp only [applyEntry]
  cases d.store.present? name with
  | none => rfl
  | some value => rfl

/-- The format has its turn like any parameter, but nothing comes of it. -/
theorem applyEntry_withFormat (store : Store) (now : Int) {entry : String × Kind}
    (hentry : entry ∈ Parameter.schema) :
    applyEntry (store.withFormat format) now (d.withFormat format) entry =
      (applyEntry store now d entry).withFormat format := by
  have hkind : ∀ entry ∈ Parameter.schema, entry.1 = "format" → entry.2 = .value := by decide
  have hquiet (store : Store) (d : Draft) (h : entry.1 = "format") : applyEntry store now d entry = d := by
    unfold applyEntry
    rw [hkind entry hentry h]
    split
    · exact d.applyParameter_value now _ _
    · rfl
  -- The two runs read different values only for the format itself.
  by_cases hname : entry.1 = "format"
  · rw [hquiet _ _ hname, hquiet _ _ hname]
  · rw [applyEntry, applyEntry, Store.present?_withFormat hname]
    cases store.present? entry.1 with
    | none => rfl
    | some value => exact d.applyParameter_withFormat now _

theorem applyParameters_withFormat (now : Int) :
    (d.withFormat format).applyParameters now = (d.applyParameters now).withFormat format := by
  -- The loop reads the store that it started with, so the induction leaves this store as it is.
  have hschema : ∀ entries ⊆ Parameter.schema, ∀ d' : Draft,
      entries.foldl (applyEntry (d.store.withFormat format) now) (d'.withFormat format) =
        (entries.foldl (applyEntry d.store now) d').withFormat format := by
    intro entries hentries
    induction entries with
    | nil => exact fun _ => rfl
    | cons entry entries ih =>
        obtain ⟨hentry, hrest⟩ := List.cons_subset.mp hentries
        intro d'
        rw [List.foldl_cons, List.foldl_cons, applyEntry_withFormat _ _ _ hentry, ih hrest]
  rw [applyParameters_eq, applyParameters_eq]
  exact hschema _ (List.Subset.refl _) d

/-! ### After the filters -/

/-- The rule for lists is the only one before the statement that looks at the format. -/
theorem applyListFormat_withFormat (hformat : format ≠ "list") :
    (d.withFormat format).applyListFormat = d.withFormat format := by
  have hget : (d.withFormat format).store.get? "format" = some format := Store.get?_format _ _
  unfold applyListFormat
  rw [hget, if_neg (by simpa using hformat)]

theorem applyFlag_withFormat : (d.withFormat format).applyFlag = d.applyFlag.withFormat format := by
  unfold applyFlag
  rw [d.present?_withFormat (by decide)]
  cases d.store.present? "flag" with
  | none => rfl
  | some value => rfl

theorem applyLastComment_withFormat :
    (d.withFormat format).applyLastComment = d.applyLastComment.withFormat format := by
  unfold applyLastComment
  rw [d.present?_withFormat (by decide)]
  cases d.store.present? "lastcomment" with
  | none => rfl
  | some value => rfl

theorem applySearch_withFormat : (d.withFormat format).applySearch = d.applySearch.withFormat format := by
  unfold applySearch
  rw [d.present?_withFormat (by decide)]
  cases d.store.present? "search" with
  | none => rfl
  | some text => rfl

theorem applyGroupOrder_withFormat :
    (d.withFormat format).applyGroupOrder = d.applyGroupOrder.withFormat format := by
  unfold applyGroupOrder
  simp only [withFormat, Store.group?_withFormat, Store.infer_withFormat]
  cases d.store.group?.bind Catalog.defaultOrder? with
  | none => rfl
  | some order => rfl

/-- The rules after the filters without the one for lists. -/
def concludeTable (d : Draft) : Draft :=
  (d.applyFlag.applyLastComment.applySearch.applyGroupOrder.require .quickflag).require .nickname

theorem conclude_withFormat (hformat : format ≠ "list") :
    (d.withFormat format).conclude = d.concludeTable.withFormat format := by
  rw [conclude, applyListFormat_withFormat _ hformat, applyFlag_withFormat, applyLastComment_withFormat,
    applySearch_withFormat, applyGroupOrder_withFormat]
  rfl

/-! ### Columns -/

theorem applySort_withFormat : (d.withFormat format).applySort = d.applySort.withFormat format := by
  have hsettled : (d.withFormat format).store.settleSort = d.store.settleSort.withFormat format :=
    Store.settleSort_withFormat
  unfold applySort
  dsimp only
  rw [hsettled, Store.sort_withFormat]
  exact foldl_withFormat { d with store := d.store.settleSort } (fun _ _ => rfl) _

theorem groupEntries_withFormat (store : Store) :
    groupEntries (store.withFormat format) = groupEntries store := by
  rw [groupEntries, groupEntries, Store.group?_withFormat]

theorem hideGroup_withFormat : (d.withFormat format).hideGroup = d.hideGroup.withFormat format := by
  have hentries : groupEntries (d.withFormat format).store = groupEntries d.store :=
    groupEntries_withFormat d.store
  rw [hideGroup, hideGroup, hentries]
  exact d.foldl_withFormat (fun _ _ => rfl) _

theorem settleColumns_withFormat : (d.withFormat format).settleColumns =
    (d.settleColumns.1.withFormat format, d.settleColumns.2) := by
  have hsettle : d.selection.settle (d.store.withFormat format) = d.selection.settle d.store := by
    rw [ColumnSelection.settle, ColumnSelection.settle, Store.explicit_withFormat (by decide)]
  simp only [settleColumns, withFormat, hsettle]
  rfl

theorem fetchColumn_withFormat (column : String) :
    (d.withFormat format).fetchColumn column = (d.fetchColumn column).withFormat format := by
  have hcustom : (d.withFormat format).custom = d.custom := rfl
  unfold fetchColumn
  rw [hcustom, addCustomField_withFormat]
  split
  · rfl
  · split
    · rfl
    · rfl

theorem fetchGroup_withFormat (column : String) :
    (d.withFormat format).fetchGroup column = (d.fetchGroup column).withFormat format := by
  have hcustom : (d.withFormat format).custom = d.custom := rfl
  unfold fetchGroup
  rw [hcustom, addCustomField_withFormat]
  split
  · rfl
  · rfl

theorem applyBar_withFormat : (d.withFormat format).applyBar = d.applyBar.withFormat format := by
  unfold applyBar
  rw [d.present?_withFormat (by decide)]
  cases d.store.present? "bar" with
  | none => rfl
  | some column => rfl

theorem arrange_withFormat :
    (d.withFormat format).arrange = (d.arrange.1.withFormat format, d.arrange.2) := by
  simp only [arrange, applySort_withFormat, hideGroup_withFormat, settleColumns_withFormat]
  rw [foldl_withFormat _ fetchColumn_withFormat]
  have hentries (d : Draft) : groupEntries (d.withFormat format).store = groupEntries d.store :=
    groupEntries_withFormat d.store
  rw [hentries, foldl_withFormat _ fetchGroup_withFormat, applyBar_withFormat]

/-! ### The statement -/

theorem joinPlan_withFormat (required : FieldSet) (store : Store) (bound : Nat) :
    required.joinPlan (store.withFormat format) bound = required.joinPlan store bound := by
  have hinner (f : Field) (bound : Nat) :
      f.innerRestriction (store.withFormat format) bound = f.innerRestriction store bound := by
    have hparameter : ∀ f : Field, ∀ inner ∈ f.innerFilter?, inner.2 ≠ "format" := by
      intro f
      cases f <;> decide
    unfold Field.innerRestriction
    split
    next parameter hfilter =>
        rw [Store.present?_withFormat (hparameter f _ hfilter)]
    · rfl
  have hfields (fields : List Field) (bound : Nat) :
      JoinPlan.ofFields (store.withFormat format) bound fields = JoinPlan.ofFields store bound fields := by
    induction fields generalizing bound with
    | nil => rfl
    | cons f fields ih => simp only [JoinPlan.ofFields, hinner, ih]
  exact hfields _ bound

/-- Putting the statement together looks at the format only to tell whether the rows are counted. -/
theorem assemble_withFormat : (d.withFormat format).assemble =
    (d.assemble.1.withFormat format, { d.assemble.2 with counted := format == "count" }) := by
  have hname (store : Store) : personName (store.withFormat format) = personName store := by
    rw [personName, personName, Store.get?_withFormat (by decide)]
  simp only [assemble, items, withFormat, joinPlan_withFormat, Store.sort_withFormat, Store.order_withFormat,
    Store.settleOrder_withFormat, Store.get?_format, hname]
  rfl

end Draft

/-! ## Requests -/

/-- A compiled request with another format. -/
def Compiled.withFormat (c : Compiled) (format : String) : Compiled :=
  { c with
    query := { c.query with statement := { c.query.statement with counted := format == "count" } }
    store := c.store.withFormat format }

section

variable {format : String} (hformat : format ≠ "list") (store : Store) (now : Int)

include hformat

theorem Draft.concluded_withFormat :
    ((Draft.start (store.withFormat format)).prepare.applyParameters now).conclude =
      ((Draft.start store).prepare.applyParameters now).concludeTable.withFormat format := by
  have hcustom : CustomFields.ofStore (store.withFormat format) = CustomFields.ofStore store := by
    rw [CustomFields.ofStore, CustomFields.ofStore, Store.get?_withFormat (by decide),
      Store.get?_withFormat (by decide), Store.present?_withFormat (by decide)]
  have hstart : Draft.start (store.withFormat format) = (Draft.start store).withFormat format := by
    rw [Draft.start, hcustom]
    rfl
  rw [hstart, prepare_withFormat, applyParameters_withFormat, conclude_withFormat _ hformat]

/-- Formats other than the one for lists make no difference, but that a count is a count. -/
theorem compile_withFormat :
    compile (store.withFormat format) now = (compile (store.withFormat "table") now).withFormat format := by
  have htable := Draft.concluded_withFormat (show "table" ≠ "list" by decide) store now
  simp only [compile, Compiled.withFormat, Draft.concluded_withFormat hformat store now, htable,
    Draft.arrange_withFormat, Draft.assemble_withFormat]
  simp only [Draft.withFormat, Store.withFormat_withFormat]

end

/-- A query that counts the rows that another one lists: its statement is put around the other one without the
semicolon at its end, and the two are the same elsewhere. -/
structure Query.Counts (naming : Sql.Naming) (counting listing : Query) : Prop where
  sql : ∃ rows, listing.sql naming = rows ++ ";" ∧
    counting.sql naming = "SELECT COUNT(DISTINCT(id)) AS count FROM (" ++ rows ++ ") AS b;"
  params : counting.params = listing.params
  address : ∀ server, counting.searchAddress server = listing.searchAddress server
  columns : counting.columns = listing.columns
  required : counting.required = listing.required
  customFields : counting.customFields = listing.customFields
  formats : counting.formats = listing.formats
  titles : counting.titles = listing.titles

/-- The text of a statement that counts, and of the one whose rows it counts. -/
theorem Sql.Statement.exists_text_counted (naming : Sql.Naming) (s : Sql.Statement) : ∃ rows,
    ({ s with counted := false } : Sql.Statement).text naming = rows ++ ";" ∧
      ({ s with counted := true } : Sql.Statement).text naming =
        "SELECT COUNT(DISTINCT(id)) AS count FROM (" ++ rows ++ ") AS b;" := by
  have hrows (counted : Bool) : ({ s with counted } : Sql.Statement).listPieces = s.listPieces := rfl
  refine ⟨Sql.write naming s.listPieces, ?_, ?_⟩
  · rw [text, pieces, if_neg Bool.false_ne_true, hrows, Sql.write_append]
    rfl
  · rw [text, pieces, if_pos rfl, hrows, List.cons_append, ← List.singleton_append, Sql.write_append,
      Sql.write_append]
    rfl

theorem Compiled.counts_withFormat (c : Compiled) (hlisting : c = c.withFormat "table") (naming : Sql.Naming) :
    (c.withFormat "count").query.Counts naming c.query := by
  obtain ⟨rows, hrows, hcount⟩ := c.query.statement.exists_text_counted naming
  refine ⟨⟨rows, ?_, hcount⟩, rfl, fun _ => rfl, rfl, rfl, rfl, rfl, rfl⟩
  rw [hlisting]
  exact hrows

/-- A count counts the rows that a table lists. -/
theorem count_counts_table (store : Store) (now : Int) (naming : Sql.Naming) :
    ∃ counting listing,
      store.set "format" "count" = .ok counting ∧ store.set "format" "table" = .ok listing ∧
      (compile counting now).query.Counts naming (compile listing now).query ∧
      (compile counting now).diagnostics = (compile listing now).diagnostics := by
  have hset (format : String) (hvalid : Parameter.validate "format" format = .ok format)
      (hstored : Parameter.storedForm "format" format = format) :
      store.set "format" format = .ok (store.withFormat format) := by
    rw [Store.set, hvalid, Store.withFormat]
    dsimp only
    rw [hstored]
  have hcounting := compile_withFormat (show "count" ≠ "list" by decide) store now
  have hlisting := compile_withFormat (show "table" ≠ "list" by decide) store now
  refine ⟨_, _, hset "count" (by decide) (by decide), hset "table" (by decide) (by decide), ?_, ?_⟩
  · rw [hcounting]
    exact Compiled.counts_withFormat _ hlisting naming
  · rw [hcounting, Compiled.withFormat]

end BugReport
