import BugReport.Proofs.Query.Pairs
import BugReport.Proofs.Search.Numbering

/-! # Refused filters

Every filter goes two ways: its conditions go into the statement and its values into the chart. The
statement refuses the numbers and dates that it does not understand, and the chart passes over the values
that start like a special value; neither asks the other. So the chart holds a filter that the statement
refused, unless its value starts like a special one.
-/

namespace BugReport

open Parameter (Kind)

/-! ## Dates without a meaning -/

/-- Whether an end of a comparison has no date that can be written. -/
def DateBound.isOutOfRange (now : Int) : DateBound → Bool
  | .relative seconds => (Restriction.dateAt? now seconds).isNone
  | _ => false

/-- Whether a date expression is refused. -/
def DateExpr.isRefused (now : Int) : DateExpr → Bool
  | .range low high => low.isOutOfRange now || high.isOutOfRange now
  | .onOrBefore bound => bound.isOutOfRange now
  | .onOrAfter bound => bound.isOutOfRange now
  | .special _ => false
  | .unrecognized _ => true

namespace Restriction

/-- Whether a restriction lets every row through, and tells why. -/
def isRefused (r : Restriction) : Bool :=
  r.conditions.isEmpty && ! r.diagnostics.isEmpty

theorem isRefused_refused {diagnostics : List Diagnostic} (h : diagnostics ≠ []) :
    (refused diagnostics).isRefused = true := by
  simp [isRefused, refused, h]

theorem not_isRefused_of_diagnostics {r : Restriction} (h : r.diagnostics = []) : r.isRefused = false := by
  simp [isRefused, h]

/-- Values in the grammar of match expressions are never refused: only `*` has no conditions, and it is meant
to have none. -/
theorem not_isRefused_ofMatch (bound : Nat) (value : String) : (ofMatch bound value).isRefused = false := by
  unfold ofMatch
  cases MatchExpr.parse value with
  | special special => cases special <;> rfl
  | single t => simp [ofMatchExpr, ofTerms, isRefused, comparisons]
  | anyOf terms | noneOf terms => rfl

theorem isRefused_ofNumber (column value : String) :
    (ofNumber column value).isRefused = (Text.trimmed value != "+") := by
  unfold ofNumber
  cases hplus : Text.trimmed value == "+" with
  | true => simp [isRefused, hplus, bne]
  | false => simp [isRefused, refused, hplus, bne]

theorem boundText?_eq (now : Int) (column : String) (b : DateBound) :
    (b.isOutOfRange now = false ∧ ∃ text, boundText? now column b = .ok text) ∨
      (b.isOutOfRange now = true ∧ ∃ told, boundText? now column b = .error told) := by
  cases b with
  | unbounded => exact .inl ⟨rfl, _, rfl⟩
  | absolute text => exact .inl ⟨rfl, _, rfl⟩
  | relative seconds =>
      simp only [DateBound.isOutOfRange, boundText?]
      cases dateAt? now seconds with
      | none => exact .inr ⟨rfl, _, rfl⟩
      | some text => exact .inl ⟨rfl, _, rfl⟩

theorem isRefused_ofDate (bound : Nat) (now : Int) (column value : String) :
    (ofDate bound now column value).isRefused = (DateExpr.parse value).isRefused now := by
  unfold ofDate
  cases DateExpr.parse value with
  | special special => cases special <;> rfl
  | unrecognized text => rfl
  | onOrBefore b | onOrAfter b =>
      rcases boundText?_eq now column b with ⟨hrange, _, htext⟩ | ⟨hrange, _, htold⟩
      · simp only [ofDateExpr, DateExpr.isRefused, hrange, htext]
        exact not_isRefused_of_diagnostics rfl
      · simp only [ofDateExpr, DateExpr.isRefused, hrange, htold]
        exact isRefused_refused (List.cons_ne_nil _ _)
  | range low high =>
      rcases boundText?_eq now column low with ⟨hlow, _, hlowText⟩ | ⟨hlow, _, hlowText⟩
      · rcases boundText?_eq now column high with ⟨hhigh, _, hhighText⟩ | ⟨hhigh, _, hhighText⟩
        · simp only [ofDateExpr, DateExpr.isRefused, hlow, hhigh, hlowText, hhighText]
          exact not_isRefused_of_diagnostics rfl
        · simp only [ofDateExpr, DateExpr.isRefused, hlow, hhigh, hlowText, hhighText]
          exact isRefused_refused (by simp [problemsOf])
      · simp only [ofDateExpr, DateExpr.isRefused, hlow, hlowText]
        exact isRefused_refused (by simp [problemsOf])

end Restriction

/-- Showing what is filtered tells the reader nothing. -/
theorem Draft.diagnostics_showFiltered (d : Draft) (name value : String) (kind : Kind) :
    (d.showFiltered name value kind).diagnostics = d.diagnostics := by
  have hshown : (d.showFiltered name value .field).diagnostics = d.diagnostics := by
    simp only [showFiltered]
    split
    · split
      · rfl
      · rfl
    · rfl
  cases kind with
  | field | fieldDate | fieldNumber => exact hshown
  | _ => rfl

/-! ## Filters -/

namespace FieldFilter

/-- Whether the statement refuses a filter. -/
def refused (now : Int) (f : FieldFilter) : Bool :=
  (Draft.restriction? 0 now f.name f.value f.kind).any Restriction.isRefused

/-- A filter as it is added to a chart. -/
def searched (f : FieldFilter) : String × String :=
  (Catalog.searchName f.name, f.value)

/-- Whether a chart passes over a filter. -/
def passedOver (f : FieldFilter) : Bool :=
  Chart.isInexpressible f.value.toList

/-- Which filters are refused: numbers other than `+`, and dates that are not understood or out of range. -/
theorem refused_iff (now : Int) (f : FieldFilter) : f.refused now = true ↔
    (f.kind = .fieldNumber ∧ Text.trimmed f.value ≠ "+") ∨
      (f.kind = .fieldDate ∧ (DateExpr.parse f.value).isRefused now = true) := by
  obtain ⟨name, value, kind⟩ := f
  cases kind with
  | fieldNumber => simp [refused, Draft.restriction?, Restriction.isRefused_ofNumber]
  | fieldDate => simp [refused, Draft.restriction?, Restriction.isRefused_ofDate]
  | field | fieldId | fieldDepends => simp [refused, Draft.restriction?, Restriction.not_isRefused_ofMatch]
  | _ => simp [refused, Draft.restriction?]

/-- Refusing is what happens when a filter has its turn, whatever was bound before: it has no conditions,
and the reader is told something. -/
theorem refused_iff_filterField (f : FieldFilter) (d : Draft) (now : Int) : f.refused now = true ↔
    (d.filterField now f.name f.value f.kind).2 = [] ∧
      ∃ told, told ≠ [] ∧
        (d.filterField now f.name f.value f.kind).1.diagnostics = d.diagnostics ++ told := by
  have hshown := Draft.diagnostics_showFiltered d f.name f.value f.kind
  have hbehind := Draft.restriction?_behind (d.showFiltered f.name f.value f.kind).values.length now
    f.name f.value f.kind
  unfold refused Draft.filterField
  dsimp only
  cases hnumbered : Draft.restriction? 0 now f.name f.value f.kind with
  | none =>
      rw [hnumbered] at hbehind
      simp [hbehind, hshown]
  | some r =>
      rw [hnumbered] at hbehind
      simp [hbehind, hshown, Restriction.isRefused, Restriction.renumber, Draft.bind, Draft.requireName,
        Draft.warn]

end FieldFilter

namespace Draft

variable {d : Draft} {name value : String} {kind : Kind} {now : Int}

/-- The filter that a value is, for the kinds that restrict by themselves. -/
def filtersOf (name value : String) (kind : Kind) : List FieldFilter :=
  if kind.restricts then [⟨name, value, kind⟩] else []

/-- The filter of a pair, if its kind restricts by itself. -/
def pairFilters (custom : CustomFields) (pair : String) : List FieldFilter :=
  (pairFilter? custom pair).elim [] fun f => filtersOf f.name f.value f.kind

/-- The filters of a parameter. The keywords are read as a plain field. -/
def parameterFilters (custom : CustomFields) (parameter : String × Kind × String) : List FieldFilter :=
  match parameter with
  | (_, .filters, value) => (Text.partsSeq "%26" value).flatMap (pairFilters custom)
  | (name, .fieldKeywords, value) => filtersOf name value .field
  | (name, kind, value) => filtersOf name value kind

/-! ## The chart of a request -/

theorem apart_chart : Apart chart :=
  ⟨fun _ _ => rfl, fun _ _ => rfl, fun _ _ => rfl, fun _ _ => rfl, fun _ _ => rfl⟩

/-- A filter is added to the chart whether or not the statement refuses it. -/
theorem chart_filterField (d : Draft) (now : Int) (name value : String) (kind : Kind) :
    (d.filterField now name value kind).1.chart =
      d.chart.appendAll ((filtersOf name value kind).map FieldFilter.searched) := by
  have hshown : (d.showFiltered name value kind).chart = d.chart := apart_chart.showFiltered d name value kind
  have hsome := isSome_restriction? (d.showFiltered name value kind).values.length now name value kind
  unfold filterField filtersOf
  dsimp only
  rw [← hsome]
  cases restriction? (d.showFiltered name value kind).values.length now name value kind with
  | none => exact hshown
  | some r => exact congrArg (Chart.append · (Catalog.searchName name) value) hshown

theorem chart_addFilter (d : Draft) (now : Int) (name value : String) (kind : Kind) :
    (d.addFilter now name value kind).chart =
      d.chart.appendAll ((filtersOf name value kind).map FieldFilter.searched) :=
  d.chart_filterField now name value kind

theorem chart_applyPair (d : Draft) (now : Int) (pair : String) :
    (d.applyPair now pair).chart =
      d.chart.appendAll ((pairFilters d.custom pair).map FieldFilter.searched) := by
  unfold pairFilters
  apply applyPair_cases (motive := fun d' filter? => d'.chart = d.chart.appendAll
    ((filter?.elim [] fun f => filtersOf f.name f.value f.kind).map FieldFilter.searched)) d now pair
  · intro told
    rfl
  · intro name rest _ _ _
    have hcustom : (d.addCustomField name).chart = d.chart :=
      apart_chart.addCustomField d (fun _ _ => rfl) name
    rw [chart_addFilter, hcustom, Option.elim_some]
  · intro name rest kind _ _
    exact d.chart_addFilter now name _ kind

/-- A loop adds the filters of its entries to the chart, if each of its steps does. -/
theorem chart_foldl {α : Type} {f : Draft → α → Draft} (taken : CustomFields → α → List FieldFilter)
    (hstep : ∀ (d : Draft) (x : α), (f d x).custom = d.custom ∧
      (f d x).chart = d.chart.appendAll ((taken d.custom x).map FieldFilter.searched))
    (d : Draft) (xs : List α) :
    (xs.foldl f d).chart = d.chart.appendAll ((xs.flatMap (taken d.custom)).map FieldFilter.searched) := by
  induction xs generalizing d with
  | nil => rfl
  | cons x xs ih =>
      obtain ⟨hcustom, hchart⟩ := hstep d x
      rw [List.foldl_cons, ih, hcustom, hchart, List.flatMap_cons, List.map_append, Chart.appendAll_append]

theorem chart_applyParameter (d : Draft) (now : Int) (parameter : String × Kind × String) :
    (d.applyParameter now parameter).chart =
      d.chart.appendAll ((parameterFilters d.custom parameter).map FieldFilter.searched) := by
  obtain ⟨name, kind, value⟩ := parameter
  cases kind with
  | filters =>
      exact chart_foldl pairFilters (fun d pair => ⟨(d.growsTo_applyPair now pair).custom,
        d.chart_applyPair now pair⟩) d _
  | fieldKeywords => exact d.chart_filterField now name value .field
  | _ => exact d.chart_addFilter now name value _

theorem chart_applySearch (d : Draft) : d.applySearch.chart = d.chart := by
  unfold applySearch
  split
  · rfl
  · rfl

/-- What compiling writes into its store is no filter. -/
theorem parameterFilters_of_written {entry : String × Kind} (hentry : entry ∈ Parameter.schema)
    (hwritten : entry.1 ∈ Store.writtenNames) (custom : CustomFields) (value : String) :
    parameterFilters custom (entry.1, entry.2, value) = [] := by
  obtain ⟨name, kind⟩ := entry
  rcases Store.kind_of_written hentry hwritten with rfl | rfl | rfl
  · rfl
  · rfl
  · rfl

end Draft

/-- The filters of a request, in the order in which they have their turns. -/
def Store.filters (s : Store) : List FieldFilter :=
  (Draft.presentParameters s).flatMap (Draft.parameterFilters (.ofStore s))

/-- The loop over the parameters starts with a store that was written to, but what is written is no filter. -/
theorem filters_prepare (store : Store) :
    (Draft.presentParameters (Draft.start store).prepare.store).flatMap
      (Draft.parameterFilters (Draft.start store).prepare.custom) = store.filters := by
  have hprepared := (Draft.start store).growsTo_prepare
  have hcustom : (Draft.start store).prepare.custom = .ofStore store := hprepared.custom
  have hkept : store.Kept (Draft.start store).prepare.store := hprepared.store
  rw [hcustom, Store.filters]
  exact flatMap_presentParameters_of_kept hkept
    fun entry hentry hwritten value => Draft.parameterFilters_of_written hentry hwritten _ value

/-- The chart of a request holds its filters in order, and nothing else. -/
theorem chart_compile (store : Store) (now : Int) :
    (compile store now).query.chart = Chart.ofFilters (store.filters.map FieldFilter.searched) := by
  have hprepared : (Draft.start store).prepare.chart = {} := Draft.apart_chart.prepare _
  have hloop : ((Draft.start store).prepare.applyParameters now).chart =
      Chart.ofFilters (store.filters.map FieldFilter.searched) := by
    have hadded := Draft.chart_foldl Draft.parameterFilters
      (fun d parameter => ⟨(d.growsTo_applyParameter now parameter).custom,
        d.chart_applyParameter now parameter⟩)
      (Draft.start store).prepare (Draft.presentParameters (Draft.start store).prepare.store)
    rw [hprepared, filters_prepare] at hadded
    exact hadded
  have hconcluded := Draft.apart_chart.conclude ((Draft.start store).prepare.applyParameters now)
    Draft.chart_applySearch
  have harranged := Draft.apart_chart.arrange ((Draft.start store).prepare.applyParameters now).conclude
    fun _ _ => rfl
  have hdrafted : (compile store now).query.chart = (drafted store now).chart := by
    simp only [compile, drafted, Draft.assemble, Draft.warn]
  rw [hdrafted, drafted, harranged, hconcluded, hloop]

/-! ## Leaving filters out -/

namespace Chart

variable {α : Type} {c b : Chart} {k : Nat}

theorem append_of_isInexpressible {field value : String} (h : isInexpressible value.toList = true)
    (chart : Chart) : chart.append field value = chart := by
  unfold append
  rw [if_pos h]

section

variable (g : α → String × String) (keep : α → Bool)

/-- A chart with some filters left out is no longer than the one with all of them. -/
theorem rows_appendAll_filter_le (xs : List α) (h : b.rows + k ≤ c.rows) :
    (b.appendAll ((xs.filter keep).map g)).rows + k ≤ (c.appendAll (xs.map g)).rows := by
  -- A filter that is kept takes as many rows of both charts, and one that is left out widens the gap.
  induction xs generalizing c b with
  | nil => exact h
  | cons x xs ih =>
      have hrows := c.rows_append (g x).1 (g x).2
      cases hkeep : keep x with
      | true =>
          rw [List.filter_cons_of_pos hkeep]
          apply ih
          have hrows' := b.rows_append (g x).1 (g x).2
          dsimp only
          omega
      | false =>
          rw [List.filter_cons_of_neg (by simp [hkeep])]
          apply ih
          dsimp only
          omega

theorem appendAll_filter {xs : List α}
    (h : ∀ x ∈ xs, keep x = false → isInexpressible (g x).2.toList = true) (chart : Chart) :
    chart.appendAll ((xs.filter keep).map g) = chart.appendAll (xs.map g) := by
  induction xs generalizing chart with
  | nil => rfl
  | cons x xs ih =>
      have hrest := ih fun y hy => h y (List.mem_cons_of_mem _ hy)
      cases hkeep : keep x with
      | true =>
          rw [List.filter_cons_of_pos hkeep]
          exact hrest _
      | false =>
          rw [List.filter_cons_of_neg (by simp [hkeep]), hrest, List.map_cons, appendAll_cons,
            append_of_isInexpressible (h x List.mem_cons_self hkeep)]

/-- Filters may be left out of a chart exactly if it passes over them. -/
theorem ofFilters_filter_eq_iff (xs : List α) :
    ofFilters ((xs.filter keep).map g) = ofFilters (xs.map g) ↔
      ∀ x ∈ xs, keep x = false → isInexpressible (g x).2.toList = true := by
  constructor
  · intro heq x hx hkeep
    rw [← rowsFor_eq_zero_iff]
    -- The rows that a filter takes are missing to the end of the chart without it.
    obtain ⟨before, after, rfl⟩ := List.append_of_mem hx
    have hbefore := rows_appendAll_filter_le (c := {}) (b := {}) (k := 0) g keep before (Nat.le_refl _)
    have hrows := (appendAll {} (before.map g)).rows_append (g x).1 (g x).2
    have hafter := rows_appendAll_filter_le (c := (appendAll {} (before.map g)).append (g x).1 (g x).2)
      (b := appendAll {} ((before.filter keep).map g)) (k := rowsFor (g x).2) g keep after (by omega)
    have hsame := congrArg Chart.rows heq
    rw [ofFilters, ofFilters, List.filter_append, List.filter_cons_of_neg (by simp [hkeep]), List.map_append,
      List.map_append, List.map_cons, appendAll_append, appendAll_append, appendAll_cons] at hsame
    omega
  · intro h
    exact appendAll_filter g keep h {}

end

end Chart

/-- The chart holds only filters that the statement understood exactly if it passes over all the others. -/
theorem chart_understood_iff (store : Store) (now : Int) :
    (compile store now).query.chart =
        Chart.ofFilters ((store.filters.filter (! ·.refused now)).map FieldFilter.searched) ↔
      ∀ f ∈ store.filters, f.refused now = true → f.passedOver = true := by
  rw [chart_compile, eq_comm, Chart.ofFilters_filter_eq_iff]
  simp only [Bool.not_eq_false', FieldFilter.passedOver, FieldFilter.searched]

/-- A number that is not understood leaves the statement as it was and gets a row of the chart. -/
theorem chart_holds_refused_number :
    (Store.empty.applyLines ["votes=5"]).1.filters =
        [⟨"status", "!CLOSED", .field⟩, ⟨"votes", "5", .fieldNumber⟩] ∧
      FieldFilter.refused 0 ⟨"votes", "5", .fieldNumber⟩ = true ∧
      (compile (Store.empty.applyLines ["votes=5"]).1 0).diagnostics = [.unknownNumberMatch "votes" "5"] ∧
      (compile (Store.empty.applyLines ["votes=5"]).1 0).query.statement.clauses =
        (compile .empty 0).query.statement.clauses ∧
      (compile (Store.empty.applyLines ["votes=5"]).1 0).query.chart.entries =
        (compile .empty 0).query.chart.entries ++ [⟨1, 0, "votes", false, "5"⟩] := by
  decide +kernel

end BugReport
