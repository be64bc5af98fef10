import BugReport.Proofs.Search.Agreement
import Mathlib.Data.List.Nodup

/-! # The numbers of chart entries

Rows are joined by AND and the positions of a row by OR, so two filters must never meet in a row. Each filter
takes rows of its own, behind those that are taken: one row for a list of values, one row for each negated
value, and none for a value that a chart cannot express. The step is one filter that is added; the run goes
over any number of them.
-/

namespace BugReport

/-- The row and the position of an entry. -/
def ChartEntry.place (e : ChartEntry) : Nat × Nat :=
  (e.row, e.position)

namespace Chart

variable {first middle last row : Nat} {field value : String} {entries before after : List ChartEntry}
  {values : List (List Char)}

/-- How entries are numbered: their rows are those from `first` on and before `last`, in order, the positions
of each row count up from zero, and a row of negated values has only one. -/
structure Numbered (first last : Nat) (entries : List ChartEntry) : Prop where
  ordered : (entries.map ChartEntry.row).Pairwise (· ≤ ·)
  used : ∀ row, (∃ e ∈ entries, e.row = row) ↔ first ≤ row ∧ row < last
  positions : ∀ row, ∃ count,
    (entries.filter fun e => e.row == row).map ChartEntry.position = List.range count
  negated : ∀ e ∈ entries, e.negated = true → ∀ other ∈ entries, other.row = e.row → other.position = 0

namespace Numbered

theorem bounds (h : Numbered first last entries) {e : ChartEntry} (he : e ∈ entries) :
    first ≤ e.row ∧ e.row < last :=
  (h.used e.row).mp ⟨e, he, rfl⟩

theorem nil (row : Nat) : Numbered row row [] where
  ordered := List.Pairwise.nil
  used other := by simp
  positions _ := ⟨0, rfl⟩
  negated := by simp

theorem filter_eq_nil (h : Numbered first last entries) (hrow : row < first ∨ last ≤ row) :
    (entries.filter fun e => e.row == row) = [] := by
  rw [List.filter_eq_nil_iff]
  intro e he heq
  have hbounds := h.bounds he
  rw [eq_of_beq heq] at hbounds
  omega

/-- Entries may be numbered on behind others. -/
theorem append (h : Numbered first middle before) (h' : Numbered middle last after) (hfirst : first ≤ middle)
    (hlast : middle ≤ last) : Numbered first last (before ++ after) where
  ordered := by
    rw [List.map_append, List.pairwise_append]
    refine ⟨h.ordered, h'.ordered, ?_⟩
    intro row hrow row' hrow'
    obtain ⟨e, he, rfl⟩ := List.mem_map.mp hrow
    obtain ⟨e', he', rfl⟩ := List.mem_map.mp hrow'
    exact Nat.le_of_lt (Nat.lt_of_lt_of_le (h.bounds he).2 (h'.bounds he').1)
  used row := by
    have hsplit : (∃ e ∈ before ++ after, e.row = row) ↔
        (∃ e ∈ before, e.row = row) ∨ ∃ e ∈ after, e.row = row := by
      simp only [List.mem_append, or_and_right, exists_or]
    rw [hsplit, h.used, h'.used]
    omega
  positions row := by
    rw [List.filter_append]
    rcases Nat.lt_or_ge row middle with hlow | hhigh
    · rw [h'.filter_eq_nil (.inl hlow), List.append_nil]
      exact h.positions row
    · rw [h.filter_eq_nil (.inr hhigh), List.nil_append]
      exact h'.positions row
  negated := by
    intro e he hnegated other hother hrow
    rcases List.mem_append.mp he with hbefore | hafter
    · rcases List.mem_append.mp hother with hmem | hmem
      · exact h.negated e hbefore hnegated other hmem hrow
      · have hlow := (h.bounds hbefore).2
        have hhigh := (h'.bounds hmem).1
        omega
    · rcases List.mem_append.mp hother with hmem | hmem
      · have hlow := (h.bounds hmem).2
        have hhigh := (h'.bounds hafter).1
        omega
      · exact h'.negated e hafter hnegated other hmem hrow

/-- No two entries have the same place. -/
theorem nodup_places (h : Numbered first last entries) : (entries.map ChartEntry.place).Nodup := by
  rw [List.nodup_iff_count_le_one]
  rintro ⟨row, position⟩
  obtain ⟨count, hpositions⟩ := h.positions row
  -- The entries at a place are those of its row at its position.
  have hcount : (entries.map ChartEntry.place).count (row, position) = (List.range count).count position := by
    rw [← hpositions, List.count_eq_countP, List.count_eq_countP, List.countP_map, List.countP_map,
      List.countP_filter]
    apply List.countP_congr
    intro e _
    simp [ChartEntry.place, and_comm]
  rw [hcount]
  exact List.nodup_iff_count_le_one.mp List.nodup_range position

end Numbered

/-! ## One row -/

/-- Entries that share a row and count up their positions. -/
theorem numbered_row (hrow : ∀ e ∈ entries, e.row = row)
    (hpositions : entries.map ChartEntry.position = List.range entries.length) (hne : entries ≠ [])
    (hnegated : ∀ e ∈ entries, e.negated = true → entries.length = 1) :
    Numbered row (row + 1) entries where
  ordered := by
    rw [List.pairwise_map]
    apply List.pairwise_of_forall_mem_list
    intro e he other hother
    exact Nat.le_of_eq ((hrow e he).trans (hrow other hother).symm)
  used other := by
    constructor
    · rintro ⟨e, he, rfl⟩
      have heq := hrow e he
      omega
    · intro hbounds
      obtain ⟨e, he⟩ := List.exists_mem_of_ne_nil entries hne
      have heq := hrow e he
      exact ⟨e, he, by omega⟩
  positions other := by
    by_cases hother : other = row
    · have hall : (entries.filter fun e => e.row == other) = entries := by
        rw [List.filter_eq_self]
        intro e he
        simp [hrow e he, hother]
      exact ⟨entries.length, by rw [hall, hpositions]⟩
    · have hnone : (entries.filter fun e => e.row == other) = [] := by
        rw [List.filter_eq_nil_iff]
        intro e he
        simp [hrow e he, Ne.symm hother]
      exact ⟨0, by rw [hnone]; rfl⟩
  negated := by
    intro e he hsign other hother _
    have hmem : other.position ∈ List.range entries.length :=
      hpositions ▸ List.mem_map.mpr ⟨other, hother, rfl⟩
    rw [hnegated e he hsign] at hmem
    exact Nat.lt_one_iff.mp (List.mem_range.mp hmem)

theorem length_entriesFor (row : Nat) (field : String) (negated : Bool) (values : List (List Char)) :
    (entriesFor row field negated values).length = values.length := by
  rw [entriesFor, List.length_map, List.length_zipIdx]

theorem entriesFor_ne_nil (negated : Bool) (hne : values ≠ []) :
    entriesFor row field negated values ≠ [] := by
  rw [← List.length_pos_iff, length_entriesFor]
  exact List.length_pos_iff.mpr hne

theorem numbered_shared (hne : values ≠ []) :
    Numbered row (row + 1) (entriesFor row field false values) := by
  apply numbered_row
  · intro e he
    obtain ⟨_, _, _, rfl⟩ := mem_entriesFor.mp he
    rfl
  · rw [length_entriesFor, entriesFor, List.map_map, List.range_eq_range',
      ← List.zipIdx_map_snd]
    rfl
  · exact entriesFor_ne_nil false hne
  · intro e he hsign
    obtain ⟨_, _, _, rfl⟩ := mem_entriesFor.mp he
    cases hsign

/-- The first of several negated values takes a row, and the others follow in the next ones. -/
theorem entriesFor_negated_cons (row : Nat) (field : String) (v : List Char) (values : List (List Char)) :
    entriesFor row field true (v :: values) =
      entriesFor row field true [v] ++ entriesFor (row + 1) field true values := by
  simp only [entriesFor, List.zipIdx_cons, List.zipIdx_nil, List.map_cons, List.map_nil, List.singleton_append]
  rw [List.zipIdx_succ, List.map_map]
  congr 2
  funext entry
  simp [Nat.add_comm, Nat.add_left_comm]

theorem numbered_negated (row : Nat) (field : String) (values : List (List Char)) :
    Numbered row (row + values.length) (entriesFor row field true values) := by
  induction values generalizing row with
  | nil => exact .nil row
  | cons v values ih =>
      have hone : Numbered row (row + 1) (entriesFor row field true [v]) :=
        numbered_row (by simp [entriesFor]) (by simp [entriesFor]) (entriesFor_ne_nil true (by simp))
          fun _ _ _ => length_entriesFor row field true [v]
      have hrest := ih (row + 1)
      rw [entriesFor_negated_cons, List.length_cons, Nat.add_comm values.length, ← Nat.add_assoc]
      exact hone.append hrest (Nat.le_add_right _ _) (Nat.le_add_right _ _)

/-! ## One filter -/

/-- The values that a filter lists. -/
def valuesOf (value : String) : List (List Char) :=
  (listOf (escapeBlanks value.toList)).1.splitOn ','

/-- Whether the values of a filter are negated. -/
def isNegated (value : String) : Bool :=
  (listOf (escapeBlanks value.toList)).2

/-- The number of rows that a filter takes. -/
def rowsFor (value : String) : Nat :=
  if isInexpressible value.toList then 0 else if isNegated value then (valuesOf value).length else 1

theorem valuesOf_ne_nil (value : String) : valuesOf value ≠ [] :=
  List.splitOn_ne_nil _ _

theorem rowsFor_eq_zero_iff : rowsFor value = 0 ↔ isInexpressible value.toList = true := by
  have hlength : (valuesOf value).length ≠ 0 := mt List.length_eq_zero_iff.mp (valuesOf_ne_nil value)
  unfold rowsFor
  split
  next hsign => simp [hsign]
  next hsign =>
      split
      · simp [hsign, hlength]
      · simp [hsign]

theorem added_eq_ite (chart : Chart) (field value : String) :
    chart.added field value = if isInexpressible value.toList then [] else
      entriesFor chart.rows field (isNegated value) (valuesOf value) := by
  unfold added append
  split
  · exact List.drop_length
  · exact List.drop_left

theorem append_eq (chart : Chart) (field value : String) :
    chart.append field value = ⟨chart.entries ++ chart.added field value, chart.rows + rowsFor value⟩ := by
  rw [added_eq_ite]
  unfold append rowsFor
  split
  · rw [List.append_nil, Nat.add_zero]
  · rfl

/-- A filter takes the next rows of its chart. -/
theorem numbered_added (chart : Chart) (field value : String) :
    Numbered chart.rows (chart.rows + rowsFor value) (chart.added field value) := by
  rw [added_eq_ite]
  unfold rowsFor
  split
  · exact .nil _
  · split
    next hsign =>
        rw [hsign]
        exact numbered_negated _ _ _
    next hsign =>
        rw [Bool.not_eq_true] at hsign
        rw [hsign]
        exact numbered_shared (valuesOf_ne_nil value)

/-! ## Any number of filters -/

/-- Adds filters in order, each a field and a value. -/
def appendAll (chart : Chart) (filters : List (String × String)) : Chart :=
  filters.foldl (fun chart (field, value) => chart.append field value) chart

/-- The chart of some filters. -/
def ofFilters (filters : List (String × String)) : Chart :=
  appendAll {} filters

/-- What each of some filters adds, when they are added in order. -/
def blocks (chart : Chart) : List (String × String) → List (List ChartEntry)
  | [] => []
  | (field, value) :: filters => chart.added field value :: (chart.append field value).blocks filters

theorem appendAll_cons (chart : Chart) (field value : String) (filters : List (String × String)) :
    chart.appendAll ((field, value) :: filters) = (chart.append field value).appendAll filters := rfl

theorem appendAll_append (chart : Chart) (filters more : List (String × String)) :
    chart.appendAll (filters ++ more) = (chart.appendAll filters).appendAll more :=
  List.foldl_append

theorem entries_appendAll (chart : Chart) (filters : List (String × String)) :
    (chart.appendAll filters).entries = chart.entries ++ (chart.blocks filters).flatten := by
  induction filters generalizing chart with
  | nil => exact (List.append_nil _).symm
  | cons filter filters ih =>
      obtain ⟨field, value⟩ := filter
      rw [appendAll_cons, ih, blocks, List.flatten_cons, ← List.append_assoc]
      congr 1
      rw [append_eq]

theorem rows_append (chart : Chart) (field value : String) :
    (chart.append field value).rows = chart.rows + rowsFor value := by
  rw [append_eq]

theorem rows_le_appendAll (chart : Chart) (filters : List (String × String)) :
    chart.rows ≤ (chart.appendAll filters).rows := by
  induction filters generalizing chart with
  | nil => exact Nat.le_refl _
  | cons filter filters ih =>
      obtain ⟨field, value⟩ := filter
      have hrest := ih (chart.append field value)
      rw [rows_append] at hrest
      exact Nat.le_trans (Nat.le_add_right _ _) hrest

theorem numbered_blocks (chart : Chart) (filters : List (String × String)) :
    Numbered chart.rows (chart.appendAll filters).rows (chart.blocks filters).flatten := by
  induction filters generalizing chart with
  | nil => exact .nil _
  | cons filter filters ih =>
      obtain ⟨field, value⟩ := filter
      have hrest := ih (chart.append field value)
      rw [rows_append] at hrest
      rw [blocks, List.flatten_cons, appendAll_cons]
      refine (chart.numbered_added field value).append hrest (Nat.le_add_right _ _) ?_
      rw [← rows_append chart field]
      exact rows_le_appendAll _ filters

/-- Whether two lists of entries have no row in common. -/
def Disjoint (before after : List ChartEntry) : Prop :=
  ∀ e ∈ before, ∀ other ∈ after, e.row ≠ other.row

theorem disjoint_blocks (chart : Chart) (filters : List (String × String)) :
    (chart.blocks filters).Pairwise Disjoint := by
  induction filters generalizing chart with
  | nil => exact List.Pairwise.nil
  | cons filter filters ih =>
      obtain ⟨field, value⟩ := filter
      refine List.pairwise_cons.mpr ⟨?_, ih _⟩
      intro block hblock e he other hother
      have hlow := ((chart.numbered_added field value).bounds he).2
      have hhigh := ((chart.append field value).numbered_blocks filters).bounds
        (List.mem_flatten.mpr ⟨block, hblock, hother⟩)
      rw [rows_append] at hhigh
      omega

end Chart

end BugReport
