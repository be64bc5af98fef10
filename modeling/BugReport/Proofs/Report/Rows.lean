import BugReport.Report.Table
import Mathlib.Data.List.Basic
import Mathlib.Data.List.Induction

/-! # Rows read one by one

A table is made while its rows are read once. What one row does to the bars, the headings, the lines and the sums is
said for each step by itself, and by induction over the rows the progress behind any of them is known in closed form:
the lines and the sums go over the rows up to the limit of the lines, the bars over those up to a limit of their own.
-/

namespace BugReport.Renderer

variable {r : Renderer} {p : Progress} {previous : Option Row} {rows : List Row} {row : Row} {column : String}
  {totalled : List String} {sums : List (String × Binary64)} {rowLimit barLimit : Nat}

/-! ## Bars -/

/-- The value of a row by which the bars count it. -/
def barText (r : Renderer) (column : String) (row : Row) : String :=
  (r.formatter.writeHeading (valueOf row column) column).1

/-- Counting a row in the bars leaves everything else as it is. -/
theorem exists_countRow_eq (r : Renderer) (limit : Nat) (p : Progress) (row : Row) :
    ∃ bars diagnostics, r.countRow limit p row = { p with bars, diagnostics } ∧
      ∀ column, r.store.present? "bar" = some column →
        bars = if p.count < limit then countValue p.bars (r.barText column row) else p.bars := by
  cases hbar : r.store.present? "bar" with
  | none =>
      refine ⟨p.bars, p.diagnostics, ?_, nofun⟩
      simp only [countRow, hbar]
  | some counted =>
      by_cases hlimit : p.count < limit
      · refine ⟨countValue p.bars (r.barText counted row),
          p.diagnostics ++ (r.formatter.writeHeading (valueOf row counted) counted).2, ?_, fun _ hcolumn => ?_⟩
        · simp only [countRow, hbar, if_pos hlimit]
          rfl
        · rw [if_pos hlimit, Option.some.inj hcolumn]
      · refine ⟨p.bars, p.diagnostics, ?_, fun _ _ => (if_neg hlimit).symm⟩
        simp only [countRow, hbar, if_neg hlimit]

/-! ## Headings -/

/-- The heading in front of a row behind another one: there is one if the values of their groups differ. -/
def headingBefore (r : Renderer) (previous : Option Row) (row : Row) : List TableRow :=
  match r.groupColumn? with
  | none => []
  | some column =>
    if previous.map (valueOf · column) = some (valueOf row column) then []
    else [.group (r.formatter.writeHeading (valueOf row column) column).1]

/-- Whether the latest line is that of a row, as far as its group goes. -/
def Progress.Ends (p : Progress) (r : Renderer) (last : Option Row) : Prop :=
  ∀ column, r.groupColumn? = some column → p.group = last.map (valueOf · column)

/-- A heading is put behind the lines, and the group is that of the row. -/
theorem exists_headRow_eq (h : p.Ends r previous) (row : Row) :
    ∃ group diagnostics, r.headRow p row =
        { p with lines := p.lines ++ r.headingBefore previous row, group, diagnostics } ∧
      ∀ column, r.groupColumn? = some column → group = some (valueOf row column) := by
  cases hgrouped : r.groupColumn? with
  | none =>
      refine ⟨p.group, p.diagnostics, ?_, nofun⟩
      simp only [headRow, headingBefore, hgrouped, List.append_nil]
  | some grouped =>
      have hlast : previous.map (valueOf · grouped) = p.group := (h grouped hgrouped).symm
      by_cases hsame : p.group = some (valueOf row grouped)
      · have hagain : (p.group == some (valueOf row grouped)) = true := beq_iff_eq.mpr hsame
        refine ⟨p.group, p.diagnostics, ?_, fun _ hcolumn => Option.some.inj hcolumn ▸ hsame⟩
        simp only [headRow, headingBefore, hgrouped, hlast, hagain, if_pos hsame, if_true, List.append_nil]
      · have hnew : ¬ (p.group == some (valueOf row grouped)) = true := mt beq_iff_eq.mp hsame
        refine ⟨some (valueOf row grouped), p.diagnostics ++ (r.formatter.writeHeading (valueOf row grouped) grouped).2,
          ?_, fun _ hcolumn => Option.some.inj hcolumn ▸ rfl⟩
        simp only [headRow, headingBefore, hgrouped, hlast, if_neg hnew, if_neg hsame]

/-! ## Lines -/

/-- The lines of rows, behind a row before them. -/
def lines (r : Renderer) (previous : Option Row) : List Row → List TableRow
  | [] => []
  | row :: rows => r.headingBefore previous row ++ (r.bugRow row).1 :: r.lines (some row) rows

theorem lines_append (previous : Option Row) (front back : List Row) :
    r.lines previous (front ++ back) =
      r.lines previous front ++ r.lines (front.getLast?.or previous) back := by
  induction front generalizing previous with
  | nil => rfl
  | cons row front ih =>
      have hprevious : front.getLast?.or (some row) = (row :: front).getLast?.or previous := by
        rw [List.getLast?_cons]
        cases front.getLast? <;> rfl
      rw [List.cons_append, lines, lines, ih, hprevious, List.append_assoc, List.cons_append]

/-! ## Sums -/

/-- What a column adds to a sum over rows. A column that is named more than once is added as often. -/
def sum (columns : List String) (column : String) (rows : List Row) : Binary64 :=
  let times := columns.count column
  rows.foldl (fun total row => (List.replicate times (addend row column)).foldl .add total) .zero

theorem sum_concat (columns : List String) (column : String) (rows : List Row) (row : Row) :
    sum columns column (rows ++ [row]) =
      (List.replicate (columns.count column) (addend row column)).foldl .add (sum columns column rows) :=
  List.foldl_concat _ _ _ _

theorem lookup_start (totalled : List String) (sums : List (String × Binary64)) (column : String) :
    (totalled.foldl (fun sums column => putEntry sums column .zero) sums).lookup column =
      if column ∈ totalled then some .zero else sums.lookup column := by
  induction totalled generalizing sums with
  | nil => simp
  | cons first totalled ih =>
      rw [List.foldl_cons, ih, lookup_putEntry]
      by_cases hrest : column ∈ totalled
      · simp [hrest]
      · by_cases hfirst : column = first
        · simp [hfirst]
        · simp [hrest, hfirst]

/-- The cells of a row are added column by column, so each to its own sum as often as the column is named. -/
theorem lookup_foldl_addCell (totalled : List String) (row : Row) (sums : List (String × Binary64))
    (column : String) : (totalled.foldl (addCell row) sums).lookup column =
      if column ∈ totalled then
        some ((List.replicate (totalled.count column) (addend row column)).foldl .add
          ((sums.lookup column).getD .zero))
      else sums.lookup column := by
  induction totalled generalizing sums with
  | nil => simp
  | cons first totalled ih =>
      rw [List.foldl_cons, ih, addCell, lookup_putEntry]
      by_cases hfirst : column = first
      · subst hfirst
        by_cases hrest : column ∈ totalled
        · simp [hrest, List.replicate_succ]
        · simp [hrest, List.count_eq_zero_of_not_mem hrest]
      · have hcount : (first :: totalled).count column = totalled.count column :=
          List.count_cons_of_ne (Ne.symm hfirst)
        simp [hfirst, hcount]

/-! ## The run over the rows -/

/-- What is known of the progress behind some rows. -/
structure Progress.Covers (p : Progress) (r : Renderer) (rowLimit barLimit : Nat) (rows : List Row) : Prop where
  count : p.count = rows.length
  lines : p.lines = r.lines none (rows.take rowLimit)
  ends : p.Ends r (rows.take rowLimit).getLast?
  sums : ∀ totalled, r.totalColumns? = some totalled → ∀ column, p.sums.lookup column =
    if column ∈ totalled then some (sum totalled column (rows.take rowLimit)) else none
  bars : ∀ column, r.store.present? "bar" = some column →
    p.bars = ((rows.take barLimit).map (r.barText column)).foldl countValue []
  truncated : p.truncated = decide (rowLimit < rows.length)

/-- Up to a limit that the rows have not reached, one more row is one more. -/
theorem take_concat_of_lt {limit : Nat} (h : rows.length < limit) (row : Row) :
    (rows ++ [row]).take limit = rows.take limit ++ [row] := by
  have hone : [row].length ≤ limit - rows.length := Nat.le_sub_of_add_le' h
  rw [List.take_append, List.take_of_length_le hone]

theorem covers_start (r : Renderer) (diagnostics : List Diagnostic) :
    (r.start diagnostics).Covers r rowLimit barLimit [] where
  count := rfl
  lines := by
    rw [List.take_nil]
    rfl
  ends := by
    intro column _
    rw [List.take_nil]
    rfl
  sums := by
    intro totalled htotalled column
    simp only [start, htotalled, Option.getD_some, lookup_start, List.lookup_nil, List.take_nil]
    rfl
  bars := by
    intro column _
    rw [List.take_nil]
    rfl
  truncated := rfl

namespace Progress.Covers

/-- The bars behind one more row, whether it has a line or not. -/
theorem bars_concat (h : p.Covers r rowLimit barLimit rows) (row : Row)
    (hbar : r.store.present? "bar" = some column) :
    (if p.count < barLimit then countValue p.bars (r.barText column row) else p.bars) =
      (((rows ++ [row]).take barLimit).map (r.barText column)).foldl countValue [] := by
  rw [h.count, h.bars column hbar]
  by_cases hlimit : rows.length < barLimit
  · rw [if_pos hlimit, take_concat_of_lt hlimit, List.map_append, List.map_singleton, List.foldl_concat]
  · rw [if_neg hlimit, List.take_append_of_le_length (Nat.le_of_not_lt hlimit)]

/-- A row behind the limit of the lines. -/
theorem readRow_of_le (h : p.Covers r rowLimit barLimit rows) (row : Row) (hlimit : rowLimit ≤ rows.length) :
    (r.readRow rowLimit barLimit p row).Covers r rowLimit barLimit (rows ++ [row]) := by
  obtain ⟨bars, told, hcounted, hbars⟩ := r.exists_countRow_eq barLimit p row
  have hread : r.readRow rowLimit barLimit p row =
      { p with count := p.count + 1, bars, truncated := true, diagnostics := told } := by
    simp only [readRow, hcounted, h.count, hlimit, if_true]
  have hshown : (rows ++ [row]).take rowLimit = rows.take rowLimit := List.take_append_of_le_length hlimit
  have hlength : (rows ++ [row]).length = rows.length + 1 := List.length_append
  rw [hread]
  constructor
  case count => rw [hlength, h.count]
  case lines =>
    rw [hshown]
    exact h.lines
  case ends =>
    rw [hshown]
    exact h.ends
  case sums =>
    rw [hshown]
    exact h.sums
  case bars =>
    intro column hbar
    rw [← h.bars_concat row hbar]
    exact hbars column hbar
  case truncated =>
    rw [hlength]
    exact (decide_eq_true (Nat.lt_succ_of_le hlimit)).symm

/-- A row that has a line. -/
theorem readRow_of_lt (h : p.Covers r rowLimit barLimit rows) (row : Row) (hlimit : rows.length < rowLimit) :
    (r.readRow rowLimit barLimit p row).Covers r rowLimit barLimit (rows ++ [row]) := by
  obtain ⟨bars, told, hcounted, hbars⟩ := r.exists_countRow_eq barLimit p row
  have hends : { p with count := p.count + 1, bars, diagnostics := told }.Ends r (rows.take rowLimit).getLast? :=
    h.ends
  obtain ⟨group, headed, hheading, hgroup⟩ := exists_headRow_eq hends row
  have hread : r.readRow rowLimit barLimit p row = r.addRow
      { p with
        count := p.count + 1
        lines := p.lines ++ r.headingBefore (rows.take rowLimit).getLast? row
        group
        bars
        diagnostics := headed } row := by
    have hbelow : ¬ rowLimit ≤ p.count := by
      rw [h.count]
      exact Nat.not_le.mpr hlimit
    simp only [readRow, hcounted, hbelow, if_false, hheading]
  have hshown : (rows ++ [row]).take rowLimit = rows.take rowLimit ++ [row] := take_concat_of_lt hlimit row
  have hlength : (rows ++ [row]).length = rows.length + 1 := List.length_append
  rw [hread]
  constructor
  case count =>
    rw [hlength, ← h.count]
    rfl
  case lines =>
    rw [hshown, lines_append, Option.or_none, Renderer.lines, Renderer.lines, ← h.lines, ← List.append_assoc]
    rfl
  case ends =>
    intro column hcolumn
    rw [hshown, List.getLast?_concat]
    exact hgroup column hcolumn
  case sums =>
    intro totalled htotalled column
    rw [hshown]
    simp only [addRow, htotalled, Option.getD_some, lookup_foldl_addCell, h.sums totalled htotalled column,
      sum_concat]
    split <;> rfl
  case bars =>
    intro column hbar
    rw [← h.bars_concat row hbar]
    exact hbars column hbar
  case truncated =>
    have hnone : p.truncated = false := by
      rw [h.truncated]
      exact decide_eq_false (Nat.not_lt.mpr (Nat.le_of_lt hlimit))
    rw [hlength]
    exact hnone.trans (decide_eq_false (Nat.not_lt.mpr hlimit)).symm

/-- One row, whether it has a line or not. -/
theorem readRow (h : p.Covers r rowLimit barLimit rows) (row : Row) :
    (r.readRow rowLimit barLimit p row).Covers r rowLimit barLimit (rows ++ [row]) := by
  by_cases hlimit : rows.length < rowLimit
  · exact h.readRow_of_lt row hlimit
  · exact h.readRow_of_le row (Nat.le_of_not_lt hlimit)

end Progress.Covers

/-- All rows, by induction from the last one. -/
theorem covers_foldl (r : Renderer) (rowLimit barLimit : Nat) (diagnostics : List Diagnostic) (rows : List Row) :
    (rows.foldl (r.readRow rowLimit barLimit) (r.start diagnostics)).Covers r rowLimit barLimit rows := by
  induction rows using List.reverseRecOn with
  | nil => exact r.covers_start diagnostics
  | append_singleton rows row ih =>
      rw [List.foldl_concat]
      exact ih.readRow row

end BugReport.Renderer
