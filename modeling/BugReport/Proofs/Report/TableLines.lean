import BugReport.Proofs.Report.Rows
import BugReport.Report.PlainText
import Mathlib.Data.List.Chain

/-! # The lines of a table

A table has a line for each row up to its limit, in order, and nothing else but headings. A heading stands directly
before the line of a row: of the first row, and of each row whose value of the group differs from that of the row
before it. So there are never two headings in a row, and there is none at the end.
-/

namespace BugReport

def TableRow.isBug : TableRow → Bool
  | bug .. => true
  | group _ => false

/-- The cells of every bug, the headings and the totals are as many as the columns. -/
structure Table.Regular (t : Table) : Prop where
  cells : ∀ cells ∈ t.cellLines, cells.length = t.columns.length
  headings : ∀ headings ∈ t.headings, headings.length = t.columns.length
  totals : ∀ totals ∈ t.totals, totals.length = t.columns.length

namespace Renderer

variable (r : Renderer) (rows : List Row)

/-! ## Limits -/

/-- The limit in effect: the one that is asked for, if it is a number that the configured limit admits, and else the
configured one. -/
def limitInEffect (asked : Option String) (configured : Nat) : Nat :=
  ((asked.bind Text.natural?).filter fun n => n ≤ greatestLimit && n ≤ configured).getD configured

theorem limit_fst (parameter : String) (configured : Nat) :
    (r.limit parameter configured).1 = limitInEffect (r.store.present? parameter) configured := by
  unfold limit limitInEffect
  cases r.store.present? parameter with
  | none => rfl
  | some value =>
      cases hread : Text.natural? value with
      | none => simp [hread]
      | some n =>
          simp only [hread, Option.bind_some, Option.filter_some, Bool.and_eq_true, decide_eq_true_eq]
          by_cases hgreatest : n ≤ greatestLimit
          · by_cases hconfigured : n ≤ configured
            · simp [hgreatest, hconfigured, Nat.not_lt.mpr hconfigured]
            · simp [hgreatest, hconfigured, Nat.lt_of_not_le hconfigured]
          · simp [hgreatest]

/-- The limit on the lines of bugs. -/
def rowLimit : Nat :=
  limitInEffect (r.store.present? "maxrows") r.settings.maxRows

/-- The limit on the rows that the bars count. -/
def barLimit : Nat :=
  limitInEffect (r.store.present? "maxrowsbar") r.settings.maxRowsBar

theorem maxRows_fst : r.maxRows.1 = r.rowLimit :=
  r.limit_fst "maxrows" r.settings.maxRows

theorem maxRowsBar_fst : r.maxRowsBar.1 = r.barLimit :=
  r.limit_fst "maxrowsbar" r.settings.maxRowsBar

/-- The run over all rows goes over them up to these limits. -/
theorem covers_progress : (r.progress rows).Covers r r.rowLimit r.barLimit rows := by
  rw [← maxRows_fst, ← maxRowsBar_fst]
  exact r.covers_foldl _ _ _ rows

theorem lines_render : (r.render rows).1.rows = r.lines none (rows.take r.rowLimit) :=
  (r.covers_progress rows).lines

theorem truncated_render : (r.render rows).1.truncated = true ↔ r.rowLimit < rows.length := by
  have htruncated : (r.render rows).1.truncated = decide (r.rowLimit < rows.length) :=
    (r.covers_progress rows).truncated
  rw [htruncated, decide_eq_true_iff]

/-! ## Headings -/

/-- The headings that belong before the row at a place: one, if there is a group and the row is the first or its
value of the group differs from that of the row before it. -/
def headingsAt (place : Nat) (row : Row) : List TableRow :=
  match r.groupColumn? with
  | none => []
  | some column =>
    if place = 0 ∨ rows[place - 1]?.map (valueOf · column) ≠ some (valueOf row column) then
      [.group (r.formatter.writeHeading (valueOf row column) column).1]
    else []

variable {r rows} {front back : List Row} {row : Row} {previous : Option Row}

theorem headingBefore_cases (r : Renderer) (previous : Option Row) (row : Row) :
    r.headingBefore previous row = [] ∨ ∃ heading, r.headingBefore previous row = [.group heading] := by
  unfold headingBefore
  split
  · exact .inl rfl
  · split
    · exact .inl rfl
    · exact .inr ⟨_, rfl⟩

theorem headingBefore_eq_headingsAt (r : Renderer) (front back : List Row) (row : Row) :
    r.headingBefore front.getLast? row = r.headingsAt (front ++ row :: back) front.length row := by
  rw [headingBefore, headingsAt]
  cases r.groupColumn? with
  | none => rfl
  | some column =>
      rcases List.eq_nil_or_concat' front with rfl | ⟨front, last, rfl⟩
      · simp
      · by_cases hsame : valueOf last column = valueOf row column
        · simp [hsame]
        · simp [hsame]

/-! ## The lines of rows -/

theorem filter_isBug_lines (previous : Option Row) (rows : List Row) :
    (r.lines previous rows).filter TableRow.isBug = rows.map fun row => (r.bugRow row).1 := by
  induction rows generalizing previous with
  | nil => rfl
  | cons row rows ih =>
      rw [lines, List.filter_append, List.filter_cons_of_pos rfl, ih, List.map_cons]
      rcases r.headingBefore_cases previous row with hnone | ⟨heading, hone⟩
      · rw [hnone, List.filter_nil, List.nil_append]
      · rw [hone, List.filter_cons_of_neg Bool.false_ne_true, List.filter_nil, List.nil_append]

theorem countP_isBug_lines (previous : Option Row) (rows : List Row) :
    (r.lines previous rows).countP TableRow.isBug = rows.length := by
  rw [List.countP_eq_length_filter, filter_isBug_lines, List.length_map]

/-- The last line is that of the last row. -/
theorem isBug_getLast?_lines {last : TableRow} (h : last ∈ (r.lines previous rows).getLast?) :
    last.isBug = true := by
  rcases List.eq_nil_or_concat' rows with rfl | ⟨front, row, rfl⟩
  · cases h
  · rw [lines_append, lines, lines, List.getLast?_append_of_ne_nil _ (by simp), List.getLast?_append_cons,
      List.getLast?_singleton] at h
    cases h
    rfl

theorem isChain_lines (previous : Option Row) (rows : List Row) :
    (r.lines previous rows).IsChain fun first second => first.isBug || second.isBug := by
  induction rows generalizing previous with
  | nil => exact .nil
  | cons row rows ih =>
      have hbug : ((r.bugRow row).1 :: r.lines (some row) rows).IsChain
          fun first second => first.isBug || second.isBug :=
        List.isChain_cons.mpr ⟨fun _ _ => rfl, ih (some row)⟩
      rw [lines]
      rcases r.headingBefore_cases previous row with hnone | ⟨heading, hone⟩
      · rw [hnone]
        exact hbug
      · rw [hone]
        exact List.isChain_cons_cons.mpr ⟨rfl, hbug⟩

/-- What stands before the line of a row: the lines of the rows before it, and its own headings. -/
theorem lines_split (r : Renderer) (front back : List Row) (row : Row) :
    r.lines none (front ++ row :: back) = r.lines none front ++
      r.headingsAt (front ++ row :: back) front.length row ++
      (r.bugRow row).1 :: r.lines (some row) back := by
  rw [lines_append, Option.or_none, lines, r.headingBefore_eq_headingsAt front back row, List.append_assoc]

/-! ## Tables -/

theorem length_cells_of_mem_lines {styleClass : String} {cells : List String} {comment : Option String}
    (h : .bug styleClass cells comment ∈ r.lines previous rows) : cells.length = r.query.columns.length := by
  have hbug : .bug styleClass cells comment ∈ (r.lines previous rows).filter TableRow.isBug :=
    List.mem_filter.mpr ⟨h, rfl⟩
  rw [filter_isBug_lines] at hbug
  obtain ⟨row, -, hrow⟩ := List.mem_map.mp hbug
  cases hrow
  simp

theorem regular_render (r : Renderer) (rows : List Row) : (r.render rows).1.Regular where
  cells := by
    intro cells hcells
    obtain ⟨line, hline, hcells⟩ := List.mem_filterMap.mp hcells
    cases line with
    | group heading => cases hcells
    | bug styleClass cells comment =>
        cases hcells
        rw [lines_render] at hline
        exact length_cells_of_mem_lines hline
  headings := by
    intro headings hheadings
    simp only [render] at hheadings
    split at hheadings
    · cases hheadings
    · cases hheadings
      exact List.length_map _
  totals := by
    intro totals htotals
    obtain ⟨totalled, -, rfl⟩ := Option.map_eq_some_iff.mp htotals
    exact List.length_map _

/-- How a table presents rows. -/
structure Presents (r : Renderer) (rows : List Row) (t : Table) : Prop where
  columns : t.columns = r.query.columns
  regular : t.Regular
  /-- There is a line for each row up to the limit. -/
  bugs : t.rows.filter TableRow.isBug = (rows.take r.rowLimit).map fun row => (r.bugRow row).1
  truncated : t.truncated = true ↔ r.rowLimit < rows.length
  /-- Between the line of a row and the line before it there are its headings. -/
  headed : ∀ place row, (rows.take r.rowLimit)[place]? = some row → ∃ before after,
    t.rows = before ++ r.headingsAt rows place row ++ (r.bugRow row).1 :: after ∧
      before.countP TableRow.isBug = place ∧ ∀ last ∈ before.getLast?, last.isBug = true
  separated : t.rows.IsChain fun first second => first.isBug || second.isBug
  last : ∀ last ∈ t.rows.getLast?, last.isBug = true

/-- The limit does not change the headings of the rows within it. -/
theorem headingsAt_take {limit place : Nat} (h : place < limit) (row : Row) :
    r.headingsAt (rows.take limit) place row = r.headingsAt rows place row := by
  have hbefore : (rows.take limit)[place - 1]? = rows[place - 1]? :=
    List.getElem?_take_of_lt (Nat.lt_of_le_of_lt (Nat.sub_le place 1) h)
  rw [headingsAt, headingsAt, hbefore]

/-- Every table presents its rows: those up to the limit in order, with the headings of the group where its value
changes, and no other lines. -/
theorem render_presents (r : Renderer) (rows : List Row) : r.Presents rows (r.render rows).1 := by
  have hlines := r.lines_render rows
  refine ⟨rfl, r.regular_render rows, ?_, r.truncated_render rows, ?_, ?_, ?_⟩
  · rw [hlines, filter_isBug_lines]
  · intro place row hrow
    obtain ⟨hplace, hget⟩ := List.getElem?_eq_some_iff.mp hrow
    have hshown : rows.take r.rowLimit =
        (rows.take r.rowLimit).take place ++ row :: (rows.take r.rowLimit).drop (place + 1) := by
      rw [← hget, List.getElem_cons_drop, List.take_append_drop]
    have hlength : ((rows.take r.rowLimit).take place).length = place :=
      List.length_take_of_le (Nat.le_of_lt hplace)
    have hlimit : place < r.rowLimit := Nat.lt_of_lt_of_le hplace (List.length_take_le _ _)
    have hsplit := r.lines_split ((rows.take r.rowLimit).take place)
      ((rows.take r.rowLimit).drop (place + 1)) row
    rw [← hshown, hlength, headingsAt_take hlimit] at hsplit
    refine ⟨_, _, hlines.trans hsplit, ?_, fun last hlast => isBug_getLast?_lines hlast⟩
    rw [countP_isBug_lines, hlength]
  · rw [hlines]
    exact isChain_lines _ _
  · rw [hlines]
    exact fun last hlast => isBug_getLast?_lines hlast

end Renderer

end BugReport
