import BugReport.Proofs.Report.TableLines
import BugReport.Proofs.Text.Columns
import BugReport.Proofs.Text.Parts
import Mathlib.Data.List.Forall2

/-! # The columns of a table in plain text

A column is as wide as the widest of its texts: its heading, its cells and its total. Each line of such texts has them
at the same places, with a bar between any two, and the rules between the lines have a crossing where the lines have
their bars. Only blanks at the end of a line are left out.
-/

namespace BugReport

namespace Table

/-! ## Lines -/

/-- A line of the text of a table. -/
inductive TextLine where
  /-- A text for each column: the headings, the cells of a bug, or the totals. -/
  | cells (cells : List String)
  /-- The rule under the headings and above the totals. -/
  | rule
  /-- A text that does not keep to the columns. -/
  | free (text : String)

def textRow : TableRow → List TextLine
  | .group heading => [.free ("[" ++ heading ++ "]")]
  | .bug _ cells comment => .cells cells :: (comment.map fun comment => .free ("    > " ++ comment)).toList

/-- The headings and the rule under them. -/
def headingLines (t : Table) : List TextLine :=
  match t.headings with
  | some headings => [.cells headings, .rule]
  | none => []

/-- The rule above the totals and the totals. -/
def totalLines (t : Table) : List TextLine :=
  match t.totals with
  | some totals => [.rule, .cells totals]
  | none => []

/-- A note where it applies. -/
def noteLines (applies : Bool) (note : String) : List TextLine :=
  if applies then [.free note] else []

/-- The lines of a table, from the headings to the mark of a table that is cut short. -/
def textLines (t : Table) : List TextLine :=
  t.headingLines ++ noteLines (t.rows.isEmpty && t.totals.isNone) "(no results)" ++ t.rows.flatMap textRow ++
    t.totalLines ++ noteLines t.truncated "..."

/-- What is written before the lines. -/
def textTitle (t : Table) : String :=
  match t.title with
  | some title => title ++ "\n\n"
  | none => ""

/-- What is written behind the lines. -/
def textBars (t : Table) : String :=
  match t.bars with
  | some bars => writeBars bars
  | none => ""

/-- The texts of a column over all lines, with nothing for a line that has none. -/
def columnTexts (t : Table) (column : Nat) : List String :=
  (t.headings.toList ++ t.cellLines ++ t.totals.toList).map fun cells => cells.getD column ""

/-- The largest number of characters in a text of a column. -/
def columnWidth (t : Table) (column : Nat) : Nat :=
  ((t.columnTexts column).map Text.width).foldl max 0

/-- The place at which a column starts. -/
def columnStart (t : Table) : Nat → Nat :=
  Text.columnStart t.columnWidth

/-- The place of the bar behind a column. -/
def barPlace (t : Table) : Nat → Nat :=
  Text.gapCenter t.columnWidth

/-- A line has its cells in the columns of a table if it has them there once blanks are put behind it: each cell from
the start of its column on and filled up with spaces to the width of the column, and a bar between any two. -/
structure InColumns (t : Table) (cells : List String) (line : String) : Prop where
  filled : ∃ blanks : List Char, (∀ c ∈ blanks, Text.isBlank c = true) ∧
    (line.toList ++ blanks).length = t.columnStart t.columns.length - 3 ∧
    (∀ i cell, cells[i]? = some cell →
      ((line.toList ++ blanks).drop (t.columnStart i)).take (t.columnWidth i) =
        cell.toList ++ List.replicate (t.columnWidth i - Text.width cell) ' ') ∧
    ∀ i, i + 1 < t.columns.length →
      ((line.toList ++ blanks).drop (t.columnStart i + t.columnWidth i)).take 3 = [' ', '|', ' ']
  /-- No cell lacks a character but for blanks at the end of the last one. -/
  whole : ∀ i cell, cells[i]? = some cell → ∃ cut : List Char,
    cell.toList = (line.toList.drop (t.columnStart i)).take (Text.width cell) ++ cut ∧
      (∀ c ∈ cut, Text.isBlank c = true) ∧ (i + 1 < t.columns.length → cut = [])
  bars : ∀ i, i + 1 < t.columns.length → line.toList[t.barPlace i]? = some '|'
  trimmed : Text.trimmedRight line = line

/-- A rule is as long as the columns are, of hyphens, but for a crossing where the lines of cells have a bar. -/
structure IsRule (t : Table) (line : String) : Prop where
  length : line.toList.length = t.columnStart t.columns.length - 3
  signs : ∀ c ∈ line.toList, c = '-' ∨ c = '+'
  crossings : ∀ p, line.toList[p]? = some '+' ↔ ∃ i, i + 1 < t.columns.length ∧ p = t.barPlace i

def Writes (t : Table) : TextLine → String → Prop
  | .cells cells, line => t.InColumns cells line
  | .rule, line => t.IsRule line
  | .free text, line => line = text

/-! ## Widths -/

section

variable {t : Table} {cells : List String} {ws : List Nat}

theorem width_empty : Text.width "" = 0 :=
  rfl

theorem getElem?_widen (ws : List Nat) (cells : List String) (i : Nat) :
    (widen ws cells)[i]? = ws[i]?.map fun w => max w (Text.width (cells.getD i "")) := by
  induction ws generalizing cells i with
  | nil => cases cells <;> rfl
  | cons w ws ih =>
      cases cells with
      | nil => simp [widen, width_empty]
      | cons cell cells =>
          cases i with
          | zero => rfl
          | succ i => simpa [widen] using ih cells i

theorem getElem?_foldl_widen (ws : List Nat) (lines : List (List String)) (i : Nat) :
    (lines.foldl widen ws)[i]? =
      ws[i]?.map ((lines.map fun cells => Text.width (cells.getD i "")).foldl max) := by
  induction lines generalizing ws with
  | nil => simp
  | cons cells lines ih =>
      rw [List.foldl_cons, ih, getElem?_widen, Option.map_map]
      rfl

theorem widen_replicate (cells : List String) :
    widen (List.replicate cells.length 0) cells = cells.map Text.width := by
  induction cells with
  | nil => rfl
  | cons cell cells ih =>
      rw [List.length_cons, List.replicate_succ, widen, ih, Nat.zero_max, List.map_cons]

/-- All lines of texts widen the columns, the headings first. -/
theorem Regular.widths_eq_foldl (h : t.Regular) :
    t.widths = (t.headings.toList ++ t.cellLines ++ t.totals.toList).foldl widen
      (List.replicate t.columns.length 0) := by
  rw [widths]
  cases hheadings : t.headings with
  | none => simp
  | some headings =>
      rw [← h.headings headings hheadings, Option.toList_some, List.append_assoc, List.singleton_append,
        List.foldl_cons, widen_replicate]

/-- A column gets its width. -/
theorem Regular.widths_eq (h : t.Regular) : t.widths = (List.range t.columns.length).map t.columnWidth := by
  apply List.ext_getElem?
  intro i
  rw [h.widths_eq_foldl, getElem?_foldl_widen]
  by_cases hi : i < t.columns.length
  · rw [List.getElem?_replicate_of_lt hi, List.getElem?_map, List.getElem?_range hi, Option.map_some, Option.map_some,
      columnWidth, columnTexts, List.map_map]
    rfl
  · rw [List.getElem?_eq_none (by simpa using hi), List.getElem?_eq_none (by simpa using hi), Option.map_none]

theorem le_foldl_max (start : Nat) (ns : List Nat) : ∀ n ∈ start :: ns, n ≤ ns.foldl max start := by
  induction ns generalizing start with
  | nil => simp
  | cons m ns ih =>
      have hmax := ih (max start m) (max start m) List.mem_cons_self
      intro n hn
      rcases List.mem_cons.mp hn with rfl | hn
      · exact Nat.le_trans (Nat.le_max_left n m) hmax
      · rcases List.mem_cons.mp hn with rfl | hn
        · exact Nat.le_trans (Nat.le_max_right start n) hmax
        · exact ih _ n (List.mem_cons_of_mem _ hn)

/-- No cell is wider than its column. -/
theorem width_le_columnWidth (hcells : cells ∈ t.headings.toList ++ t.cellLines ++ t.totals.toList) {i : Nat}
    {cell : String} (hcell : cells[i]? = some cell) : Text.width cell ≤ t.columnWidth i := by
  have hmem : cell ∈ t.columnTexts i := List.mem_map.mpr ⟨cells, hcells, by rw [List.getD_eq_getElem?_getD, hcell]; rfl⟩
  exact le_foldl_max 0 _ _ (List.mem_cons_of_mem 0 (List.mem_map_of_mem hmem))

/-! ## Filling -/

theorem padCells_eq_zipWith (h : cells.length = ws.length) :
    padCells ws cells = List.zipWith Text.padRight ws cells := by
  induction cells generalizing ws with
  | nil =>
      obtain rfl := List.length_eq_zero_iff.mp h.symm
      rfl
  | cons cell cells ih =>
      obtain ⟨w, ws, rfl⟩ := List.exists_cons_of_length_eq_add_one h.symm
      rw [padCells, ih (Nat.succ.inj h), List.zipWith_cons_cons]

/-- The cells of a line as they are filled up. -/
def filledCells (t : Table) (cells : List String) : List (List Char) :=
  (List.zipWith Text.padRight t.widths cells).map String.toList

theorem getElem?_filledCells (h : t.Regular) (hlength : cells.length = t.columns.length) (i : Nat) :
    (t.filledCells cells)[i]? =
      cells[i]?.map fun cell => cell.toList ++ List.replicate (t.columnWidth i - Text.width cell) ' ' := by
  rw [filledCells, h.widths_eq, List.getElem?_map, List.getElem?_zipWith]
  by_cases hi : i < t.columns.length
  · have hcell : cells[i]? = some cells[i] := List.getElem?_eq_getElem (by omega)
    rw [List.getElem?_map, List.getElem?_range hi, hcell]
    simp [Text.padRight, Text.width]
  · rw [List.getElem?_eq_none (by simpa using hi), List.getElem?_eq_none (by omega)]
    rfl

theorem haveWidths_filledCells (h : t.Regular) (hcells : cells ∈ t.headings.toList ++ t.cellLines ++ t.totals.toList)
    (hlength : cells.length = t.columns.length) : Text.HaveWidths t.columnWidth (t.filledCells cells) := by
  intro i part hpart
  rw [getElem?_filledCells h hlength] at hpart
  obtain ⟨cell, hcell, rfl⟩ := Option.map_eq_some_iff.mp hpart
  have hwidth := width_le_columnWidth hcells hcell
  rw [List.length_append, List.length_replicate, ← Text.width, Nat.add_sub_cancel' hwidth]

theorem length_filledCells (h : t.Regular) (hlength : cells.length = t.columns.length) :
    (t.filledCells cells).length = t.columns.length := by
  rw [filledCells, h.widths_eq, List.length_map, List.length_zipWith, List.length_map, List.length_range, hlength,
    Nat.min_self]

/-- The text of a line of cells. -/
def cellsText (t : Table) (cells : List String) : String :=
  Text.trimmedRight (" | ".intercalate (padCells t.widths cells))

theorem toList_cellsText (h : t.Regular) (hlength : cells.length = t.columns.length) :
    (t.cellsText cells).toList = Text.trimRight ([' ', '|', ' '].intercalate (t.filledCells cells)) := by
  have hwidths : cells.length = t.widths.length := by rw [h.widths_eq, List.length_map, List.length_range, hlength]
  rw [cellsText, Text.trimmedRight, String.toList_ofList, String.toList_intercalate, padCells_eq_zipWith hwidths]
  rfl

/-- The cells of a line are in the columns. -/
theorem inColumns_cellsText (h : t.Regular) (hcells : cells ∈ t.headings.toList ++ t.cellLines ++ t.totals.toList)
    (hlength : cells.length = t.columns.length) : t.InColumns cells (t.cellsText cells) := by
  have hsep : [' ', '|', ' '].length = 3 := rfl
  have hwidths := haveWidths_filledCells h hcells hlength
  have hcount := length_filledCells h hlength
  have htext := toList_cellsText h hlength
  obtain ⟨blanks, hfilled, hblanks⟩ := Text.exists_trimRight_append ([' ', '|', ' '].intercalate (t.filledCells cells))
  rw [← htext] at hfilled
  have hcolumn : ∀ i cell, cells[i]? = some cell →
      (((t.cellsText cells).toList ++ blanks).drop (t.columnStart i)).take (t.columnWidth i) =
        cell.toList ++ List.replicate (t.columnWidth i - Text.width cell) ' ' := by
    intro i cell hcell
    rw [← hfilled]
    apply Text.take_column hsep hwidths
    rw [getElem?_filledCells h hlength, hcell]
    rfl
  have hbars : ∀ i, i + 1 < t.columns.length → (t.cellsText cells).toList[t.barPlace i]? = some '|' := by
    intro i hi
    rw [htext]
    exact Text.getElem?_trimRight (Text.getElem?_gapCenter hsep hwidths (by rwa [hcount])) (by decide)
  refine ⟨⟨blanks, hblanks, ?_, hcolumn, ?_⟩, ?_, hbars, ?_⟩
  · rw [← hfilled, Text.length_columns hsep hwidths, hcount]
    rfl
  · intro i hi
    rw [← hfilled]
    exact Text.take_gap hsep hwidths (by rwa [hcount])
  · intro i cell hcell
    have hwidth := width_le_columnWidth hcells hcell
    have hcut := congrArg (List.take (Text.width cell)) (hcolumn i cell hcell)
    rw [List.take_take, Nat.min_eq_left hwidth, Text.width, List.take_left] at hcut
    obtain ⟨cut, heq, hall, hnone⟩ := Text.exists_take_append hblanks hcut
    refine ⟨cut, heq, hall, fun hi => hnone ?_⟩
    obtain ⟨hlong, -⟩ := List.getElem?_eq_some_iff.mp (hbars i hi)
    rw [barPlace, Text.gapCenter] at hlong
    rw [columnStart]
    rw [Text.width] at hwidth
    omega
  · rw [cellsText, Text.trimmedRight, Text.trimmedRight, String.toList_ofList, Text.trimRight_trimRight]

/-- The text of a rule. -/
def ruleText (t : Table) : String :=
  "-+-".intercalate (t.widths.map fun w => Text.repeated w "-")

theorem toList_repeated (n : Nat) (c : Char) : (Text.repeated n (String.singleton c)).toList = List.replicate n c := by
  induction n with
  | zero => rfl
  | succ n ih =>
      rw [Text.repeated, List.replicate_succ, String.join_cons, String.toList_append, ← Text.repeated, ih,
        String.toList_singleton, List.replicate_succ, List.singleton_append]

/-- The parts of a rule under the columns. -/
def hyphens (t : Table) : List (List Char) :=
  (List.range t.columns.length).map fun i => List.replicate (t.columnWidth i) '-'

theorem toList_ruleText (h : t.Regular) : t.ruleText.toList = ['-', '+', '-'].intercalate t.hyphens := by
  rw [ruleText, String.toList_intercalate, h.widths_eq, List.map_map, List.map_map, hyphens]
  refine congrArg _ (List.map_congr_left fun i _ => ?_)
  exact toList_repeated (t.columnWidth i) '-'

theorem haveWidths_hyphens (t : Table) : Text.HaveWidths t.columnWidth t.hyphens := by
  intro i part hpart
  rw [hyphens, List.getElem?_map] at hpart
  obtain ⟨j, hj, rfl⟩ := Option.map_eq_some_iff.mp hpart
  obtain ⟨-, rfl⟩ := List.getElem?_eq_some_iff.mp hj
  simp

theorem isRule_ruleText (h : t.Regular) : t.IsRule t.ruleText := by
  have hcount : t.hyphens.length = t.columns.length := by rw [hyphens, List.length_map, List.length_range]
  have hhyphens : ∀ part ∈ t.hyphens, ∀ c ∈ part, c = '-' := by
    intro part hpart c hc
    obtain ⟨i, -, rfl⟩ := List.mem_map.mp hpart
    exact List.eq_of_mem_replicate hc
  refine ⟨?_, ?_, ?_⟩
  · rw [toList_ruleText h, Text.length_columns rfl (haveWidths_hyphens t), hcount]
    rfl
  · intro c hc
    rw [toList_ruleText h] at hc
    rcases Text.mem_intercalate hc with hsep | ⟨part, hpart, hc⟩
    · simp only [List.mem_cons, List.not_mem_nil, or_false] at hsep
      tauto
    · exact .inl (hhyphens part hpart c hc)
  · intro p
    rw [toList_ruleText h, ← hcount]
    apply Text.getElem?_columns_eq_some_iff (by decide) (by decide) _ (haveWidths_hyphens t)
    intro part hpart hmem
    exact absurd (hhyphens part hpart '+' hmem) (by decide)

end

/-! ## The whole text -/

/-- The text of a line. -/
def lineText (t : Table) : TextLine → String
  | .cells cells => t.cellsText cells
  | .rule => t.ruleText
  | .free text => text

def textOf (t : Table) (lines : List TextLine) : String :=
  String.join (lines.map fun line => t.lineText line ++ "\n")

section

variable (t : Table)

theorem textOf_nil : t.textOf [] = "" :=
  rfl

theorem textOf_cons (line : TextLine) (lines : List TextLine) :
    t.textOf (line :: lines) = t.lineText line ++ "\n" ++ t.textOf lines := by
  rw [textOf, List.map_cons, String.join_cons, ← textOf]

theorem textOf_append (first second : List TextLine) :
    t.textOf (first ++ second) = t.textOf first ++ t.textOf second := by
  rw [textOf, List.map_append, String.join_append, ← textOf, ← textOf]

theorem writeLine_eq (cells : List String) : writeLine t.widths cells = t.lineText (.cells cells) ++ "\n" :=
  rfl

theorem writeSeparator_eq : writeSeparator t.widths = t.lineText .rule ++ "\n" :=
  rfl

theorem writeRow_eq (row : TableRow) : writeRow t.widths row = t.textOf (textRow row) := by
  cases row with
  | group heading =>
      have hend : "]\n" = "]" ++ "\n" := rfl
      rw [textRow, textOf_cons, textOf_nil, String.append_empty, lineText, writeRow, hend, ← String.append_assoc]
  | bug styleClass cells comment =>
      rw [textRow, textOf_cons, ← writeLine_eq]
      cases comment with
      | none => rfl
      | some comment =>
          rw [Option.map_some, Option.toList_some, textOf_cons, textOf_nil, String.append_empty]
          rfl

theorem writeRows_eq (rows : List TableRow) :
    String.join (rows.map (writeRow t.widths)) = t.textOf (rows.flatMap textRow) := by
  induction rows with
  | nil => rfl
  | cons row rows ih => rw [List.map_cons, String.join_cons, writeRow_eq, ih, List.flatMap_cons, textOf_append]

def headingsText : String :=
  match t.headings with
  | some headings => writeLine t.widths headings ++ writeSeparator t.widths
  | none => ""

def totalsText : String :=
  match t.totals with
  | some totals => writeSeparator t.widths ++ writeLine t.widths totals
  | none => ""

theorem headingsText_eq : t.headingsText = t.textOf t.headingLines := by
  rw [headingsText, headingLines]
  cases t.headings with
  | none => rfl
  | some headings => simp only [textOf_cons, textOf_nil, String.append_empty, ← writeLine_eq, ← writeSeparator_eq]

theorem totalsText_eq : t.totalsText = t.textOf t.totalLines := by
  rw [totalsText, totalLines]
  cases t.totals with
  | none => rfl
  | some totals => simp only [textOf_cons, textOf_nil, String.append_empty, ← writeLine_eq, ← writeSeparator_eq]

theorem noteText_eq (applies : Bool) (note : String) :
    (if applies then note ++ "\n" else "") = t.textOf (noteLines applies note) := by
  cases applies with
  | false => rfl
  | true => rw [if_pos rfl, noteLines, if_pos rfl, textOf_cons, textOf_nil, String.append_empty, lineText]

theorem plainText_eq_join : t.plainText = String.join [t.textTitle, t.headingsText,
    if t.rows.isEmpty && t.totals.isNone then "(no results)" ++ "\n" else "",
    String.join (t.rows.map (writeRow t.widths)), t.totalsText, if t.truncated then "..." ++ "\n" else "",
    t.textBars] :=
  rfl

theorem plainText_eq : t.plainText = t.textTitle ++ t.textOf t.textLines ++ t.textBars := by
  rw [plainText_eq_join, headingsText_eq, totalsText_eq, t.noteText_eq, t.noteText_eq, writeRows_eq, textLines]
  simp only [textOf_append, String.join_cons, String.join_nil, String.append_empty, String.append_assoc]

variable {t} in
theorem Regular.length_of_mem (h : t.Regular) {cells : List String}
    (hcells : cells ∈ t.headings.toList ++ t.cellLines ++ t.totals.toList) : cells.length = t.columns.length := by
  rcases List.mem_append.mp hcells with hmem | htotals
  · rcases List.mem_append.mp hmem with hheadings | hbug
    · exact h.headings cells (Option.mem_toList.mp hheadings)
    · exact h.cells cells hbug
  · exact h.totals cells (Option.mem_toList.mp htotals)

variable {t} in
theorem mem_of_cells_mem_textLines {cells : List String} (h : .cells cells ∈ t.textLines) :
    cells ∈ t.headings.toList ++ t.cellLines ++ t.totals.toList := by
  have hnote (applies : Bool) (note : String) : .cells cells ∉ noteLines applies note := by
    cases applies with
    | false => exact List.not_mem_nil
    | true => simp [noteLines]
  simp only [textLines, List.mem_append, hnote, or_false, List.mem_flatMap] at h
  simp only [List.mem_append, Option.mem_toList]
  rcases h with (hheadings | ⟨row, hrow, hcells⟩) | htotals
  · refine .inl (.inl ?_)
    unfold headingLines at hheadings
    split at hheadings
    next headings heq =>
        obtain rfl : cells = headings := by simpa using hheadings
        exact heq
    · cases hheadings
  · cases row with
    | group heading => simp [textRow] at hcells
    | bug styleClass bugCells comment =>
        obtain rfl : cells = bugCells := by simpa [textRow] using hcells
        exact .inl (.inr (List.mem_filterMap.mpr ⟨_, hrow, rfl⟩))
  · refine .inr ?_
    unfold totalLines at htotals
    split at htotals
    next totals heq =>
        obtain rfl : cells = totals := by simpa using htotals
        exact heq
    · cases htotals

end

/-- In plain text a table has its lines one behind the other. Those of headings, bugs and totals have their cells in
the columns of the table, and the rules have their crossings at the bars. -/
theorem plainText_keeps_columns (t : Table) (h : t.Regular) :
    ∃ lines : List String, List.Forall₂ t.Writes t.textLines lines ∧
      t.plainText = t.textTitle ++ String.join (lines.map (· ++ "\n")) ++ t.textBars := by
  refine ⟨t.textLines.map t.lineText, ?_, ?_⟩
  · rw [List.forall₂_map_right_iff, List.forall₂_same]
    intro line hline
    cases line with
    | cells cells =>
        have hcells := mem_of_cells_mem_textLines hline
        exact inColumns_cellsText h hcells (h.length_of_mem hcells)
    | rule => exact isRule_ruleText h
    | free text => rfl
  · rw [plainText_eq, textOf, List.map_map]
    rfl

/-- Totals that are wider than all cells and an empty last cell leave the columns where they are. -/
theorem plainText_keeps_columns_of_totals :
    let t : Table :=
      { columns := ["id", "größe", "votes"]
        headings := some ["ID", "Größe", "Votes"]
        rows := [.group "Widgets", .bug "P1 major" ["7", "", ""] (some "Since 1.0")]
        totals := some ["", "12345.678", ""] }
    t.plainText = "ID | Größe     | Votes\n---+-----------+------\n[Widgets]\n7  |           |\n    > Since 1.0\n" ++
        "---+-----------+------\n   | 12345.678 |\n" ∧
      ∃ lines : List String, List.Forall₂ t.Writes t.textLines lines ∧
        t.plainText = t.textTitle ++ String.join (lines.map (· ++ "\n")) ++ t.textBars := by
  intro t
  have hregular : t.Regular := ⟨by decide, by decide, by decide⟩
  exact ⟨by decide +kernel, plainText_keeps_columns t hregular⟩

end Table

end BugReport
