import BugReport.Proofs.Report.TableLines
import BugReport.Proofs.Text.EscapedBars
import BugReport.Report.Markdown

/-! # The columns of a table in Markdown

Each line of a table is put together of contents with bars around them, as many as there are columns. The contents of
cells and comments have their bars escaped. Headings, the headings of groups and totals are written as they are, so
the line has more cells than columns if one of them has a bar of its own.
-/

namespace BugReport

open Escaping

/-- The texts that a line has as they are. -/
def TableRow.plainTexts : TableRow → List String
  | group heading => [heading]
  | bug .. => []

/-- The texts that a line has with their bars escaped. -/
def TableRow.escapedTexts : TableRow → List String
  | group _ => []
  | bug _ cells comment => cells ++ comment.toList

namespace Table

/-! ## Lines -/

/-- What the line of some cells has between its bars. -/
def cellContents (cells : List String) : List String :=
  cells.map fun cell => " " ++ cell ++ " "

/-- What a line has between its bars whose first cell is followed by empty ones. -/
def spanContents (columns : Nat) (first : String) : List String :=
  (" " ++ first ++ " ") :: List.replicate (columns - 1) " "

def rowContents (columns : Nat) : TableRow → List (List String)
  | .group heading => [spanContents columns ("**" ++ heading ++ "**")]
  | .bug _ cells comment =>
    cellContents (cells.map escapeBars) ::
      (comment.map fun comment => spanContents columns ("*" ++ escapeBars comment ++ "*")).toList

/-- Whether there is nothing to write lines for. -/
def isBlank (t : Table) : Bool :=
  t.rows.isEmpty && t.totals.isNone

def shownHeadings (t : Table) : List String :=
  t.headings.getD (t.columns.map fun _ => " ")

/-- What the lines of a table have between their bars. -/
def contents (t : Table) : List (List String) :=
  if t.isBlank then []
  else
    cellContents t.shownHeadings :: cellContents (t.shownHeadings.map fun _ => "---") ::
      (t.rows.flatMap (rowContents t.columns.length) ++
        (t.totals.map fun totals => cellContents (totals.map fun total => "**" ++ total ++ "**")).toList)

def markdownLines (t : Table) : List String :=
  t.contents.map lineOf

/-- What is written before the lines. -/
def markdownTitle (t : Table) : String :=
  match t.title with
  | some title => "### " ++ title ++ "\n\n"
  | none => ""

def markdownTotals : Option (List String) → String
  | some totals => markdownLine (totals.map fun total => "**" ++ total ++ "**")
  | none => ""

def markdownBars : Option (List BarEntry) → String
  | some bars => "\n" ++ String.join (bars.map fun b => "- " ++ b.value ++ ": " ++ toString b.count ++ "\n")
  | none => ""

/-- What is written behind the lines, or in their place. -/
def markdownEnd (t : Table) : String :=
  if t.isBlank then "*No results*\n" else markdownBars t.bars

section

variable {cells : List String} {columns : Nat}

theorem intercalate_bars (cell : String) (cells : List String) :
    " " ++ String.intercalate " | " (cell :: cells) ++ " |" =
      String.join ((cellContents (cell :: cells)).map (· ++ "|")) := by
  have hbar : " |" = " " ++ "|" := rfl
  have hbetween : " | " = " " ++ "|" ++ " " := rfl
  induction cells generalizing cell with
  | nil =>
      simp only [String.intercalate_singleton, cellContents, List.map_cons, List.map_nil, String.join_cons,
        String.join_nil, String.append_empty, hbar, String.append_assoc]
  | cons other cells ih =>
      rw [cellContents, List.map_cons, List.map_cons, String.join_cons, ← cellContents, ← ih other,
        String.intercalate_cons_cons, hbetween]
      simp only [String.append_assoc]

theorem markdownLine_eq (h : cells ≠ []) : markdownLine cells = lineOf (cellContents cells) ++ "\n" := by
  have hstart : "| " = "|" ++ " " := rfl
  have hend : " |\n" = " |" ++ "\n" := rfl
  obtain ⟨cell, cells, rfl⟩ := List.exists_cons_of_ne_nil h
  rw [markdownLine, lineOf, ← intercalate_bars, hstart, hend]
  simp only [String.append_assoc]

theorem markdownSpan_eq (columns : Nat) (first : String) :
    markdownSpan columns first = lineOf (spanContents columns first) ++ "\n" := by
  have hstart : "| " = "|" ++ " " := rfl
  have hbar : " |" = " " ++ "|" := rfl
  rw [markdownSpan, lineOf, spanContents, List.map_cons, List.map_replicate, String.join_cons, ← Text.repeated,
    hstart, hbar]
  simp only [String.append_assoc]

/-- The text of some lines. -/
def linesText (contents : List (List String)) : String :=
  String.join (contents.map fun line => lineOf line ++ "\n")

theorem linesText_nil : linesText [] = "" :=
  rfl

theorem linesText_cons (line : List String) (contents : List (List String)) :
    linesText (line :: contents) = lineOf line ++ "\n" ++ linesText contents := by
  rw [linesText, List.map_cons, String.join_cons, ← linesText]

theorem linesText_append (first second : List (List String)) :
    linesText (first ++ second) = linesText first ++ linesText second := by
  rw [linesText, List.map_append, String.join_append, ← linesText, ← linesText]

theorem linesText_flatMap (f : TableRow → List (List String)) (rows : List TableRow) :
    linesText (rows.flatMap f) = String.join (rows.map fun row => linesText (f row)) := by
  induction rows with
  | nil => rfl
  | cons row rows ih => rw [List.flatMap_cons, linesText_append, ih, List.map_cons, String.join_cons]

theorem markdownRow_eq {row : TableRow}
    (h : ∀ styleClass cells comment, row = .bug styleClass cells comment → cells ≠ []) :
    markdownRow columns row = linesText (rowContents columns row) := by
  cases row with
  | group heading =>
      rw [rowContents, linesText_cons, ← markdownSpan_eq, linesText_nil, String.append_empty, markdownRow]
  | bug styleClass cells comment =>
      have hcells : cells.map escapeBars ≠ [] := fun hnil => h _ _ _ rfl (List.map_eq_nil_iff.mp hnil)
      rw [rowContents, linesText_cons, ← markdownLine_eq hcells]
      cases comment with
      | none => rfl
      | some comment =>
          rw [Option.map_some, Option.toList_some, linesText_cons, ← markdownSpan_eq, linesText_nil,
            String.append_empty]
          rfl

theorem markdownTotals_eq {totals : Option (List String)} (h : ∀ cells ∈ totals, cells ≠ []) :
    markdownTotals totals =
      linesText (totals.map fun cells => cellContents (cells.map fun total => "**" ++ total ++ "**")).toList := by
  cases totals with
  | none => rfl
  | some cells =>
      have hcells : cells.map (fun total => "**" ++ total ++ "**") ≠ [] := fun hnil =>
        h cells rfl (List.map_eq_nil_iff.mp hnil)
      rw [markdownTotals, markdownLine_eq hcells, Option.map_some, Option.toList_some, linesText_cons, linesText_nil,
        String.append_empty]

end

section

variable {t : Table}

theorem mem_cellLines {styleClass : String} {cells : List String} {comment : Option String}
    (h : .bug styleClass cells comment ∈ t.rows) : cells ∈ t.cellLines :=
  List.mem_filterMap.mpr ⟨_, h, rfl⟩

theorem Regular.length_shownHeadings (h : t.Regular) : t.shownHeadings.length = t.columns.length := by
  rw [shownHeadings]
  cases hheadings : t.headings with
  | none => exact List.length_map _
  | some headings => exact h.headings headings hheadings

/-- Every line has contents for each column. -/
theorem Regular.length_contents (h : t.Regular) (hcolumns : t.columns ≠ []) {line : List String}
    (hline : line ∈ t.contents) : line.length = t.columns.length := by
  have hspan (first : String) : (spanContents t.columns.length first).length = t.columns.length := by
    rw [spanContents, List.length_cons, List.length_replicate]
    exact Nat.sub_add_cancel (List.length_pos_iff.mpr hcolumns)
  rw [contents] at hline
  split at hline
  · cases hline
  · simp only [List.mem_cons, List.mem_append, List.mem_flatMap, Option.mem_toList, Option.map_eq_some_iff] at hline
    rcases hline with rfl | rfl | ⟨row, hrow, hline⟩ | ⟨totals, htotals, rfl⟩
    · simp only [cellContents, List.length_map, h.length_shownHeadings]
    · simp only [cellContents, List.length_map, h.length_shownHeadings]
    · cases row with
      | group heading =>
          obtain rfl := List.mem_singleton.mp hline
          exact hspan _
      | bug styleClass cells comment =>
          rcases List.mem_cons.mp hline with rfl | hcomment
          · simp only [cellContents, List.length_map, h.cells cells (mem_cellLines hrow)]
          · obtain ⟨comment, -, rfl⟩ := Option.map_eq_some_iff.mp (Option.mem_toList.mp hcomment)
            exact hspan _
    · simp only [cellContents, List.length_map, h.totals totals htotals]

theorem markdown_of_blank (h : t.isBlank = true) : t.markdown = t.markdownTitle ++ "*No results*\n" :=
  if_pos h

theorem markdown_of_not_blank (h : ¬ t.isBlank = true) :
    t.markdown = String.join [t.markdownTitle, markdownLine t.shownHeadings,
      markdownLine (t.shownHeadings.map fun _ => "---"), String.join (t.rows.map (markdownRow t.columns.length)),
      markdownTotals t.totals, markdownBars t.bars] :=
  if_neg h

theorem markdown_eq (hcolumns : t.columns ≠ []) (h : t.Regular) :
    t.markdown = t.markdownTitle ++ String.join (t.markdownLines.map (· ++ "\n")) ++ t.markdownEnd := by
  have hne {cells : List String} (hlength : cells.length = t.columns.length) : cells ≠ [] := fun hnil =>
    hcolumns (List.length_eq_zero_iff.mp (by rw [← hlength, hnil, List.length_nil]))
  have hlines : String.join (t.markdownLines.map (· ++ "\n")) = linesText t.contents := by
    rw [markdownLines, List.map_map]
    rfl
  rw [hlines, markdownEnd, contents]
  by_cases hblank : t.isBlank = true
  · rw [markdown_of_blank hblank, if_pos hblank, if_pos hblank, linesText_nil, String.append_empty]
  · have hheadings : t.shownHeadings ≠ [] := hne h.length_shownHeadings
    have hmarks : t.shownHeadings.map (fun _ => "---") ≠ [] := fun hnil => hheadings (List.map_eq_nil_iff.mp hnil)
    have hrows : String.join (t.rows.map (markdownRow t.columns.length)) =
        linesText (t.rows.flatMap (rowContents t.columns.length)) := by
      rw [linesText_flatMap]
      refine congrArg String.join (List.map_congr_left fun row hrow => markdownRow_eq ?_)
      rintro styleClass cells comment rfl
      exact hne (h.cells cells (mem_cellLines hrow))
    have htotals := markdownTotals_eq fun totals htotals => hne (h.totals totals htotals)
    rw [markdown_of_not_blank hblank, if_neg hblank, if_neg hblank, markdownLine_eq hheadings, markdownLine_eq hmarks,
      hrows, htotals]
    simp only [linesText_cons, linesText_append, String.join_cons, String.join_nil, String.append_empty,
      String.append_assoc]

end

/-! ## Texts -/

/-- The texts that are written into the lines as they are: headings, headings of groups, and totals. -/
def plainTexts (t : Table) : List String :=
  t.headings.getD [] ++ t.rows.flatMap TableRow.plainTexts ++ t.totals.getD []

/-- The texts that are written into the lines with their bars escaped: cells and comments. -/
def escapedTexts (t : Table) : List String :=
  t.rows.flatMap TableRow.escapedTexts

/-- What holds of contents, when something holds of texts that are written as they are, and something of texts whose
bars are escaped. -/
structure Framing (P R Q : String → Prop) : Prop where
  padded : ∀ text, P (" " ++ text ++ " ") ↔ R text
  starred : ∀ text, R ("*" ++ text ++ "*") ↔ R text
  escaped : ∀ text, R (escapeBars text) ↔ Q text
  empty : P " "
  hidden : R " "
  mark : R "---"

namespace Framing

variable {P R Q : String → Prop} {cells : List String} {t : Table}

theorem strong (h : Framing P R Q) (text : String) : R ("**" ++ text ++ "**") ↔ R text := by
  have hstars : "**" ++ text ++ "**" = "*" ++ ("*" ++ text ++ "*") ++ "*" := by
    have htwo : "**" = "*" ++ "*" := rfl
    rw [htwo]
    simp only [String.append_assoc]
  rw [hstars, h.starred, h.starred]

theorem cellContents (h : Framing P R Q) :
    (∀ content ∈ cellContents cells, P content) ↔ ∀ cell ∈ cells, R cell := by
  simp only [Table.cellContents, List.forall_mem_map, h.padded]

theorem spanContents (h : Framing P R Q) (columns : Nat) (first : String) :
    (∀ content ∈ spanContents columns first, P content) ↔ R first := by
  rw [Table.spanContents, List.forall_mem_cons, h.padded]
  refine and_iff_left fun content hcontent => ?_
  rw [List.eq_of_mem_replicate hcontent]
  exact h.empty

theorem rowContents (h : Framing P R Q) (columns : Nat) (row : TableRow) :
    (∀ line ∈ rowContents columns row, ∀ content ∈ line, P content) ↔
      (∀ text ∈ row.plainTexts, R text) ∧ ∀ text ∈ row.escapedTexts, Q text := by
  cases row with
  | group heading =>
      simp only [Table.rowContents, TableRow.plainTexts, TableRow.escapedTexts, List.forall_mem_singleton,
        h.spanContents, h.strong]
      simp
  | bug styleClass cells comment =>
      rw [TableRow.plainTexts, TableRow.escapedTexts, and_iff_right (List.forall_mem_nil _), List.forall_mem_append,
        Table.rowContents, List.forall_mem_cons, h.cellContents, List.forall_mem_map]
      simp only [h.escaped]
      cases comment with
      | none => simp
      | some comment => simp [h.spanContents, h.starred, h.escaped]

theorem shownHeadings (h : Framing P R Q) :
    (∀ heading ∈ t.shownHeadings, R heading) ↔ ∀ heading ∈ t.headings.getD [], R heading := by
  rw [Table.shownHeadings]
  cases t.headings with
  | none => simp [h.hidden]
  | some headings => rfl

theorem totals (h : Framing P R Q) (totals : Option (List String)) :
    (∀ line ∈ (totals.map fun totals => Table.cellContents (totals.map fun total => "**" ++ total ++ "**")).toList,
      ∀ content ∈ line, P content) ↔ ∀ total ∈ totals.getD [], R total := by
  cases totals with
  | none => simp
  | some totals =>
      rw [Option.map_some, Option.toList_some, List.forall_mem_singleton, h.cellContents, List.forall_mem_map]
      simp only [h.strong, Option.getD_some]

/-- All contents are those of texts. -/
theorem contents (h : Framing P R Q) : (∀ line ∈ t.contents, ∀ content ∈ line, P content) ↔
    t.isBlank ∨ (∀ text ∈ t.plainTexts, R text) ∧ ∀ text ∈ t.escapedTexts, Q text := by
  have hmarks : ∀ mark ∈ t.shownHeadings.map fun _ => "---", R mark := List.forall_mem_map.mpr fun _ _ => h.mark
  have hrows : (∀ line ∈ t.rows.flatMap (Table.rowContents t.columns.length), ∀ content ∈ line, P content) ↔
      (∀ text ∈ t.rows.flatMap TableRow.plainTexts, R text) ∧ ∀ text ∈ t.escapedTexts, Q text := by
    simp only [List.forall_mem_flatMap, h.rowContents, Table.escapedTexts, forall_and]
  by_cases hblank : t.isBlank = true
  · simp [Table.contents, hblank]
  · rw [Table.contents, if_neg hblank, List.forall_mem_cons, List.forall_mem_cons, List.forall_mem_append,
      h.cellContents, h.cellContents, h.shownHeadings, h.totals, hrows, and_iff_right hmarks, or_iff_right hblank,
      Table.plainTexts, List.forall_mem_append, List.forall_mem_append]
    tauto

end Framing

/-- No bar of a text ends a cell: those of headings and totals are escaped as they are, and those of cells and comments
once they have a backslash in front. -/
structure EscapesBars (t : Table) (e : Escaping) : Prop where
  plain : ∀ text ∈ t.plainTexts, e.Guards text
  escaped : ∀ text ∈ t.escapedTexts, e.Admits text

theorem toList_escapeBars (text : String) : (escapeBars text).toList = guarded text.toList := by
  rw [escapeBars, Text.substitute, String.toList_ofList]
  rfl

theorem guards_framed {e : Escaping} {before text behind : String} (hbefore : '|' ∉ before.toList)
    (hescapes : e.after false before.toList = false) (hbehind : '|' ∉ behind.toList) :
    e.Guards (before ++ text ++ behind) ↔ e.Guards text := by
  rw [Guards, String.toList_append, String.toList_append]
  exact atBars_framed hbefore hescapes hbehind

theorem framing_guards (e : Escaping) : Framing e.Guards e.Guards e.Admits where
  padded text := guards_framed (by decide) rfl (by decide)
  starred text := guards_framed (by decide) rfl (by decide)
  escaped text := by
    rw [Guards, toList_escapeBars]
    exact atBars_guarded_iff text
  empty := atBars_of_not_mem (by decide)
  hidden := atBars_of_not_mem (by decide)
  mark := atBars_of_not_mem (by decide)

theorem framing_newline :
    Framing ('\n' ∉ ·.toList) ('\n' ∉ ·.toList) ('\n' ∉ ·.toList) where
  padded text := by simp
  starred text := by simp
  escaped text := by
    rw [toList_escapeBars, mem_guarded_iff (by decide) (by decide)]
  empty := by decide
  hidden := by decide
  mark := by decide

/-- Behind contents there is a blank, which does not escape the bar. -/
theorem framing_after (e : Escaping) :
    Framing (e.after false ·.toList = false) (fun _ => True) (fun _ => True) where
  padded text := by
    rw [String.toList_append]
    exact iff_true_intro (after_concat_of_ne (by decide))
  starred text := Iff.rfl
  escaped text := Iff.rfl
  empty := rfl
  hidden := trivial
  mark := trivial

/-- In Markdown a table has its lines one behind the other, and each has a cell for every column exactly if no bar of a
text ends one. -/
theorem markdown_keeps_columns_iff (e : Escaping) (t : Table) (hcolumns : t.columns ≠ []) (hregular : t.Regular)
    (hunbroken : ∀ text ∈ t.plainTexts ++ t.escapedTexts, '\n' ∉ text.toList) :
    t.markdown = t.markdownTitle ++ String.join (t.markdownLines.map (· ++ "\n")) ++ t.markdownEnd ∧
      (∀ line ∈ t.markdownLines, '\n' ∉ line.toList) ∧
      ((∀ line ∈ t.markdownLines, (e.cells? line).map List.length = some t.columns.length) ↔
        t.isBlank ∨ t.EscapesBars e) := by
  refine ⟨markdown_eq hcolumns hregular, ?_, ?_⟩
  · rw [List.forall_mem_append] at hunbroken
    have hcontents := framing_newline.contents.mpr (.inr hunbroken)
    rw [markdownLines, List.forall_mem_map]
    intro line hline hmem
    rcases mem_lineOf hmem with hbar | ⟨content, hcontent, hmem⟩
    · exact absurd hbar (by decide)
    · exact hcontents line hline content hcontent hmem
  · have hafter := (framing_after e).contents (t := t) |>.mpr (.inr ⟨fun _ _ => trivial, fun _ _ => trivial⟩)
    have hcells : ∀ line ∈ t.contents, ((e.cells? (lineOf line)).map List.length = some t.columns.length ↔
        ∀ content ∈ line, e.Guards content) := by
      intro line hline
      rw [← hregular.length_contents hcolumns hline]
      exact length_cells?_lineOf_iff (hafter line hline)
    rw [markdownLines, List.forall_mem_map, forall₂_congr hcells, (framing_guards e).contents]
    exact or_congr_right ⟨fun h => ⟨h.1, h.2⟩, fun h => ⟨h.plain, h.escaped⟩⟩

/-- Links in cells and a bar in a comment leave all six lines with two cells. -/
theorem markdown_keeps_columns_of_links :
    let t : Table :=
      { columns := ["id", "summary"]
        headings := some ["ID", "Summary"]
        rows := [.group "Widgets", .bug "P1 major" ["[[bugs:101|101]]", "Crash on startup"] (some "Since 1.0|1.1")]
        totals := some ["", "3"] }
    t.markdownLines.length = 6 ∧
      ∀ line ∈ t.markdownLines, (Escaping.paired.cells? line).map List.length = some 2 := by
  intro t
  have hregular : t.Regular := ⟨by decide, by decide, by decide⟩
  have hkeeps := markdown_keeps_columns_iff .paired t (List.cons_ne_nil _ _) hregular (by decide)
  exact ⟨by decide, hkeeps.2.2.mpr (.inr ⟨by decide +kernel, by decide +kernel⟩)⟩

/-- A heading from the request and the heading of a group that is a link make three cells of two columns, in whatever
way the lines are read. -/
theorem markdown_headings_end_cells :
    let store := (Store.empty.applyLines ["columns=summary:What|Why,votes", "group=id"]).1
    let r : Renderer := { store, settings := { interwiki := some "bugs" }, query := (compile store 0).query, now := 0 }
    let t := (r.render [[("id", .integer 7), ("summary", .text "Crash"), ("votes", .integer 3)]]).1
    t.columns.length = 2 ∧
      t.markdown = "| What|Why | Votes |\n| --- | --- |\n| **[[bugs:7|7]]** | |\n| Crash | 3 |\n" ∧
      ∀ e : Escaping, e.cells? "| What|Why | Votes |" = some [" What", "Why ", " Votes "] ∧
        e.cells? "| **[[bugs:7|7]]** | |" = some [" **[[bugs:7", "7]]** ", " "] := by
  refine ⟨by decide +kernel, by decide +kernel, fun e => ?_⟩
  cases e <;> decide +kernel

end Table

end BugReport
