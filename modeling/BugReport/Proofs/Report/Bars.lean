import BugReport.Proofs.Report.TableLines
import Mathlib.Algebra.BigOperators.Group.List.Basic
import Mathlib.Algebra.Order.Ring.Nat
import Mathlib.Data.List.Induction
import Mathlib.Data.List.Nodup

/-! # The bars of a table

The bars count every row up to a limit of their own, by the value of the bar column as it is written. The step is one
value that is counted, and the run goes over any list of values. What else is asked of the table, its own limit and its
group included, makes no difference to its bars.
-/

namespace BugReport

/-- Entries that count values: one for each value, in the order in which the values first appear. -/
structure Tallies (values : List String) (bars : List BarEntry) : Prop where
  mem_iff : ∀ value, value ∈ bars.map BarEntry.value ↔ value ∈ values
  ordered : bars.Pairwise fun first second => values.idxOf first.value < values.idxOf second.value
  counts : ∀ b ∈ bars, b.count = values.count b.value
  total : (bars.map BarEntry.count).sum = values.length

section

variable {values : List String} {bars : List BarEntry} {value : String}

theorem Tallies.nodup (h : Tallies values bars) : (bars.map BarEntry.value).Nodup := by
  rw [List.nodup_iff_pairwise_ne, List.pairwise_map]
  exact h.ordered.imp fun hlt heq => Nat.ne_of_lt hlt (congrArg values.idxOf heq)

/-! ## One more value -/

/-- The entry of a value counts one more, and the other entries stay. -/
def BarEntry.counting (value : String) (b : BarEntry) : BarEntry :=
  if b.value == value then { b with count := b.count + 1 } else b

theorem BarEntry.value_counting (value : String) (b : BarEntry) : (b.counting value).value = b.value := by
  rw [counting]
  split <;> rfl

theorem BarEntry.count_counting (value : String) (b : BarEntry) :
    (b.counting value).count = b.count + if b.value = value then 1 else 0 := by
  by_cases hvalue : b.value = value
  · simp [counting, hvalue]
  · simp [counting, hvalue]

theorem countValue_of_mem (h : value ∈ bars.map BarEntry.value) :
    Renderer.countValue bars value = bars.map (BarEntry.counting value) := by
  obtain ⟨b, hb, heq⟩ := List.mem_map.mp h
  have hany : bars.any (·.value == value) = true := List.any_eq_true.mpr ⟨b, hb, beq_iff_eq.mpr heq⟩
  exact if_pos hany

theorem countValue_of_not_mem (h : value ∉ bars.map BarEntry.value) :
    Renderer.countValue bars value = bars ++ [⟨value, 1⟩] := by
  refine if_neg fun hany => h ?_
  obtain ⟨b, hb, heq⟩ := List.any_eq_true.mp hany
  exact List.mem_map.mpr ⟨b, hb, eq_of_beq heq⟩

theorem sum_map_ite (bars : List BarEntry) (value : String) :
    (bars.map fun b => if b.value = value then 1 else 0).sum = (bars.map BarEntry.value).count value := by
  induction bars with
  | nil => rfl
  | cons b bars ih =>
      rw [List.map_cons, List.sum_cons, ih, List.map_cons, List.count_cons, Nat.add_comm]
      simp only [beq_iff_eq]

/-- Among distinct values one entry counts one more. -/
theorem sum_map_counting (hnodup : (bars.map BarEntry.value).Nodup) (h : value ∈ bars.map BarEntry.value) :
    ((bars.map (BarEntry.counting value)).map BarEntry.count).sum = (bars.map BarEntry.count).sum + 1 := by
  rw [← List.count_eq_one_of_mem hnodup h, ← sum_map_ite, ← List.sum_map_add, List.map_map]
  simp only [Function.comp_def, BarEntry.count_counting]

theorem Tallies.countValue_of_mem (h : Tallies values bars) (hmem : value ∈ values) :
    Tallies (values ++ [value]) (bars.map (BarEntry.counting value)) where
  mem_iff other := by
    rw [List.map_map, Function.comp_def]
    simp only [BarEntry.value_counting, h.mem_iff, List.mem_append, List.mem_singleton]
    exact (or_iff_left_of_imp fun heq => heq ▸ hmem).symm
  ordered := by
    rw [List.pairwise_map]
    refine h.ordered.imp_of_mem fun {a b} ha hb hlt => ?_
    have ha : a.value ∈ values := (h.mem_iff _).mp (List.mem_map_of_mem ha)
    have hb : b.value ∈ values := (h.mem_iff _).mp (List.mem_map_of_mem hb)
    simpa only [BarEntry.value_counting, List.idxOf_append_of_mem ha, List.idxOf_append_of_mem hb] using hlt
  counts := by
    intro counted hcounted
    obtain ⟨b, hb, rfl⟩ := List.mem_map.mp hcounted
    rw [BarEntry.count_counting, BarEntry.value_counting, h.counts b hb, List.count_append,
      List.count_singleton]
    simp only [beq_iff_eq, eq_comm (a := value)]
  total := by
    rw [sum_map_counting h.nodup ((h.mem_iff value).mpr hmem), h.total, List.length_append,
      List.length_singleton]

theorem Tallies.countValue_of_not_mem (h : Tallies values bars) (hmem : value ∉ values) :
    Tallies (values ++ [value]) (bars ++ [⟨value, 1⟩]) where
  mem_iff other := by
    rw [List.map_append, List.mem_append, h.mem_iff, List.mem_append]
    rfl
  ordered := by
    have hknown {b : BarEntry} (hb : b ∈ bars) : b.value ∈ values :=
      (h.mem_iff _).mp (List.mem_map_of_mem hb)
    rw [List.pairwise_append]
    refine ⟨h.ordered.imp_of_mem fun ha hb hlt => ?_, List.pairwise_singleton _ _, ?_⟩
    · rwa [List.idxOf_append_of_mem (hknown ha), List.idxOf_append_of_mem (hknown hb)]
    · intro b hb new hnew
      obtain rfl := List.mem_singleton.mp hnew
      rw [List.idxOf_append_of_mem (hknown hb), List.idxOf_append_of_notMem hmem]
      exact Nat.lt_add_right _ (List.idxOf_lt_length_of_mem (hknown hb))
  counts := by
    intro b hb
    rw [List.count_append]
    rcases List.mem_append.mp hb with hold | hnew
    · have hne : value ≠ b.value := fun heq =>
        hmem (heq ▸ (h.mem_iff _).mp (List.mem_map_of_mem hold))
      rw [h.counts b hold, List.count_singleton, if_neg (by simpa using hne), Nat.add_zero]
    · obtain rfl := List.mem_singleton.mp hnew
      rw [List.count_eq_zero_of_not_mem hmem, List.count_singleton_self]
  total := by
    rw [List.map_append, List.sum_append, h.total, List.length_append]
    rfl

/-- Counting keeps on counting. -/
theorem Tallies.countValue (h : Tallies values bars) (value : String) :
    Tallies (values ++ [value]) (Renderer.countValue bars value) := by
  by_cases hmem : value ∈ values
  · rw [BugReport.countValue_of_mem ((h.mem_iff value).mpr hmem)]
    exact h.countValue_of_mem hmem
  · rw [BugReport.countValue_of_not_mem (mt (h.mem_iff value).mp hmem)]
    exact h.countValue_of_not_mem hmem

theorem tallies_foldl (values : List String) : Tallies values (values.foldl Renderer.countValue []) := by
  induction values using List.reverseRecOn with
  | nil => exact ⟨by simp, .nil, by simp, rfl⟩
  | append_singleton values value ih =>
      rw [List.foldl_concat]
      exact ih.countValue value

end

/-! ## Bars of rows -/

namespace Renderer

variable {r r' : Renderer}

/-- Two tables have their bars made with the same: the parameters for the bars and for the formats of values, the
limit and the links of the settings, the formats of the request, and the instant. -/
structure SharesBars (r r' : Renderer) : Prop where
  parameters : ∀ name ∈ ["bar", "maxrowsbar", "groupformat", "zeroasblank", "nameformat"],
    r'.store.get? name = r.store.get? name
  maxRowsBar : r'.settings.maxRowsBar = r.settings.maxRowsBar
  server : r'.settings.server = r.settings.server
  interwiki : r'.settings.interwiki = r.settings.interwiki
  rawHtml : r'.settings.rawHtml = r.settings.rawHtml
  formats : r'.query.formats = r.query.formats
  now : r'.now = r.now

namespace SharesBars

theorem present? (h : r.SharesBars r') {name : String}
    (hname : name ∈ ["bar", "maxrowsbar", "groupformat", "zeroasblank", "nameformat"]) :
    r'.store.present? name = r.store.present? name :=
  congrArg (Option.filter Parameter.counts) (h.parameters name hname)

theorem write (h : r.SharesBars r') (format : ValueFormat) (value title : String) :
    r'.formatter.write format value title = r.formatter.write format value title := by
  have hzero : r'.formatter.store.get? "zeroasblank" = r.formatter.store.get? "zeroasblank" :=
    h.parameters _ (by decide)
  have hname : r'.formatter.store.get? "nameformat" = r.formatter.store.get? "nameformat" :=
    h.parameters _ (by decide)
  have hpresent : r'.formatter.present = r.formatter.present := congrArg Calendar.Timestamp.ofInstant h.now
  have hbug : r'.formatter.writeBug value title = r.formatter.writeBug value title := by
    simp only [Formatter.writeBug, formatter, h.server, h.interwiki, h.rawHtml]
  cases format <;> simp only [Formatter.write, hzero, hname, hpresent, hbug]

theorem writeSpec (h : r.SharesBars r') (value spec title : String) :
    r'.formatter.writeSpec value spec title = r.formatter.writeSpec value spec title := by
  simp only [Formatter.writeSpec, h.write]

theorem writeHeading (h : r.SharesBars r') (value column : String) :
    r'.formatter.writeHeading value column = r.formatter.writeHeading value column := by
  have hspec : r'.formatter.specOf? column = r.formatter.specOf? column := by
    simp only [Formatter.specOf?, formatter, h.formats]
  have hcolumn : r'.formatter.writeColumn value column "" = r.formatter.writeColumn value column "" := by
    rw [Formatter.writeColumn, Formatter.writeColumn, hspec]
    cases r.formatter.specOf? column with
    | none => rfl
    | some spec => exact h.writeSpec value spec ""
  have hgroup : r'.formatter.store.present? "groupformat" = r.formatter.store.present? "groupformat" :=
    h.present? (by decide)
  rw [Formatter.writeHeading, Formatter.writeHeading, hgroup, hcolumn]
  cases r.formatter.store.present? "groupformat" with
  | none => rfl
  | some spec => simp only [h.writeSpec]

end SharesBars

theorem bars_render (r : Renderer) (rows : List Row) : (r.render rows).1.bars =
    (r.store.present? "bar").map fun column =>
      ((rows.take r.barLimit).map (r.barText column)).foldl countValue [] := by
  refine Option.map_congr fun column hbar => ?_
  exact (r.covers_progress rows).bars column hbar

/-- A table with a bar column has an entry for each value of it, in the order in which the values first appear, and each
row up to the limit of the bars is counted in the entry of its value. Nothing else has an influence on the bars. -/
theorem bars_tally_rows (r : Renderer) (column : String) (hbar : r.store.present? "bar" = some column)
    (rows : List Row) :
    ∃ bars, (r.render rows).1.bars = some bars ∧
      Tallies ((rows.take r.barLimit).map (r.barText column)) bars ∧
      (bars.map BarEntry.value).Nodup ∧
      (bars.map BarEntry.count).sum = min r.barLimit rows.length ∧
      ∀ r', r.SharesBars r' → (r'.render rows).1.bars = some bars := by
  have htallies := tallies_foldl ((rows.take r.barLimit).map (r.barText column))
  refine ⟨_, ?_, htallies, htallies.nodup, ?_, ?_⟩
  · rw [bars_render, hbar, Option.map_some]
  · rw [htallies.total, List.length_map, List.length_take]
  · intro r' hshares
    have hlimit : r'.barLimit = r.barLimit := by
      rw [barLimit, barLimit, hshares.present? (by decide), hshares.maxRowsBar]
    have htext : r'.barText column = r.barText column := by
      funext row
      rw [barText, barText, hshares.writeHeading]
    rw [bars_render, hshares.present? (by decide), hbar, Option.map_some, hlimit, htext]

/-- Three of four rows are counted in a table of one line, and a missing value counts as a value. -/
theorem bars_tally_rows_beyond_table :
    ∃ (r : Renderer) (rows : List Row) (bars : List BarEntry), r.rowLimit = 1 ∧ r.barLimit = 3 ∧ rows.length = 4 ∧
      r.store.present? "bar" = some "status" ∧ (r.render rows).1.bars = some bars ∧
      Tallies ["NEW", "not set", "NEW"] bars ∧ (bars.map BarEntry.count).sum = 3 := by
  let r : Renderer :=
    { store := (Store.empty.applyLines ["bar=status", "maxrows=1", "maxrowsbar=3", "group=product"]).1
      settings := {}
      query := (compile Store.empty 0).query
      now := 0 }
  let rows : List Row :=
    [[("status", .text "NEW")], [("status", .null)], [("status", .text "NEW")], [("status", .text "ASSIGNED")]]
  have hbar : r.store.present? "bar" = some "status" := by decide +kernel
  have hlimit : r.barLimit = 3 := by decide +kernel
  have htexts : (rows.take r.barLimit).map (r.barText "status") = ["NEW", "not set", "NEW"] := by
    decide +kernel
  obtain ⟨bars, hbars, htallies, -, htotal, -⟩ := bars_tally_rows r "status" hbar rows
  rw [htexts] at htallies
  rw [hlimit] at htotal
  exact ⟨r, rows, bars, by decide +kernel, hlimit, rfl, hbar, hbars, htallies, htotal⟩

end Renderer

end BugReport
