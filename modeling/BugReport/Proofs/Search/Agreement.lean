import BugReport.Proofs.Filter.Groups
import BugReport.Search.Chart

/-! # Charts and conditions

A chart and the conditions of the statement read the same filter value in two ways: the chart cuts it by hand
and negates it as a whole, the conditions come from its grammar and negate term by term. On lists of words the
entries of the chart and the clause of the conditions, read back, say the same.
-/

namespace BugReport

open Sql (Tuple Column Collation)

/-! ## What charts say -/

/-- Whether a record, which has a text in every field, meets an entry. -/
def ChartEntry.Holds (record : String → String) (e : ChartEntry) : Prop :=
  if e.negated then record e.field ≠ e.value else record e.field = e.value

/-- Whether a record meets one of the entries in each row. -/
def Chart.AllHold (record : String → String) (entries : List ChartEntry) : Prop :=
  ∀ e ∈ entries, ∃ other ∈ entries, other.row = e.row ∧ other.Holds record

/-- A list of words, one negated word, or a group of words in `!( )`. -/
inductive IsWordFilter : String → Prop where
  | list (words : List String) (plain : ∀ w ∈ words, IsPlainWord w) (nonempty : words ≠ []) :
    IsWordFilter (",".intercalate words)
  | negated (w : String) (plain : IsPlainWord w) : IsWordFilter ("!" ++ w)
  | group (words : List String) (plain : ∀ w ∈ words, IsPlainWord w) (several : 2 ≤ words.length) :
    IsWordFilter ("!(" ++ ",".intercalate words ++ ")")

namespace Chart

variable {record : String → String} {row : Nat} {field : String} {negated : Bool}
  {values : List (List Char)} {words : List String} {w value : String} {e : ChartEntry}

theorem mem_entriesFor :
    e ∈ entriesFor row field negated values ↔
      ∃ v i, values[i]? = some v ∧ e =
        { row := if negated then row + i else row
          position := if negated then 0 else i
          field
          negated
          value := String.ofList v } := by
  rw [entriesFor, List.mem_map]
  constructor
  · rintro ⟨⟨v, i⟩, hmem, rfl⟩
    exact ⟨v, i, List.mk_mem_zipIdx_iff_getElem?.mp hmem, rfl⟩
  · rintro ⟨v, i, hget, rfl⟩
    exact ⟨(v, i), List.mk_mem_zipIdx_iff_getElem?.mpr hget, rfl⟩

/-- Negated values take a row each, so all of them have to differ. -/
theorem allHold_negated :
    AllHold record (entriesFor row field true values) ↔
      ∀ v ∈ values, record field ≠ String.ofList v := by
  constructor
  · intro hall v hv
    obtain ⟨i, hget⟩ := List.mem_iff_getElem?.mp hv
    obtain ⟨other, hother, hrow, hholds⟩ := hall _ (mem_entriesFor.mpr ⟨v, i, hget, rfl⟩)
    obtain ⟨v', j, hget', rfl⟩ := mem_entriesFor.mp hother
    have hindex : j = i := Nat.add_left_cancel hrow
    rw [hindex, hget] at hget'
    cases hget'
    exact hholds
  · intro hall e he
    obtain ⟨v, i, hget, rfl⟩ := mem_entriesFor.mp he
    exact ⟨_, he, rfl, hall v (List.mem_of_getElem? hget)⟩

/-- Other values share a row, so one of them has to be met. -/
theorem allHold_shared (hne : values ≠ []) :
    AllHold record (entriesFor row field false values) ↔
      ∃ v ∈ values, record field = String.ofList v := by
  constructor
  · intro hall
    obtain ⟨first, hfirst⟩ := List.exists_mem_of_ne_nil values hne
    obtain ⟨i, hget⟩ := List.mem_iff_getElem?.mp hfirst
    obtain ⟨other, hother, -, hholds⟩ := hall _ (mem_entriesFor.mpr ⟨first, i, hget, rfl⟩)
    obtain ⟨v, j, hget', rfl⟩ := mem_entriesFor.mp hother
    exact ⟨v, List.mem_of_getElem? hget', hholds⟩
  · rintro ⟨v, hv, hholds⟩ e he
    obtain ⟨i, hget⟩ := List.mem_iff_getElem?.mp hv
    obtain ⟨-, -, -, rfl⟩ := mem_entriesFor.mp he
    exact ⟨_, mem_entriesFor.mpr ⟨v, i, hget, rfl⟩, rfl, hholds⟩

/-! ## What is appended -/

/-- The entries that a filter adds to a chart. -/
def added (chart : Chart) (field value : String) : List ChartEntry :=
  (chart.append field value).entries.drop chart.entries.length

theorem escapeBlanks_of_not_mem {cs : List Char} (h : ' ' ∉ cs) : escapeBlanks cs = cs := by
  have hkept : ∀ c ∈ cs, (if c == ' ' then ['%', '2', '0'] else [c]) = [c] := by
    intro c hc
    have hne : c ≠ ' ' := fun heq => h (heq ▸ hc)
    simp [hne]
  rw [escapeBlanks, List.flatMap_congr hkept]
  simp

theorem added_eq (chart : Chart) {list : List Char}
    (hexpressible : isInexpressible value.toList = false) (hblank : ' ' ∉ value.toList)
    (hlist : listOf value.toList = (list, negated)) :
    chart.added field value = entriesFor chart.rows field negated (list.splitOn ',') := by
  simp [added, append, hexpressible, escapeBlanks_of_not_mem hblank, hlist]

theorem listOf_of_not_mem {cs : List Char} (h : '!' ∉ cs) : listOf cs = (cs, false) := by
  unfold listOf
  split
  · exact absurd List.mem_cons_self h
  · exact absurd List.mem_cons_self h
  · simpa using h

theorem isInexpressible_of_not_mem {cs : List Char} (hplus : '+' ∉ cs) (hminus : '-' ∉ cs)
    (hstar : '*' ∉ cs) : isInexpressible cs = false := by
  unfold isInexpressible
  split
  · exact absurd List.mem_cons_self hplus
  · exact absurd List.mem_cons_self hminus
  · exact absurd List.mem_cons_self hstar
  · rfl

theorem added_list (chart : Chart) (h : ∀ w ∈ words, IsPlainWord w) (hne : words ≠ []) :
    chart.added field (",".intercalate words) =
      entriesFor chart.rows field false (words.map String.toList) := by
  have hother {d : Char} (hplain : isPlainChar d = false) (hcomma : d ≠ ',') :
      d ∉ (",".intercalate words).toList := by
    rw [toList_listed]
    exact not_mem_listedChars h hplain hcomma
  rw [added_eq chart _ (hother (by decide) (by decide))
    (listOf_of_not_mem (hother (by decide) (by decide))), toList_listed, splitOn_listedChars h hne]
  exact isInexpressible_of_not_mem (hother (by decide) (by decide)) (hother (by decide) (by decide))
    (hother (by decide) (by decide))

theorem added_negated (chart : Chart) (h : IsPlainWord w) :
    chart.added field ("!" ++ w) = entriesFor chart.rows field true [w.toList] := by
  have hchars : ("!" ++ w).toList = '!' :: w.toList := String.toList_append
  have hlist : listOf ('!' :: w.toList) = (w.toList, true) := by
    unfold listOf
    split
    next heq =>
        -- A word does not start with a parenthesis.
        obtain ⟨-, htail⟩ := List.cons.inj heq
        exact absurd (htail ▸ List.mem_cons_self) (not_mem_of_plain h (by decide))
    next heq =>
        obtain ⟨-, rfl⟩ := List.cons.inj heq
        rfl
    next hsign => exact absurd rfl (hsign _)
  have hblank : ' ' ∉ '!' :: w.toList := by
    simpa using not_mem_of_plain h (by decide)
  rw [← hchars] at hlist hblank
  rw [added_eq chart (by rw [hchars]; rfl) hblank hlist,
    List.splitOn_eq_singleton (not_mem_of_plain h (by decide))]

theorem added_group (chart : Chart) (h : ∀ w ∈ words, IsPlainWord w) (hne : words ≠ []) :
    chart.added field ("!(" ++ ",".intercalate words ++ ")") =
      entriesFor chart.rows field true (words.map String.toList) := by
  have hchars := MatchExpr.toList_group (",".intercalate words)
  rw [toList_listed] at hchars
  have hblank : ' ' ∉ '!' :: '(' :: (listedChars words ++ [')']) := by
    simpa using not_mem_listedChars h (by decide) (by decide)
  have hlist : listOf ('!' :: '(' :: (listedChars words ++ [')'])) = (listedChars words, true) := by
    rw [listOf, MatchExpr.dropClosing_append]
  rw [← hchars] at hlist hblank
  rw [added_eq chart (by rw [hchars]; rfl) hblank hlist, splitOn_listedChars h hne]

/-- Whatever a chart holds and whatever is bound already, the entries added for a value say of a text what the clause
compiled from it says. -/
theorem added_agrees_with_conditions (chart : Chart) (field value : String) (hvalue : IsWordFilter value)
    (collation : Collation) (earlier later : List String) (column : Column) (row : Tuple)
    (record : String → String) (x : String) (hcell : row.cell column = some x) (hrecord : record field = x) :
    AllHold record (chart.added field value) ↔
      (Restriction.ofMatch earlier.length value).IsTrue collation row earlier later column := by
  cases hvalue with
  | list words plain nonempty =>
      rw [added_list chart plain nonempty, allHold_shared (by simpa using nonempty), hrecord,
        Restriction.isTrue_list plain nonempty hcell]
      simp
  | negated w plain =>
      rw [added_negated chart plain, allHold_negated, hrecord, Restriction.isTrue_negated_word plain hcell]
      simp
  | group words plain several =>
      have nonempty : words ≠ [] := List.ne_nil_of_length_pos (by omega)
      rw [added_group chart plain nonempty, allHold_negated, hrecord,
        Restriction.isTrue_group plain several hcell]
      simp

theorem added_agrees_closed_verified :
    AllHold (fun _ => "NEW") (Chart.added ⟨[], 3⟩ "bug_status" "!(CLOSED,VERIFIED)") ↔
      (Restriction.ofMatch 1 "!(CLOSED,VERIFIED)").IsTrue .byCharacters ⟨fun _ => some "NEW", fun _ => false⟩
        ["P1"] [] (.of "bugs" "bug_status") :=
  added_agrees_with_conditions ⟨[], 3⟩ "bug_status" _
    (.group ["CLOSED", "VERIFIED"] (by decide) (by decide)) .byCharacters ["P1"] [] _ _ _ "NEW" rfl rfl

end Chart

end BugReport
