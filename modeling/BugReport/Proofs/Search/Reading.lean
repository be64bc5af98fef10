import BugReport.Proofs.Expression.Tidied
import BugReport.Proofs.Search.Numbering
import BugReport.Proofs.Text.Digits
import BugReport.Proofs.Text.Parts

/-! # Reading chart addresses

The search engine reads an address part by part: it cuts at the ampersands, and each part at its first equals
sign. This gives back the field, the type and the value of each entry, under names that hold the numbers of
its row and of its position. Only ampersands in fields and values would break a part in two; equals signs do
no harm.
-/

namespace BugReport

open Text (cut)

namespace ChartEntry

/-- The parts in which an entry is written, each a name and a text. -/
def parts (e : ChartEntry) : List (String × String) :=
  [("field" ++ e.mark, e.field), ("type" ++ e.mark, e.kind), ("value" ++ e.mark, e.value)]

/-- Whether the texts of an entry leave its parts whole. -/
def Separable (e : ChartEntry) : Prop :=
  '&' ∉ e.field.toList ∧ '&' ∉ e.value.toList

/-- Writes a part. -/
def partText (part : String × String) : List Char :=
  part.1.toList ++ '=' :: part.2.toList

variable {e : ChartEntry} {part : String × String} {c : Char}

theorem isDigit_of_mem_mark (h : c ∈ e.mark.toList) : c.isDigit = true ∨ c = '-' := by
  have hnumber {n : Nat} (h : c ∈ (toString n).toList) : c.isDigit = true ∨ c = '-' :=
    .inl (Text.isDigit_of_mem_toString h)
  rw [mark, String.toList_append, String.toList_append, String.toList_append] at h
  rcases List.mem_append.mp h with hfront | hposition
  · rcases List.mem_append.mp hfront with hrow | hdash
    · rcases List.mem_append.mp hrow with hzero | hrow
      · rcases List.mem_pair.mp hzero with rfl | rfl
        · exact .inl rfl
        · exact .inr rfl
      · exact hnumber hrow
    · exact .inr (List.mem_singleton.mp hdash)
  · exact hnumber hposition

theorem not_mem_of_mem_parts (h : part ∈ e.parts) : '&' ∉ part.1.toList ∧ '=' ∉ part.1.toList := by
  have hmark {c : Char} (hdigit : c.isDigit = false) (hdash : c ≠ '-') : c ∉ e.mark.toList := by
    intro hmem
    rcases isDigit_of_mem_mark hmem with hc | hc
    · rw [hdigit] at hc
      cases hc
    · exact hdash hc
  have hname {word : String} (hword : '&' ∉ word.toList ∧ '=' ∉ word.toList) :
      '&' ∉ (word ++ e.mark).toList ∧ '=' ∉ (word ++ e.mark).toList := by
    rw [String.toList_append, List.mem_append, List.mem_append]
    exact ⟨not_or.mpr ⟨hword.1, hmark (by decide) (by decide)⟩,
      not_or.mpr ⟨hword.2, hmark (by decide) (by decide)⟩⟩
  simp only [parts, List.mem_cons, List.not_mem_nil, or_false] at h
  rcases h with rfl | rfl | rfl
  · exact hname (by decide)
  · exact hname (by decide)
  · exact hname (by decide)

theorem Separable.not_mem_partText (he : e.Separable) (h : part ∈ e.parts) : '&' ∉ partText part := by
  have htext : '&' ∉ part.2.toList := by
    simp only [parts, List.mem_cons, List.not_mem_nil, or_false] at h
    rcases h with rfl | rfl | rfl
    · exact he.1
    · change '&' ∉ e.kind.toList
      unfold kind
      split <;> decide
    · exact he.2
  rw [partText, List.mem_append, List.mem_cons]
  rintro (hname | heq | hmem)
  · exact (not_mem_of_mem_parts h).1 hname
  · cases heq
  · exact htext hmem

theorem cut_partText (h : part ∈ e.parts) : cut '=' (String.ofList (partText part)) = some part := by
  rw [cut, String.toList_ofList, partText, Text.cutList_append (not_mem_of_mem_parts h).2]
  simp

theorem toList_text (e : ChartEntry) : e.text.toList = e.parts.flatMap fun part => '&' :: partText part := by
  have hfield : "&field".toList = '&' :: "field".toList := by decide
  have hkind : "&type".toList = '&' :: "type".toList := by decide
  have hvalue : "&value".toList = '&' :: "value".toList := by decide
  have hequals : "=".toList = ['='] := by decide
  unfold text
  simp only [parts, partText, String.toList_append, hfield, hkind, hvalue, hequals, List.flatMap_cons,
    List.flatMap_nil, List.append_assoc, List.cons_append, List.nil_append, List.append_nil]

end ChartEntry

namespace Chart

open ChartEntry (partText)

variable {chart : Chart} {filters : List (String × String)}

theorem toList_query (chart : Chart) :
    chart.query.toList = (chart.entries.flatMap ChartEntry.parts).flatMap fun part => '&' :: partText part := by
  rw [query, String.toList_join, List.flatMap_map, List.flatMap_assoc]
  exact List.flatMap_congr fun e _ => e.toList_text

/-- Cutting the query gives its parts back. -/
theorem parts_query (h : ∀ e ∈ chart.entries, e.Separable) :
    ∃ pieces, Text.parts '&' chart.query = "" :: pieces ∧
      pieces.map (cut '=') = (chart.entries.flatMap ChartEntry.parts).map some := by
  have hwhole : ∀ p ∈ (chart.entries.flatMap ChartEntry.parts).map partText, '&' ∉ p := by
    intro p hp
    obtain ⟨part, hpart, rfl⟩ := List.mem_map.mp hp
    obtain ⟨e, he, hmem⟩ := List.mem_flatMap.mp hpart
    exact (h e he).not_mem_partText hmem
  refine ⟨((chart.entries.flatMap ChartEntry.parts).map partText).map String.ofList, ?_, ?_⟩
  · have hquery : chart.query.toList =
        [] ++ ((chart.entries.flatMap ChartEntry.parts).map partText).flatMap ('&' :: ·) := by
      rw [toList_query, List.nil_append, List.flatMap_map]
    rw [Text.parts, hquery, Text.splitOn_append_flatMap List.not_mem_nil hwhole]
    rfl
  · rw [List.map_map, List.map_map]
    apply List.map_congr_left
    intro part hpart
    obtain ⟨e, -, hmem⟩ := List.mem_flatMap.mp hpart
    exact ChartEntry.cut_partText hmem

/-! ## The texts of entries -/

theorem subset_listOf (cs : List Char) : (listOf cs).1 ⊆ cs := by
  unfold listOf
  split
  · exact List.Subset.trans (MatchExpr.dropClosing_subset _)
      (List.Subset.trans (List.subset_cons_self _ _) (List.subset_cons_self _ _))
  · exact List.subset_cons_self _ _
  · exact List.Subset.refl _

theorem mem_of_mem_valuesOf {value : String} {v : List Char} (hv : v ∈ valuesOf value) (h : '&' ∈ v) :
    '&' ∈ value.toList := by
  have hlist := subset_listOf _ (Text.subset_of_mem_splitOn hv h)
  obtain ⟨c, hc, hescaped⟩ := List.mem_flatMap.mp hlist
  split at hescaped
  · exact absurd hescaped (by decide)
  · exact List.mem_singleton.mp hescaped ▸ hc

/-- What a filter adds is separable if the filter is. -/
theorem separable_of_mem_added {chart : Chart} {field value : String} (hfield : '&' ∉ field.toList)
    (hvalue : '&' ∉ value.toList) {e : ChartEntry} (he : e ∈ chart.added field value) : e.Separable := by
  rw [added_eq_ite] at he
  split at he
  · cases he
  · obtain ⟨v, _, hget, rfl⟩ := mem_entriesFor.mp he
    refine ⟨hfield, fun hmem => ?_⟩
    rw [String.toList_ofList] at hmem
    exact hvalue (mem_of_mem_valuesOf (List.mem_of_getElem? hget) hmem)

theorem separable_of_mem_blocks
    (hplain : ∀ filter ∈ filters, '&' ∉ filter.1.toList ∧ '&' ∉ filter.2.toList)
    (chart : Chart) {e : ChartEntry} (he : e ∈ (chart.blocks filters).flatten) : e.Separable := by
  induction filters generalizing chart with
  | nil => cases he
  | cons filter filters ih =>
      obtain ⟨field, value⟩ := filter
      obtain ⟨⟨hfield, hvalue⟩, hrest⟩ := List.forall_mem_cons.mp hplain
      rw [blocks, List.flatten_cons, List.mem_append] at he
      rcases he with hadded | hlater
      · exact separable_of_mem_added hfield hvalue hadded
      · exact ih hrest _ hlater

/-- How the address of a chart lists filters, each a field and a value. -/
structure Lists (chart : Chart) (filters : List (String × String)) : Prop where
  /-- Cut at the ampersands and at first equals signs, the query is made of complete entries, in order. -/
  read : ∃ pieces, Text.parts '&' chart.query = "" :: pieces ∧
    pieces.map (cut '=') = (chart.entries.flatMap ChartEntry.parts).map some
  numbered : Numbered 0 chart.rows chart.entries
  places : (chart.entries.map ChartEntry.place).Nodup
  /-- The entries are those that each filter adds in its turn. -/
  turns : chart.entries = (blocks {} filters).flatten
  apart : (blocks {} filters).Pairwise Disjoint

/-- The address of any filters holds complete entries with distinct places, and each filter has rows of its
own. -/
theorem query_lists_filters
    (hplain : ∀ filter ∈ filters, '&' ∉ filter.1.toList ∧ '&' ∉ filter.2.toList) :
    (ofFilters filters).Lists filters := by
  have hturns : (ofFilters filters).entries = (blocks {} filters).flatten := entries_appendAll {} filters
  have hnumbered : Numbered 0 (ofFilters filters).rows (ofFilters filters).entries := by
    rw [hturns]
    exact numbered_blocks {} filters
  refine ⟨parts_query fun e he => ?_, hnumbered, hnumbered.nodup_places, hturns, disjoint_blocks {} filters⟩
  rw [hturns] at he
  exact separable_of_mem_blocks hplain {} he

/-- Negated values, a value that no chart can express, a list, and equals signs. -/
theorem query_lists_mixed_filters :
    (∀ filter ∈ [("bug_status", "!(CLOSED,VERIFIED)"), ("deadline", "+3d"), ("a=b", "P1,P 2"), ("to", "a!=b")],
      '&' ∉ filter.1.toList ∧ '&' ∉ filter.2.toList) ∧
    (ofFilters [("bug_status", "!(CLOSED,VERIFIED)"), ("deadline", "+3d"), ("a=b", "P1,P 2"),
      ("to", "a!=b")]).Lists
      [("bug_status", "!(CLOSED,VERIFIED)"), ("deadline", "+3d"), ("a=b", "P1,P 2"), ("to", "a!=b")] :=
  ⟨by decide, query_lists_filters (by decide)⟩

end Chart

end BugReport
