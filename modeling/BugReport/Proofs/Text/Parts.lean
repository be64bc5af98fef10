import BugReport.Text.Blank
import BugReport.Text.Split
import Mathlib.Data.List.Basic

/-! # Parts of texts

Trimming, cutting and splitting give texts whose characters are those of the text they come from. Only
joining parts brings in the characters of the separator. What is appended to a list without a separator
belongs to its last entry.
-/

namespace BugReport.Text

variable {c sep : Char} {cs part before after : List Char}

theorem trimLeft_subset (cs : List Char) : trimLeft cs ⊆ cs :=
  (List.dropWhile_sublist isBlank).subset

theorem trimRight_subset (cs : List Char) : trimRight cs ⊆ cs := by
  intro c hc
  have hmem := (List.dropWhile_sublist isBlank).subset (List.mem_reverse.mp hc)
  exact List.mem_reverse.mp hmem

theorem trim_subset (cs : List Char) : trim cs ⊆ cs :=
  List.Subset.trans (trimRight_subset _) (trimLeft_subset cs)

/-! ## Separators -/

theorem mem_intercalate {α : Type} {sep : List α} {parts : List (List α)} {x : α}
    (h : x ∈ sep.intercalate parts) : x ∈ sep ∨ ∃ part ∈ parts, x ∈ part := by
  induction parts with
  | nil => simp at h
  | cons part parts ih =>
      cases parts with
      | nil => exact .inr ⟨part, List.mem_cons_self, by simpa using h⟩
      | cons next parts =>
          rw [List.intercalate_cons_cons, List.append_assoc, List.mem_append, List.mem_append] at h
          rcases h with hpart | hsep | hrest
          · exact .inr ⟨part, List.mem_cons_self, hpart⟩
          · exact .inl hsep
          · refine (ih hrest).imp_right ?_
            rintro ⟨other, hother, hx⟩
            exact ⟨other, List.mem_cons_of_mem _ hother, hx⟩

theorem subset_intercalate {α : Type} {sep part : List α} {parts : List (List α)} (h : part ∈ parts) :
    part ⊆ sep.intercalate parts := by
  induction parts with
  | nil => cases h
  | cons first parts ih =>
      cases parts with
      | nil => simp [List.mem_singleton.mp h]
      | cons next parts =>
          rw [List.intercalate_cons_cons, List.append_assoc]
          rcases List.mem_cons.mp h with rfl | hmem
          · exact List.subset_append_left _ _
          · have hrest : part ⊆ sep ++ sep.intercalate (next :: parts) :=
              List.Subset.trans (ih hmem) (List.subset_append_right _ _)
            exact List.Subset.trans hrest (List.subset_append_right _ _)

theorem subset_of_mem_splitOn (h : part ∈ cs.splitOn sep) : part ⊆ cs := by
  have hpart : part ⊆ [sep].intercalate (cs.splitOn sep) := subset_intercalate h
  rwa [List.intercalate_splitOn] at hpart

theorem subset_of_mem_parts {s entry : String} (h : entry ∈ parts sep s) :
    entry.toList ⊆ s.toList := by
  obtain ⟨part, hpart, rfl⟩ := List.mem_map.mp h
  rw [String.toList_ofList]
  exact subset_of_mem_splitOn hpart

/-! ## Sequences -/

theorem subset_of_cutSeqList {sep : List Char} (h : cutSeqList sep cs = some (before, after)) :
    before ⊆ cs ∧ after ⊆ cs := by
  induction cs generalizing before after with
  | nil => cases h
  | cons c cs ih =>
      rw [cutSeqList] at h
      split at h
      · cases h
        exact ⟨List.nil_subset _, List.drop_subset _ _⟩
      · obtain ⟨⟨start, rest⟩, hcut, heq⟩ := Option.map_eq_some_iff.mp h
        obtain ⟨rfl, rfl⟩ := Prod.mk.inj heq
        obtain ⟨hstart, hrest⟩ := ih hcut
        exact ⟨List.cons_subset_cons c hstart, List.Subset.trans hrest (List.subset_cons_self c cs)⟩

theorem subset_of_cutSeq {sep s a b : String} (h : cutSeq sep s = some (a, b)) :
    a.toList ⊆ s.toList ∧ b.toList ⊆ s.toList := by
  obtain ⟨⟨before, after⟩, hcut, heq⟩ := Option.map_eq_some_iff.mp h
  obtain ⟨rfl, rfl⟩ := Prod.mk.inj heq
  simpa using subset_of_cutSeqList hcut

theorem subset_of_mem_partsSeqList {sep : List Char} {skip : Nat}
    (h : part ∈ partsSeqList sep skip cs) : part ⊆ cs := by
  induction cs generalizing skip part with
  | nil =>
      have hnil : part = [] := by simpa [partsSeqList] using h
      rw [hnil]
      exact List.nil_subset _
  | cons c cs ih =>
      have hskipped {skip : Nat} {part : List Char} (h : part ∈ partsSeqList sep skip cs) :
          part ⊆ c :: cs := List.Subset.trans (ih h) (List.subset_cons_self c cs)
      cases skip with
      | succ skip => exact hskipped h
      | zero =>
          rw [partsSeqList] at h
          split at h
          · rcases List.mem_cons.mp h with rfl | hmem
            · exact List.nil_subset _
            · exact hskipped hmem
          · -- The character belongs to the first entry of the rest.
            cases hrest : partsSeqList sep 0 cs with
            | nil => simp [hrest] at h
            | cons first others =>
                rw [hrest, List.modifyHead_cons] at h
                have hfirst : first ⊆ cs := ih (by rw [hrest]; exact List.mem_cons_self)
                rcases List.mem_cons.mp h with rfl | hmem
                · exact List.cons_subset_cons c hfirst
                · exact hskipped (by rw [hrest]; exact List.mem_cons_of_mem _ hmem)

theorem subset_of_mem_partsSeq {sep s entry : String} (h : entry ∈ partsSeq sep s) :
    entry.toList ⊆ s.toList := by
  obtain ⟨part, hpart, rfl⟩ := List.mem_map.mp h
  rw [String.toList_ofList]
  exact subset_of_mem_partsSeqList hpart

/-! ## Appending -/

theorem exists_splitOn_append {more : List Char} (h : sep ∉ more) (cs : List Char) :
    ∃ entries last, cs.splitOn sep = entries ++ [last] ∧
      (cs ++ more).splitOn sep = entries ++ [last ++ more] := by
  induction cs with
  | nil => exact ⟨[], [], rfl, List.splitOn_eq_singleton h⟩
  | cons c cs ih =>
      obtain ⟨entries, last, hcs, hmore⟩ := ih
      rw [List.cons_append, List.splitOn_cons_eq_if_modifyHead, List.splitOn_cons_eq_if_modifyHead, hcs,
        hmore]
      split
      · exact ⟨[] :: entries, last, rfl, rfl⟩
      · cases entries with
        | nil => exact ⟨[], c :: last, rfl, rfl⟩
        | cons first entries => exact ⟨(c :: first) :: entries, last, rfl, rfl⟩

theorem parts_append (sep : Char) (a b : String) :
    parts sep (a ++ String.singleton sep ++ b) = parts sep a ++ parts sep b := by
  simp [parts, List.splitOn_append_cons_self]

theorem parts_append_comma (a b : String) : parts ',' (a ++ "," ++ b) = parts ',' a ++ parts ',' b :=
  parts_append ',' a b

/-- Parts with a separator in front of each are found again. -/
theorem splitOn_append_flatMap {parts : List (List Char)} (h : sep ∉ part) (hparts : ∀ p ∈ parts, sep ∉ p) :
    (part ++ parts.flatMap (sep :: ·)).splitOn sep = part :: parts := by
  induction parts generalizing part with
  | nil => rw [List.flatMap_nil, List.append_nil, List.splitOn_eq_singleton h]
  | cons next parts ih =>
      obtain ⟨hnext, hrest⟩ := List.forall_mem_cons.mp hparts
      rw [List.flatMap_cons, List.cons_append, List.splitOn_append_cons_self, ih hnext hrest,
        List.splitOn_eq_singleton h, List.singleton_append]

theorem cutList_append (h : sep ∉ before) (after : List Char) :
    cutList sep (before ++ sep :: after) = some (before, after) := by
  induction before with
  | nil => rw [List.nil_append, cutList, if_pos (beq_self_eq_true sep)]
  | cons c before ih =>
      obtain ⟨hne, hbefore⟩ := not_or.mp (mt List.mem_cons.mpr h)
      have hskip : ¬ (c == sep) = true := fun heq => hne (eq_of_beq heq).symm
      rw [List.cons_append, cutList, if_neg hskip, ih hbefore, Option.map_some]

theorem cutList_eq_some_iff : cutList sep cs = some (before, after) ↔
    cs = before ++ sep :: after ∧ sep ∉ before := by
  constructor
  · intro h
    refine ⟨cutList_eq_some h, ?_⟩
    induction cs generalizing before after with
    | nil => cases h
    | cons c cs ih =>
        rw [cutList] at h
        split at h
        · cases h
          exact List.not_mem_nil
        next hskip =>
            obtain ⟨⟨front, back⟩, hcut, heq⟩ := Option.map_eq_some_iff.mp h
            obtain ⟨rfl, rfl⟩ := Prod.mk.inj heq
            have hne : sep ≠ c := fun heq => hskip (beq_iff_eq.mpr heq.symm)
            exact List.not_mem_cons_of_ne_of_not_mem hne (ih hcut)
  · rintro ⟨rfl, hbefore⟩
    exact cutList_append hbefore after

/-- Cutting finds the first occurrence. -/
theorem cut_eq_some_iff {s a b : String} : cut sep s = some (a, b) ↔
    s.toList = a.toList ++ sep :: b.toList ∧ sep ∉ a.toList := by
  rw [← cutList_eq_some_iff, cut, Option.map_eq_some_iff]
  constructor
  · rintro ⟨⟨before, after⟩, hcut, heq⟩
    obtain ⟨rfl, rfl⟩ := Prod.mk.inj heq
    rw [String.toList_ofList, String.toList_ofList, hcut]
  · intro hcut
    exact ⟨_, hcut, by simp only [String.ofList_toList]⟩

/-! ## Words -/

theorem words_append (cs more : List Char) : words (cs ++ ' ' :: more) = words cs ++ words more := by
  rw [words, List.splitOnP_append_cons _ _ (by decide : isBlank ' ' = true), List.filter_append]
  rfl

/-- A word behind a text does not change its first word. -/
theorem firstWord?_append {s word : String} (h : firstWord? s = some word) (more : List Char) :
    firstWord? (String.ofList (s.toList ++ ' ' :: more)) = some word := by
  obtain ⟨first, hfirst, rfl⟩ := Option.map_eq_some_iff.mp h
  simp [firstWord?, words_append, hfirst]

theorem wordsOf_append (a b : String) : wordsOf (a ++ " " ++ b) = wordsOf a ++ wordsOf b := by
  have htext : (a ++ " " ++ b).toList = a.toList ++ ' ' :: b.toList := by simp
  rw [wordsOf, htext, words_append, List.map_append]
  rfl

theorem wordsOf_eq_singleton {s : String} (hblank : ∀ c ∈ s.toList, isBlank c = false)
    (hne : s.toList ≠ []) : wordsOf s = [s] := by
  have hwords : words s.toList = [s.toList] := by
    rw [words, List.splitOnP_eq_singleton hblank]
    simp [hne]
  rw [wordsOf, hwords, List.map_singleton, String.ofList_toList]

end BugReport.Text
