import BugReport.Proofs.Text.Sequences
import Mathlib.Data.List.Infix

/-! # Replacing a text in a text

The occurrences of a text are taken from the left. Where a text is put together with a separator between
parts in which the separator is not even begun, these are all of its occurrences, so replacing them puts the
parts together with the replacement.
-/

namespace BugReport.Text

/-- Replaces the occurrences of a non-empty text. -/
def replaced (old new s : String) : String :=
  new.intercalate (partsSeq old s)

/-- A sequence does not occur in a part, nor does it begin there when it follows the part. -/
def ClearOf (sep part : List Char) : Prop :=
  ¬ sep <:+: part ++ sep.dropLast

section

variable {sep front part : List Char} {parts : List (List Char)}

theorem ClearOf.not_infix (h : ClearOf sep part) : ¬ sep <:+: part :=
  fun hfound => h (hfound.trans (List.prefix_append _ _).isInfix)

theorem partsSeqList_skip (sep skipped back : List Char) :
    partsSeqList sep skipped.length (skipped ++ back) = partsSeqList sep 0 back := by
  induction skipped with
  | nil => rfl
  | cons c skipped ih => exact ih

theorem partsSeqList_append (hne : sep ≠ []) (h : ClearOf sep front) (back : List Char) :
    partsSeqList sep 0 (front ++ sep ++ back) = front :: partsSeqList sep 0 back := by
  induction front with
  | nil =>
      obtain ⟨mark, rest, rfl⟩ := List.exists_cons_of_ne_nil hne
      have hstart : (mark :: rest).isPrefixOf (mark :: (rest ++ back)) = true :=
        List.isPrefixOf_iff_prefix.mpr (List.prefix_append (mark :: rest) back)
      rw [List.nil_append, List.cons_append, partsSeqList, if_pos hstart, List.length_cons, Nat.add_sub_cancel,
        partsSeqList_skip]
  | cons c front ih =>
      have hrest : ClearOf sep front := fun hfound => h (List.infix_cons hfound)
      have hstart : ¬ sep.isPrefixOf (c :: (front ++ sep ++ back)) = true := by
        intro hstart
        -- The part and all but the last character of the sequence are long enough to hold it.
        have hlong : c :: front ++ sep.dropLast <+: c :: (front ++ sep ++ back) := by
          refine ⟨sep.getLast hne :: back, ?_⟩
          rw [List.append_assoc, List.append_cons, List.dropLast_append_getLast, List.cons_append, List.append_assoc]
        have hlength : sep.length ≤ (c :: front ++ sep.dropLast).length := by
          simp only [List.cons_append, List.length_cons, List.length_append, List.length_dropLast]
          omega
        exact h (List.prefix_of_prefix_length_le (List.isPrefixOf_iff_prefix.mp hstart) hlong hlength).isInfix
      rw [List.cons_append, List.cons_append, partsSeqList, if_neg hstart, ih hrest, List.modifyHead_cons]

theorem partsSeqList_intercalate (hne : sep ≠ []) (hparts : parts ≠ []) (h : ∀ part ∈ parts, ClearOf sep part) :
    partsSeqList sep 0 (sep.intercalate parts) = parts := by
  induction parts with
  | nil => exact absurd rfl hparts
  | cons part parts ih =>
      obtain ⟨hpart, hrest⟩ := List.forall_mem_cons.mp h
      cases parts with
      | nil => rw [List.intercalate_singleton, partsSeqList_eq_singleton hpart.not_infix]
      | cons next parts =>
          rw [List.intercalate_cons_cons, partsSeqList_append hne hpart, ih (List.cons_ne_nil _ _) hrest]

end

/-- What stands between clear parts is replaced. -/
theorem toList_replaced {old s : String} {parts : List (List Char)} (hold : old.toList ≠ []) (hparts : parts ≠ [])
    (h : ∀ part ∈ parts, ClearOf old.toList part) (hs : s.toList = old.toList.intercalate parts) (new : String) :
    (replaced old new s).toList = new.toList.intercalate parts := by
  rw [replaced, partsSeq, hs, partsSeqList_intercalate hold hparts h, String.toList_intercalate, List.map_map]
  simp [Function.comp_def]

theorem nil_intercalate (parts : List (List Char)) : ([] : List Char).intercalate parts = parts.flatten := by
  induction parts with
  | nil => rfl
  | cons part parts ih =>
      cases parts with
      | nil => simp
      | cons next parts => simp [List.intercalate_cons_cons, ih]

end BugReport.Text
