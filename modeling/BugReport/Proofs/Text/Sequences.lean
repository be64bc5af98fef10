import BugReport.Text.Split
import Mathlib.Data.List.Basic

/-! # Sequences in texts

A text without a sequence is not cut by it. Behind a text without its first character, a sequence is found where
it stands.
-/

namespace BugReport.Text

variable {mark c : Char} {rest sep cs front back : List Char}

theorem cutSeqList_eq_none (h : ¬ sep <:+: cs) : cutSeqList sep cs = none := by
  induction cs with
  | nil => rfl
  | cons c cs ih =>
      have hstart : ¬ sep.isPrefixOf (c :: cs) = true :=
        fun hstart => h (List.isPrefixOf_iff_prefix.mp hstart).isInfix
      have hrest : ¬ sep <:+: cs := fun hfound => h (List.infix_cons hfound)
      rw [cutSeqList, if_neg hstart, ih hrest, Option.map_none]

theorem partsSeqList_eq_singleton (h : ¬ sep <:+: cs) : partsSeqList sep 0 cs = [cs] := by
  induction cs with
  | nil => rfl
  | cons c cs ih =>
      have hstart : ¬ sep.isPrefixOf (c :: cs) = true :=
        fun hstart => h (List.isPrefixOf_iff_prefix.mp hstart).isInfix
      have hrest : ¬ sep <:+: cs := fun hfound => h (List.infix_cons hfound)
      rw [partsSeqList, if_neg hstart, ih hrest, List.modifyHead_cons]

theorem not_isPrefixOf_cons (h : c ≠ mark) : ¬ (mark :: rest).isPrefixOf (c :: cs) = true := by
  rw [List.isPrefixOf_iff_prefix, List.cons_prefix_cons]
  exact fun hstart => h hstart.1.symm

theorem cutSeqList_append (h : mark ∉ front) (rest back : List Char) :
    cutSeqList (mark :: rest) (front ++ (mark :: rest) ++ back) = some (front, back) := by
  induction front with
  | nil =>
      have hstart : (mark :: rest).isPrefixOf (mark :: (rest ++ back)) = true :=
        List.isPrefixOf_iff_prefix.mpr (List.prefix_append _ _)
      rw [List.nil_append, List.cons_append, cutSeqList, if_pos hstart, List.length_cons, List.drop_succ_cons,
        List.drop_left]
  | cons c front ih =>
      obtain ⟨hne, hfront⟩ := not_or.mp (mt List.mem_cons.mpr h)
      rw [List.cons_append, List.cons_append, cutSeqList, if_neg (not_isPrefixOf_cons (Ne.symm hne)),
        ih hfront, Option.map_some]

theorem infix_of_infix_append (h : mark ∉ front) (hfound : (mark :: rest) <:+: front ++ back) :
    (mark :: rest) <:+: back := by
  induction front with
  | nil => exact hfound
  | cons c front ih =>
      obtain ⟨hne, hfront⟩ := not_or.mp (mt List.mem_cons.mpr h)
      rw [List.cons_append, List.infix_cons_iff] at hfound
      rcases hfound with hstart | hrest
      · exact absurd (List.cons_prefix_cons.mp hstart).1 hne
      · exact ih hfront hrest

end BugReport.Text
