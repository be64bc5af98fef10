import BugReport.Proofs.Text.Trim

/-! # Parts in columns

Where texts of known widths are put together with separators of three characters between them, each starts at a
place that depends on nothing but the widths of those before it. Blanks that are cut off at the end move nothing.
-/

namespace BugReport.Text

/-- The place at which a column starts: behind the columns before it, with three characters behind each. -/
def columnStart (width : Nat → Nat) : Nat → Nat
  | 0 => 0
  | i + 1 => columnStart width i + (width i + 3)

/-- The place of the middle one of the three characters behind a column. -/
def gapCenter (width : Nat → Nat) (i : Nat) : Nat :=
  columnStart width i + width i + 1

variable {width : Nat → Nat} {sep part : List Char} {parts : List (List Char)} {i p : Nat} {c : Char}

theorem columnStart_succ' (width : Nat → Nat) (i : Nat) :
    columnStart width (i + 1) = width 0 + 3 + columnStart (fun j => width (j + 1)) i := by
  induction i with
  | zero => exact Nat.add_comm 0 _
  | succ i ih =>
      rw [columnStart, ih, columnStart]
      omega

theorem intercalate_cons_eq_flatMap (sep part : List Char) (parts : List (List Char)) :
    sep.intercalate (part :: parts) = part ++ parts.flatMap (sep ++ ·) := by
  induction parts generalizing part with
  | nil => simp
  | cons next parts ih => rw [List.intercalate_cons_cons, ih, List.flatMap_cons, List.append_assoc, List.append_assoc]

/-- Whether the widths are those of the parts. -/
def HaveWidths (width : Nat → Nat) (parts : List (List Char)) : Prop :=
  ∀ i part, parts[i]? = some part → part.length = width i

theorem HaveWidths.head (h : HaveWidths width (part :: parts)) : part.length = width 0 :=
  h 0 part rfl

theorem HaveWidths.tail (h : HaveWidths width (part :: parts)) : HaveWidths (fun i => width (i + 1)) parts :=
  fun i => h (i + 1)

/-- Behind the start of a column there are its part and the parts after it. -/
theorem drop_columnStart (hsep : sep.length = 3) (hparts : HaveWidths width parts) (h : parts[i]? = some part) :
    (sep.intercalate parts).drop (columnStart width i) = part ++ (parts.drop (i + 1)).flatMap (sep ++ ·) := by
  induction parts generalizing width i with
  | nil => cases h
  | cons first parts ih =>
      cases i with
      | zero =>
          obtain rfl := Option.some.inj h
          exact intercalate_cons_eq_flatMap sep first parts
      | succ i =>
          have hlength : (first ++ sep).length = width 0 + 3 := by
            rw [List.length_append, hparts.head, hsep]
          obtain ⟨next, parts, rfl⟩ := List.exists_cons_of_ne_nil (fun hnil : parts = [] => by simp [hnil] at h)
          rw [columnStart_succ', List.intercalate_cons_cons, ← hlength, List.drop_length_add_append, ih hparts.tail h]
          rfl

theorem take_column (hsep : sep.length = 3) (hparts : HaveWidths width parts) (h : parts[i]? = some part) :
    ((sep.intercalate parts).drop (columnStart width i)).take (width i) = part := by
  rw [drop_columnStart hsep hparts h, ← hparts i part h, List.take_left]

/-- Between two columns there is the separator. -/
theorem take_gap (hsep : sep.length = 3) (hparts : HaveWidths width parts) (h : i + 1 < parts.length) :
    ((sep.intercalate parts).drop (columnStart width i + width i)).take 3 = sep := by
  have hpart : parts[i]? = some parts[i] := List.getElem?_eq_getElem (by omega)
  have hrest : parts.drop (i + 1) = parts[i + 1] :: parts.drop (i + 1 + 1) := List.drop_eq_getElem_cons h
  rw [← List.drop_drop, drop_columnStart hsep hparts hpart, ← hparts i _ hpart, List.drop_left, hrest,
    List.flatMap_cons, ← hsep, List.append_assoc, List.take_left]

/-- The middle character of the separator is in the center of each gap. -/
theorem getElem?_gapCenter (hsep : sep.length = 3) (hparts : HaveWidths width parts) (h : i + 1 < parts.length) :
    (sep.intercalate parts)[gapCenter width i]? = sep[1]? := by
  have hgap := congrArg (·[1]?) (take_gap hsep hparts h)
  rwa [List.getElem?_take_of_lt (by decide), List.getElem?_drop, ← gapCenter] at hgap

theorem length_columns (hsep : sep.length = 3) (hparts : HaveWidths width parts) :
    (sep.intercalate parts).length = columnStart width parts.length - 3 := by
  have hcons (part : List Char) {parts : List (List Char)} {width : Nat → Nat}
      (hparts : HaveWidths width (part :: parts)) :
      (sep.intercalate (part :: parts)).length + 3 = columnStart width (parts.length + 1) := by
    induction parts generalizing part width with
    | nil => simp [columnStart, hparts.head]
    | cons next parts ih =>
        rw [columnStart_succ', List.length_cons, ← ih next hparts.tail, List.intercalate_cons_cons,
          List.length_append, List.length_append, hparts.head, hsep]
        omega
  cases parts with
  | nil => rfl
  | cons part parts => rw [List.length_cons, ← hcons part hparts, Nat.add_sub_cancel]

theorem gapCenter_succ' (width : Nat → Nat) (i : Nat) :
    gapCenter width (i + 1) = width 0 + 3 + gapCenter (fun j => width (j + 1)) i := by
  rw [gapCenter, gapCenter, columnStart_succ']
  omega

section

variable {left right : Char}

/-- A character that stands in no part, and of the separator in the middle only, stands in the center of a gap. -/
theorem exists_gapCenter_of_getElem? (hleft : left ≠ c) (hright : right ≠ c) (hclear : ∀ part ∈ parts, c ∉ part)
    (hparts : HaveWidths width parts) (h : ([left, c, right].intercalate parts)[p]? = some c) :
    ∃ i, i + 1 < parts.length ∧ p = gapCenter width i := by
  induction parts generalizing width p with
  | nil => simp at h
  | cons part parts ih =>
      obtain ⟨hpart, hrest⟩ := List.forall_mem_cons.mp hclear
      cases parts with
      | nil =>
          rw [List.intercalate_singleton] at h
          exact absurd (List.mem_of_getElem? h) hpart
      | cons next parts =>
          rw [List.intercalate_cons_cons, List.append_assoc, List.getElem?_append, hparts.head] at h
          split at h
          · exact absurd (List.mem_of_getElem? h) hpart
          next hp =>
              obtain ⟨q, rfl⟩ := Nat.exists_eq_add_of_le (Nat.le_of_not_lt hp)
              rw [Nat.add_sub_cancel_left] at h
              match q, h with
              | 0, h => exact absurd (Option.some.inj h) hleft
              | 1, _ => exact ⟨0, by simp, by simp [gapCenter, columnStart]⟩
              | 2, h => exact absurd (Option.some.inj h) hright
              | q + 3, h =>
                  obtain ⟨i, hi, rfl⟩ := ih hrest hparts.tail h
                  refine ⟨i + 1, by simpa using hi, ?_⟩
                  rw [gapCenter_succ']
                  omega

/-- Such a character stands in the centers of the gaps and nowhere else. -/
theorem getElem?_columns_eq_some_iff (hleft : left ≠ c) (hright : right ≠ c) (hclear : ∀ part ∈ parts, c ∉ part)
    (hparts : HaveWidths width parts) :
    ([left, c, right].intercalate parts)[p]? = some c ↔ ∃ i, i + 1 < parts.length ∧ p = gapCenter width i := by
  constructor
  · exact exists_gapCenter_of_getElem? hleft hright hclear hparts
  · rintro ⟨i, hi, rfl⟩
    exact getElem?_gapCenter rfl hparts hi

end

/-! ## Blanks at the end -/

/-- Trimming at the end cuts off blanks and nothing else. -/
theorem exists_trimRight_append (cs : List Char) :
    ∃ blanks, cs = trimRight cs ++ blanks ∧ ∀ c ∈ blanks, isBlank c = true := by
  refine ⟨(cs.reverse.takeWhile isBlank).reverse, ?_, ?_⟩
  · rw [trimRight, ← List.reverse_append, List.takeWhile_append_dropWhile, List.reverse_reverse]
  · intro c hc
    exact List.all_eq_true.mp List.all_takeWhile c (List.mem_reverse.mp hc)

/-- A character that is no blank keeps its place. -/
theorem getElem?_trimRight {cs : List Char} (h : cs[p]? = some c) (hc : isBlank c = false) :
    (trimRight cs)[p]? = some c := by
  obtain ⟨blanks, hcs, hblanks⟩ := exists_trimRight_append cs
  rw [hcs, List.getElem?_append] at h
  split at h
  · exact h
  · rw [hblanks c (List.mem_of_getElem? h)] at hc
    cases hc

/-- What a text with blanks behind it has at some place it has itself, but for blanks at the end. -/
theorem exists_take_append {cs blanks : List Char} (hblanks : ∀ c ∈ blanks, isBlank c = true) {start length : Nat}
    (h : ((cs ++ blanks).drop start).take length = part) :
    ∃ cut, part = (cs.drop start).take length ++ cut ∧ (∀ c ∈ cut, isBlank c = true) ∧
      (start + length ≤ cs.length → cut = []) := by
  rw [List.drop_append, List.take_append] at h
  refine ⟨_, h.symm, ?_, ?_⟩
  · intro c hc
    exact hblanks c (List.mem_of_mem_drop (List.mem_of_mem_take hc))
  · intro hlong
    have hnone : length - (cs.drop start).length = 0 := by
      rw [List.length_drop]
      omega
    rw [hnone, List.take_zero]

end BugReport.Text
