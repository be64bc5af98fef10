import BugReport.Text.Digits
import Mathlib.Data.List.Induction
import Mathlib.Data.String.Basic

/-! # The order of digits

Texts are compared from the left, so a part of the same length decides before all that follows it. Rows of digits of
the same length are in the order of their values.
-/

namespace BugReport.Text

variable {a b x y : List Char}

theorem append_lt_append_iff (h : a.length = b.length) : a ++ x < b ++ y ↔ a < b ∨ a = b ∧ x < y := by
  induction a generalizing b with
  | nil =>
      obtain rfl := List.length_eq_zero_iff.mp h.symm
      simp
  | cons c a ih =>
      obtain ⟨d, b, rfl⟩ := List.exists_cons_of_length_eq_add_one h.symm
      rw [List.cons_append, List.cons_append, List.cons_lt_cons_iff, List.cons_lt_cons_iff,
        ih (Nat.succ_inj.mp h), List.cons.injEq, and_or_left, or_assoc, and_assoc]

theorem digitsValue_append_singleton (ds : List Char) (c : Char) :
    digitsValue (ds ++ [c]) = 10 * digitsValue ds + (c.toNat - 48) := by
  simp [digitsValue]

theorem digitsValue_zeros (n : Nat) (ds : List Char) :
    digitsValue (List.replicate n '0' ++ ds) = digitsValue ds := by
  have hzeros : digitsValue (List.replicate n '0') = 0 := by
    induction n with
    | zero => rfl
    | succ n ih =>
        rw [List.replicate_succ', digitsValue_append_singleton, ih]
        rfl
  rw [digitsValue, List.foldl_append, ← digitsValue, hzeros, digitsValue]

theorem digit_bounds {c : Char} (h : c.isDigit = true) : 48 ≤ c.toNat ∧ c.toNat ≤ 57 := by
  simpa [Char.isDigit, UInt32.le_iff_toNat_le] using h

/-- Rows of digits of the same length are the same if their values are, and in the order of these otherwise. -/
theorem digits_order (hlength : a.length = b.length) (ha : ∀ c ∈ a, c.isDigit = true)
    (hb : ∀ c ∈ b, c.isDigit = true) :
    (a = b ↔ digitsValue a = digitsValue b) ∧ (a < b ↔ digitsValue a < digitsValue b) := by
  induction a using List.reverseRecOn generalizing b with
  | nil =>
      obtain rfl := List.length_eq_zero_iff.mp hlength.symm
      simp
  | append_singleton a c ih =>
      obtain rfl | ⟨b, d, rfl⟩ := List.eq_nil_or_concat' b
      · simp at hlength
      · obtain ⟨ha, hc⟩ := List.forall_mem_append.mp ha
        obtain ⟨hb, hd⟩ := List.forall_mem_append.mp hb
        have hlength : a.length = b.length := by simpa using hlength
        obtain ⟨heq, hlt⟩ := ih hlength ha hb
        have hc := digit_bounds (hc c List.mem_cons_self)
        have hd := digit_bounds (hd d List.mem_cons_self)
        have hsame : c = d ↔ c.toNat = d.toNat := Char.toNat_inj.symm
        have hless : c < d ↔ c.toNat < d.toNat := Iff.rfl
        rw [append_lt_append_iff hlength, List.append_singleton_inj, heq, hlt, digitsValue_append_singleton,
          digitsValue_append_singleton, List.cons_lt_cons_iff, hsame, hless]
        simp only [List.not_lt_nil, and_false, or_false]
        omega

end BugReport.Text
