import BugReport.Text.Digits

/-! # The digits of a number -/

namespace BugReport.Text

theorem isDigit_of_mem_toString {n : Nat} {c : Char} (h : c ∈ (toString n).toList) :
    c.isDigit = true := by
  rw [Nat.toString_eq_repr, Nat.toList_repr] at h
  exact Nat.isDigit_of_mem_toDigits (by decide) (by decide) h

theorem toString_ne_nil (n : Nat) : (toString n).toList ≠ [] := by
  rw [Nat.toString_eq_repr, Nat.toList_repr]
  exact Nat.toDigits_ne_nil

/-- The digits of a number have its value. -/
theorem digitsValue_toString (n : Nat) : digitsValue (toString n).toList = n := by
  rw [Nat.toString_eq_repr, Nat.toList_repr]
  exact Nat.ofDigitChars_ten_toDigits

/-- A number is read back from its digits. -/
theorem natural?_toString (n : Nat) : natural? (toString n) = some n := by
  have hall : (toString n).toList.all Char.isDigit = true :=
    List.all_eq_true.mpr fun c hc => isDigit_of_mem_toString hc
  have hempty : (toString n).toList.isEmpty = false :=
    List.isEmpty_eq_false_iff.mpr (toString_ne_nil n)
  simp only [natural?, hall, hempty, Bool.not_true, Bool.or_false, Bool.false_eq_true, ↓reduceIte,
    digitsValue_toString]

/-- Only a first sign is not a digit. -/
theorem toString_int_cases (n : Int) :
    ∃ m : Nat, (toString n).toList = (toString m).toList ∨
      (toString n).toList = '-' :: (toString m).toList := by
  rw [Int.toString_eq_repr, Int.repr_eq_if]
  split
  · exact ⟨n.toNat, .inl (by rw [Nat.toString_eq_repr])⟩
  · exact ⟨(-n).toNat, .inr (by rw [Nat.toString_eq_repr]; simp)⟩

end BugReport.Text
