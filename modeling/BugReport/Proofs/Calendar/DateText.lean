import BugReport.Proofs.Calendar.Order
import BugReport.Proofs.Text.DigitOrder
import BugReport.Proofs.Filter.Clean

/-! # The order of date texts

A date with a year of four digits is written in ten characters, and such texts are in the order of the dates. A year
before the year 0 or behind the year 9999 is written with a sign, and signs come before digits.
-/

namespace BugReport.Calendar

open Text (digitsValue append_lt_append_iff digits_order digitsValue_zeros)

/-! ## Numbers of a fixed width -/

section Padded

variable {width m n : Nat}

theorem length_padded (h : (Nat.toDigits 10 n).length ≤ width) : (padded width n).toList.length = width := by
  simp only [padded, String.toList_ofList, List.length_append, List.length_replicate]
  omega

theorem digitsValue_padded (width n : Nat) : digitsValue (padded width n).toList = n := by
  rw [padded, String.toList_ofList, digitsValue_zeros]
  exact Nat.ofDigitChars_ten_toDigits

/-- Numbers that fit a width are in the order of their texts. What follows the texts counts only if these are the
same. -/
theorem padded_append_lt_iff (hm : (Nat.toDigits 10 m).length ≤ width) (hn : (Nat.toDigits 10 n).length ≤ width)
    (x y : List Char) :
    (padded width m).toList ++ x < (padded width n).toList ++ y ↔ m < n ∨ m = n ∧ x < y := by
  have hlength : (padded width m).toList.length = (padded width n).toList.length := by
    rw [length_padded hm, length_padded hn]
  obtain ⟨hsame, hless⟩ :=
    digits_order hlength (fun _ hc => isDigit_of_mem_padded hc) fun _ hc => isDigit_of_mem_padded hc
  rw [append_lt_append_iff hlength, hsame, hless, digitsValue_padded, digitsValue_padded]

end Padded

namespace Date

/-- Whether the text of a date has the form YYYY-MM-DD. -/
structure FitsPattern (d : Date) : Prop where
  year_nonneg : 0 ≤ d.year
  year_le : d.year ≤ 9999
  month_le : d.month ≤ 99
  day_le : d.day ≤ 99

instance (d : Date) : Decidable d.FitsPattern :=
  decidable_of_iff ((0 ≤ d.year ∧ d.year ≤ 9999) ∧ d.month ≤ 99 ∧ d.day ≤ 99)
    ⟨fun h => ⟨h.1.1, h.1.2, h.2.1, h.2.2⟩, fun h => ⟨⟨h.year_nonneg, h.year_le⟩, h.month_le, h.day_le⟩⟩

variable {a b d : Date}

theorem daysInMonth_le (year : Int) (month : Nat) : daysInMonth year month ≤ 31 := by
  unfold daysInMonth
  split
  · split <;> decide
  all_goals decide

/-- The dates of the calendar with a year of four digits have this form. -/
theorem InCalendar.fitsPattern_iff (h : d.InCalendar) : d.FitsPattern ↔ 0 ≤ d.year ∧ d.year ≤ 9999 :=
  ⟨fun hd => ⟨hd.year_nonneg, hd.year_le⟩, fun hyear =>
    ⟨hyear.1, hyear.2, Nat.le_trans h.month_le (by decide),
      Nat.le_trans h.day_le (Nat.le_trans (daysInMonth_le _ _) (by decide))⟩⟩

/-- The text of a date, part by part. -/
theorem toList_text (h : d.FitsPattern) : d.text.toList = (padded 4 d.year.toNat).toList ++
    '-' :: ((padded 2 d.month).toList ++ '-' :: (padded 2 d.day).toList) := by
  simp [text, yearText, h.year_nonneg, h.year_le]

theorem fits_two {n : Nat} (h : n ≤ 99) : (Nat.toDigits 10 n).length ≤ 2 := by
  rw [Nat.length_toDigits_le_iff (by decide) (by decide)]
  omega

theorem FitsPattern.fits_four (h : d.FitsPattern) : (Nat.toDigits 10 d.year.toNat).length ≤ 4 := by
  have hle := h.year_le
  rw [Nat.length_toDigits_le_iff (by decide) (by decide)]
  omega

/-- Dates are in the order of their texts. What follows the texts counts only if the dates are the same. -/
theorem text_append_lt_iff (ha : a.FitsPattern) (hb : b.FitsPattern) (x y : List Char) :
    a.text.toList ++ x < b.text.toList ++ y ↔ a < b ∨ a = b ∧ x < y := by
  have hyear := ha.year_nonneg
  have hyear' := hb.year_nonneg
  have hless : a.year.toNat < b.year.toNat ↔ a.year < b.year := by omega
  have hsame : a.year.toNat = b.year.toNat ↔ a.year = b.year := by omega
  rw [toList_text ha, toList_text hb]
  simp only [List.append_assoc, List.cons_append]
  rw [padded_append_lt_iff ha.fits_four hb.fits_four, List.cons_lt_cons_self,
    padded_append_lt_iff (fits_two ha.month_le) (fits_two hb.month_le), List.cons_lt_cons_self,
    padded_append_lt_iff (fits_two ha.day_le) (fits_two hb.day_le), hless, hsame, lt_iff]
  obtain ⟨year, month, day⟩ := a
  obtain ⟨year', month', day'⟩ := b
  rw [Date.mk.injEq]
  grind

theorem text_lt_text_iff (ha : a.FitsPattern) (hb : b.FitsPattern) : a.text < b.text ↔ a < b := by
  rw [String.lt_iff_toList_lt]
  simpa using text_append_lt_iff ha hb [] []

/-- The text of a date starts with a digit. -/
theorem FitsPattern.exists_digit (h : d.FitsPattern) : ∃ c cs, d.text.toList = c :: cs ∧ c.isDigit = true := by
  obtain ⟨c, cs, hcs⟩ : ∃ c cs, (padded 4 d.year.toNat).toList = c :: cs := by
    apply List.exists_cons_of_ne_nil
    intro hnil
    have hlength := length_padded h.fits_four
    rw [hnil] at hlength
    cases hlength
  have hdigit : c.isDigit = true := isDigit_of_mem_padded (hcs ▸ List.mem_cons_self)
  rw [toList_text h, hcs]
  exact ⟨c, _, rfl, hdigit⟩

/-- The text of a date holds digits and hyphens alone. -/
theorem FitsPattern.of_mem_text (h : d.FitsPattern) {c : Char} (hc : c ∈ d.text.toList) :
    c.isDigit = true ∨ c = '-' := by
  simp only [toList_text h, List.mem_append, List.mem_cons] at hc
  rcases hc with hyear | hhyphen | hmonth | hhyphen | hday
  · exact .inl (isDigit_of_mem_padded hyear)
  · exact .inr hhyphen
  · exact .inl (isDigit_of_mem_padded hmonth)
  · exact .inr hhyphen
  · exact .inl (isDigit_of_mem_padded hday)

/-- The text of a year that needs a sign comes before those of all years that need none. -/
theorem text_lt_of_sign (hd : d.InCalendar) (hsigned : ¬ d.FitsPattern) (hb : b.FitsPattern) : d.text < b.text := by
  have hsign : ∃ sign rest, d.text.toList = sign :: rest ∧ sign < '0' := by
    have hno : ¬ (decide (0 ≤ d.year) && decide (d.year ≤ 9999)) = true := by
      rw [Bool.and_eq_true, decide_eq_true_eq, decide_eq_true_eq, ← hd.fitsPattern_iff]
      exact hsigned
    rw [text, yearText, if_neg hno]
    by_cases hneg : d.year < 0
    · exact ⟨'-', _, by simp [hneg]; rfl, by decide⟩
    · exact ⟨'+', _, by simp [hneg]; rfl, by decide⟩
  obtain ⟨sign, rest, htext, hsign⟩ := hsign
  obtain ⟨digit, digits, hdigits, hdigit⟩ := hb.exists_digit
  rw [String.lt_iff_toList_lt, htext, hdigits]
  exact List.cons_lt_cons_iff.mpr (.inl (lt_of_lt_of_le hsign (Text.digit_bounds hdigit).1))

end Date

end BugReport.Calendar
