import BugReport.Expression.Date
import BugReport.Proofs.Text.Trim

/-! # Offsets

An offset is counted in signed 64-bit integers, which stop at the greatest one twice: when the digits are read, and
when the count is multiplied by the seconds of a unit. Together this is one bound for the exact product. The sign adds
nothing to it, because the one integer without a negative is never reached.
-/

namespace BugReport

open Text (digitsValue trim)

/-! ## Counting in 64 bits -/

namespace DateBound

variable {digits unit cs : List Char}

theorem maxSeconds_eq : (maxSeconds : Int) = Int64.maxValue.toInt := rfl

theorem toInt_count (digits : List Char) :
    ((count? digits).getD Int64.maxValue).toInt = (min (digitsValue digits) maxSeconds : Nat) := by
  unfold count?
  split
  next h => rw [Option.getD_some, Int64.toInt_ofNat_of_lt (Nat.lt_succ_of_le h), Nat.min_eq_left h]
  next h => rw [Option.getD_none, Nat.min_eq_right (Nat.le_of_not_le h), maxSeconds_eq]

theorem toInt_saturatingMul (a b : Int64) : (saturatingMul a b).toInt =
    max Int64.minValue.toInt (min (a.toInt * b.toInt) Int64.maxValue.toInt) := by
  have hrange : Int64.minValue.toInt ≤ Int64.maxValue.toInt := by decide
  unfold saturatingMul Int64.ofIntClamp
  split
  next hlow =>
      split
      next hhigh => rw [Int64.toInt_ofIntLE, Int.min_eq_left hhigh, Int.max_eq_right hlow]
      next hhigh => rw [Int.min_eq_right (Int.le_of_not_le hhigh), Int.max_eq_right hrange]
  next hlow =>
      have hhigh := Int.le_trans (Int.le_of_not_le hlow) hrange
      rw [Int.min_eq_left hhigh, Int.max_eq_left (Int.le_of_not_le hlow)]

theorem unitSeconds_le (unit : List Char) : unitSeconds unit ≤ 2592000 := by
  unfold unitSeconds
  split <;> decide

/-- A count that stops at a bound before it is multiplied makes no difference to a product that stops there. -/
theorem min_mul_min (n k m : Nat) : min (min n m * k) m = min (n * k) m := by
  rcases Nat.le_total n m with h | h
  · rw [Nat.min_eq_left h]
  · rw [Nat.min_eq_right h]
    cases k with
    | zero => rfl
    | succ k =>
        have hbound : m ≤ m * (k + 1) := Nat.le_mul_of_pos_right m (Nat.succ_pos k)
        have hproduct : m ≤ n * (k + 1) := Nat.le_trans hbound (Nat.mul_le_mul_right _ h)
        rw [Nat.min_eq_right hbound, Nat.min_eq_right hproduct]

theorem toInt_offsetSeconds (cs : List Char) : (offsetSeconds cs).toInt =
    (min (digitsValue (cs.takeWhile Char.isDigit) * unitSeconds (cs.dropWhile Char.isDigit)) maxSeconds : Nat) := by
  have hunit := unitSeconds_le (cs.dropWhile Char.isDigit)
  have hleast : Int64.minValue.toInt ≤ 0 := by decide
  rw [offsetSeconds, toInt_saturatingMul, toInt_count, Int64.toInt_ofNat_of_lt (by omega), ← min_mul_min,
    ← maxSeconds_eq, ← Int.natCast_mul]
  omega

/-- No offset reaches the least integer, so its sign can be changed. -/
theorem toInt_neg_offsetSeconds (cs : List Char) : (-offsetSeconds cs).toInt = -(offsetSeconds cs).toInt := by
  have hbound := (offsetSeconds cs).toInt_lt
  have hsign : 0 ≤ (offsetSeconds cs).toInt := toInt_offsetSeconds cs ▸ Int.natCast_nonneg _
  rw [Int64.toInt_neg]
  exact Int.bmod_eq_of_le (by omega) (by omega)

theorem ofList_of_unsigned (hstar : cs ≠ ['*']) (hsign : ¬ (cs.head? = some '+' ∨ cs.head? = some '-')) :
    ofList cs = .absolute (String.ofList cs) := by
  unfold ofList
  split
  · exact absurd rfl hstar
  · exact absurd (.inl rfl) hsign
  · exact absurd (.inr rfl) hsign
  · rfl

end DateBound

/-! ## Offsets as they are written -/

/-- An offset as it is written: a sign, a row of digits, and a unit, which starts where the digits end. There may be no
digits, and no unit either. -/
structure OffsetText where
  ahead : Bool
  digits : List Char
  unit : List Char
  all_isDigit : digits.all Char.isDigit = true
  unit_head : ∀ c ∈ unit.head?, c.isDigit = false

namespace OffsetText

def sign (o : OffsetText) : Char :=
  if o.ahead then '+' else '-'

def chars (o : OffsetText) : List Char :=
  o.sign :: (o.digits ++ o.unit)

def text (o : OffsetText) : String :=
  String.ofList o.chars

/-- The seconds of a unit: days, weeks of seven days and months of thirty. Any other text is worth nothing. -/
def worth (o : OffsetText) : Nat :=
  if o.unit = ['d'] then 86400
  else if o.unit = ['w'] then 7 * 86400
  else if o.unit = ['m'] then 30 * 86400
  else 0

/-- The seconds of an offset: those of its units, up to the greatest signed 64-bit integer, with the sign. -/
def seconds (o : OffsetText) : Int :=
  let exact : Int := Nat.ofDigitChars 10 o.digits 0 * o.worth
  let bounded := min exact Int64.maxValue.toInt
  if o.ahead then bounded else -bounded

variable {o : OffsetText} {cs : List Char}

theorem unitSeconds_unit (o : OffsetText) : DateBound.unitSeconds o.unit = o.worth := by
  unfold DateBound.unitSeconds worth
  split
  next h => rw [if_pos h]
  next h => rw [h, if_neg (by decide), if_pos rfl]
  next h => rw [h, if_neg (by decide), if_neg (by decide), if_pos rfl]
  next hday hweek hmonth => rw [if_neg hday, if_neg hweek, if_neg hmonth]

/-- The digits of an offset end where its unit starts. -/
theorem takeWhile_digits (o : OffsetText) : (o.digits ++ o.unit).takeWhile Char.isDigit = o.digits := by
  have hunit : o.unit.takeWhile Char.isDigit = [] := by
    cases hcs : o.unit with
    | nil => rfl
    | cons c cs =>
        have hc := o.unit_head c (by rw [hcs]; rfl)
        exact List.takeWhile_cons_of_neg (by rw [hc]; exact Bool.false_ne_true)
  rw [List.takeWhile_append_of_pos (List.all_eq_true.mp o.all_isDigit), hunit, List.append_nil]

theorem dropWhile_digits (o : OffsetText) : (o.digits ++ o.unit).dropWhile Char.isDigit = o.unit := by
  have hparts := List.takeWhile_append_dropWhile (p := Char.isDigit) (l := o.digits ++ o.unit)
  rw [takeWhile_digits] at hparts
  exact List.append_cancel_left hparts

theorem toInt_offsetSeconds (o : OffsetText) : (DateBound.offsetSeconds (o.digits ++ o.unit)).toInt =
    min ((Nat.ofDigitChars 10 o.digits 0 : Int) * o.worth) Int64.maxValue.toInt := by
  have hdigits : digitsValue o.digits = Nat.ofDigitChars 10 o.digits 0 := rfl
  rw [DateBound.toInt_offsetSeconds, takeWhile_digits, dropWhile_digits, unitSeconds_unit, hdigits,
    ← DateBound.maxSeconds_eq, ← Int.natCast_mul]
  omega

theorem ofList_chars (o : OffsetText) : DateBound.ofList o.chars = .relative o.seconds := by
  rw [chars, sign, seconds, ← toInt_offsetSeconds]
  cases o.ahead with
  | true => rfl
  | false => exact congrArg DateBound.relative (DateBound.toInt_neg_offsetSeconds _)

/-- Whatever starts with a sign is an offset. -/
theorem exists_chars_eq (h : cs.head? = some '+' ∨ cs.head? = some '-') : ∃ o : OffsetText, o.chars = cs := by
  have hall : (cs.tail.takeWhile Char.isDigit).all Char.isDigit = true := List.all_takeWhile
  have hhead : ∀ c ∈ (cs.tail.dropWhile Char.isDigit).head?, c.isDigit = false := by
    intro c hc
    have hnot := List.head?_dropWhile_not Char.isDigit cs.tail
    rw [Option.mem_def.mp hc] at hnot
    simpa using hnot
  refine ⟨⟨cs.head? = some '+', _, _, hall, hhead⟩, ?_⟩
  rw [chars, sign, List.takeWhile_append_dropWhile]
  rcases h with hplus | hminus
  · rw [if_pos (decide_eq_true hplus)]
    exact List.cons_head?_tail hplus
  · have hplus : cs.head? ≠ some '+' := by
      rw [hminus]
      decide
    rw [if_neg (by simpa using hplus)]
    exact List.cons_head?_tail hminus

/-- An offset of more than a sign is a date expression of its own, if it has no colon. -/
theorem ofTrimmed_chars (hcolon : ':' ∉ o.chars) (hlength : 1 < o.chars.length) : DateExpr.ofTrimmed o.chars =
    if o.ahead then .onOrBefore (.relative o.seconds) else .onOrAfter (.relative o.seconds) := by
  have hbound := o.ofList_chars
  unfold DateExpr.ofTrimmed
  rw [List.splitOn_eq_singleton hcolon]
  obtain ⟨c, cs, hcs⟩ : ∃ c cs, o.digits ++ o.unit = c :: cs := by
    refine List.exists_cons_of_ne_nil fun hnil => ?_
    rw [chars, hnil, List.length_singleton] at hlength
    omega
  rw [chars, sign, hcs] at hbound ⊢
  cases hahead : o.ahead with
  | true =>
      rw [hahead, if_pos rfl] at hbound
      rw [if_pos rfl, if_pos rfl, ← hbound]
      rfl
  | false =>
      rw [hahead, if_neg Bool.false_ne_true] at hbound
      rw [if_neg Bool.false_ne_true, if_neg Bool.false_ne_true, ← hbound]
      rfl

end OffsetText

/-! ## Reading offsets -/

/-- An offset is read as its exact seconds, bounded once by the greatest signed 64-bit integer, however many digits it
has. Any other text but the star is compared with as it is. A trimmed date value without a colon that is more than a
sign and starts with one is an offset as a whole. -/
theorem offsets_saturate :
    (∀ o : OffsetText, DateBound.parse o.text = .relative o.seconds) ∧
    (∀ s : String, s ≠ "*" → (∀ o : OffsetText, o.text ≠ s) → DateBound.parse s = .absolute s) ∧
    ∀ s : String, ':' ∉ trim s.toList → 1 < (trim s.toList).length →
      (trim s.toList).head? = some '+' ∨ (trim s.toList).head? = some '-' →
      ∃ o : OffsetText, o.text = Text.trimmed s ∧ DateExpr.parse s =
        if o.ahead then .onOrBefore (.relative o.seconds) else .onOrAfter (.relative o.seconds) := by
  refine ⟨?_, ?_, ?_⟩
  · intro o
    rw [DateBound.parse, OffsetText.text, String.toList_ofList, o.ofList_chars]
  · intro s hstar hoffset
    have hunsigned : ¬ (s.toList.head? = some '+' ∨ s.toList.head? = some '-') := by
      intro hsign
      obtain ⟨o, ho⟩ := OffsetText.exists_chars_eq hsign
      exact hoffset o (by rw [OffsetText.text, ho, String.ofList_toList])
    have hlist : s.toList ≠ ['*'] := fun heq => hstar (String.toList_inj.mp heq)
    rw [DateBound.parse, DateBound.ofList_of_unsigned hlist hunsigned, String.ofList_toList]
  · intro s hcolon hlength hsign
    obtain ⟨o, ho⟩ := OffsetText.exists_chars_eq hsign
    rw [← ho] at hcolon hlength
    exact ⟨o, by rw [OffsetText.text, ho, Text.trimmed], by
      rw [DateExpr.parse, ← ho, OffsetText.ofTrimmed_chars hcolon hlength]⟩

/-- A negative count of months beyond the range, a day, and a count beyond the range with blanks around it. -/
theorem offsets_saturate_beyond_range :
    DateBound.parse "-9223372036854775808m" = .relative (-9223372036854775807) ∧
    DateBound.parse "2024-01-01" = .absolute "2024-01-01" ∧
    ∃ o : OffsetText, o.text = "+99999999999999999999d" ∧ DateExpr.parse " +99999999999999999999d\n" =
      if o.ahead then .onOrBefore (.relative o.seconds) else .onOrAfter (.relative o.seconds) := by
  refine ⟨?_, ?_, ?_⟩
  · let o : OffsetText := ⟨false, "9223372036854775808".toList, ['m'], by decide +kernel, by rintro _ ⟨⟩; decide⟩
    have htext : o.text = "-9223372036854775808m" := by decide +kernel
    have hseconds : o.seconds = -9223372036854775807 := by decide +kernel
    rw [← htext, ← hseconds]
    exact offsets_saturate.1 o
  · refine offsets_saturate.2.1 "2024-01-01" (by decide) fun o ho => ?_
    have hsign : o.text.toList.head? = some '2' := by
      rw [ho]
      rfl
    rw [OffsetText.text, String.toList_ofList, OffsetText.chars, List.head?_cons, OffsetText.sign] at hsign
    revert hsign
    split <;> decide
  · have htrimmed : Text.trimmed " +99999999999999999999d\n" = "+99999999999999999999d" := by decide +kernel
    rw [← htrimmed]
    exact offsets_saturate.2.2 " +99999999999999999999d\n" (by decide +kernel) (by decide +kernel)
      (by decide +kernel)

end BugReport
