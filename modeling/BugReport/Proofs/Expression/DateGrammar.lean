import BugReport.Expression.Date
import BugReport.Proofs.Calendar.DateText
import BugReport.Proofs.Expression.Offsets
import BugReport.Proofs.Expression.Words
import BugReport.Proofs.Text.Trim

/-! # How date expressions are read

A range is read back from the texts of its two days. An offset is a sign, a row of digits and a unit, and is read as a
span of that many days.
-/

namespace BugReport

open Calendar (Date)
open Text (digitsValue isBlank)

namespace Calendar.Date.FitsPattern

variable {d : Date}

theorem isBlank_of_mem_text (h : d.FitsPattern) {c : Char} (hc : c ∈ d.text.toList) : isBlank c = false := by
  rcases h.of_mem_text hc with hdigit | rfl
  · exact isBlank_of_isDigit hdigit
  · decide

theorem colon_not_mem_text (h : d.FitsPattern) : ':' ∉ d.text.toList := by
  intro hc
  rcases h.of_mem_text hc with hdigit | heq
  · cases hdigit
  · cases heq

end Calendar.Date.FitsPattern

/-! ## Ranges -/

theorem DateBound.ofList_of_digit {c : Char} {cs : List Char} (h : c.isDigit = true) :
    ofList (c :: cs) = .absolute (String.ofList (c :: cs)) := by
  unfold ofList
  split
  next heq => cases heq; cases h
  next heq => cases heq; cases h
  next heq => cases heq; cases h
  next => rfl

/-- The text of a day is compared with as it is. -/
theorem DateBound.ofList_text {d : Date} (h : d.FitsPattern) : ofList d.text.toList = .absolute d.text := by
  obtain ⟨c, cs, htext, hdigit⟩ := h.exists_digit
  rw [htext, ofList_of_digit hdigit, ← htext, String.ofList_toList]

/-- Two days with a colon between them are a range. -/
theorem DateExpr.parse_range {a b : Date} (ha : a.FitsPattern) (hb : b.FitsPattern) :
    parse (a.text ++ ":" ++ b.text) = .range (.absolute a.text) (.absolute b.text) := by
  have htext : (a.text ++ ":" ++ b.text).toList = a.text.toList ++ ':' :: b.text.toList := by simp
  have hblank : ∀ c ∈ a.text.toList ++ ':' :: b.text.toList, isBlank c = false :=
    List.forall_mem_append.mpr ⟨fun _ hc => ha.isBlank_of_mem_text hc,
      List.forall_mem_cons.mpr ⟨by decide, fun _ hc => hb.isBlank_of_mem_text hc⟩⟩
  have hsplit : (a.text.toList ++ ':' :: b.text.toList).splitOn ':' = [a.text.toList, b.text.toList] := by
    rw [List.splitOn_append_cons_self, List.splitOn_eq_singleton ha.colon_not_mem_text,
      List.splitOn_eq_singleton hb.colon_not_mem_text]
    rfl
  rw [parse, htext, Text.trim_of_no_blank hblank]
  unfold ofTrimmed
  rw [hsplit]
  exact congrArg₂ range (DateBound.ofList_text ha) (DateBound.ofList_text hb)

/-! ## Offsets -/

/-- The units of offsets. -/
inductive DateUnit where
  | day
  | week
  | month
  deriving DecidableEq, Repr

namespace DateUnit

def letter : DateUnit → Char
  | day => 'd'
  | week => 'w'
  | month => 'm'

/-- The days of a unit. A month has thirty of them. -/
def days : DateUnit → Nat
  | day => 1
  | week => 7
  | month => 30

theorem unitSeconds_letter (u : DateUnit) : DateBound.unitSeconds [u.letter] = u.days * 86400 := by
  cases u <;> rfl

end DateUnit

/-- An offset as it is written. The digits may start with zeros. -/
structure DateOffset where
  ahead : Bool
  digits : List Char
  unit : DateUnit
  all_isDigit : digits.all Char.isDigit = true

namespace DateOffset

def sign (o : DateOffset) : Char :=
  if o.ahead then '+' else '-'

def text (o : DateOffset) : String :=
  String.ofList (o.sign :: (o.digits ++ [o.unit.letter]))

def days (o : DateOffset) : Nat :=
  digitsValue o.digits * o.unit.days

/-- The day on which an offset from an instant ends. -/
def dayFrom (now : Int) (o : DateOffset) : Int :=
  if o.ahead then now / 86400 + o.days else now / 86400 - o.days

theorem isDigit_of_mem (o : DateOffset) {c : Char} (hc : c ∈ o.digits) : c.isDigit = true :=
  List.all_eq_true.mp o.all_isDigit c hc

/-- The sign, the digits and the unit of an offset. -/
def written (o : DateOffset) : OffsetText where
  ahead := o.ahead
  digits := o.digits
  unit := [o.unit.letter]
  all_isDigit := o.all_isDigit
  unit_head := by cases o.unit <;> rintro _ ⟨⟩ <;> decide

theorem ahead_written (o : DateOffset) : o.written.ahead = o.ahead := rfl

theorem chars_written (o : DateOffset) : o.written.chars = o.sign :: (o.digits ++ [o.unit.letter]) := rfl

theorem worth_written (o : DateOffset) : o.written.worth = o.unit.days * 86400 := by
  rw [← OffsetText.unitSeconds_unit]
  exact o.unit.unitSeconds_letter

/-- The seconds of an offset are those of its days, up to the greatest integer. -/
theorem seconds_written (o : DateOffset) : o.written.seconds =
    if o.ahead then ((min (o.days * 86400) DateBound.maxSeconds : Nat) : Int)
    else -((min (o.days * 86400) DateBound.maxSeconds : Nat) : Int) := by
  have hexact : (Nat.ofDigitChars 10 o.digits 0 : Int) * o.written.worth = (o.days * 86400 : Nat) := by
    rw [worth_written, ← Int.natCast_mul, days, Nat.mul_assoc]
    rfl
  have hbounded : min ((o.days * 86400 : Nat) : Int) Int64.maxValue.toInt =
      (min (o.days * 86400) DateBound.maxSeconds : Nat) := by
    rw [← DateBound.maxSeconds_eq]
    omega
  rw [← hbounded, ← hexact]
  rfl

theorem parse_text (o : DateOffset) : DateExpr.parse o.text =
    if o.ahead then .onOrBefore (.relative (min (o.days * 86400) DateBound.maxSeconds : Nat))
    else .onOrAfter (.relative (-(min (o.days * 86400) DateBound.maxSeconds : Nat))) := by
  have hblank : ∀ c ∈ o.written.chars, isBlank c = false := by
    refine List.forall_mem_cons.mpr
      ⟨?_, List.forall_mem_append.mpr ⟨fun c hc => ?_, List.forall_mem_singleton.mpr ?_⟩⟩
    · rw [OffsetText.sign]
      split <;> decide
    · exact isBlank_of_isDigit (o.isDigit_of_mem hc)
    · cases o.unit <;> decide
  have hcolon : ':' ∉ o.written.chars := by
    rw [chars_written, sign]
    simp only [List.mem_cons, List.mem_append, List.not_mem_nil, or_false, not_or]
    refine ⟨?_, fun hc => ?_, ?_⟩
    · split <;> decide
    · cases o.isDigit_of_mem hc
    · cases o.unit <;> decide
  have hlength : 1 < o.written.chars.length := by
    rw [chars_written, List.length_cons, List.length_append, List.length_singleton]
    omega
  rw [DateExpr.parse, text, String.toList_ofList, ← chars_written, Text.trim_of_no_blank hblank,
    OffsetText.ofTrimmed_chars hcolon hlength, seconds_written, ahead_written]
  cases o.ahead
  · rfl
  · rfl

end DateOffset

end BugReport
