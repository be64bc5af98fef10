import BugReport.Sql.Statement
import Mathlib.Data.List.Basic

/-! # What conditions say about a row

A comparison with nothing is neither true nor false, and a row is kept only if the conditions are true of it.
Conditions are tied together by AND and OR alone, never by NOT, so whether they are true depends on what is
true in their parts, and "unknown" needs no value of its own here.
-/

namespace BugReport.Sql

/-- A row as conditions see it: the text in a column, if there is one, and whether the number in a column is
above zero. -/
structure Tuple where
  cell : Column → Option String
  positive : Column → Bool

/-- Whether a text fits a pattern, in which `%` stands for any text and `_` for any character. The case of
letters of ASCII does not count. -/
def likes : List Char → List Char → Bool
  | [], cs => cs.isEmpty
  | p :: pattern, cs =>
    if p == '%' then cs.tails.any (likes pattern)
    else match cs with
      | [] => false
      | c :: cs => (p == '_' || p.toLower == c.toLower) && likes pattern cs

def Operator.compares (operator : Operator) (x text : String) : Bool :=
  match operator with
  | eq => x == text
  | ne => x != text
  | lt => x < text
  | gt => text < x
  | le => ! (text < x)
  | ge => ! (x < text)
  | like => likes text.toList x.toList
  | notLike => ! likes text.toList x.toList

/-- The text that is bound to a slot. Slots are counted from one. -/
def textOfSlot? (texts : List String) : Nat → Option String
  | 0 => none
  | n + 1 => texts[n]?

def Comparison.Holds (row : Tuple) (texts : List String) (column : Column) (c : Comparison) : Prop :=
  ∃ x ∈ row.cell column, ∃ text ∈ textOfSlot? texts c.slot, c.operator.compares x text = true

namespace Condition

variable (row : Tuple) (texts : List String) (column : Column)

def Holds : Condition → Prop
  | isNull => row.cell column = none
  | isNotNull => (row.cell column).isSome
  | isPositive => row.positive column = true
  | single c => c.Holds row texts column
  | any cs => ∃ c ∈ cs, c.Holds row texts column
  | all cs => ∀ c ∈ cs, c.Holds row texts column

/-- Whether a row is kept by conditions on a column. -/
def AllHold (conditions : List Condition) : Prop :=
  ∀ condition ∈ conditions, condition.Holds row texts column

end Condition

variable {row : Tuple} {texts : List String} {column : Column} {x : String}

theorem Comparison.holds_iff {c : Comparison} {text : String} (hcell : row.cell column = some x)
    (htext : textOfSlot? texts c.slot = some text) :
    c.Holds row texts column ↔ c.operator.compares x text = true := by
  simp [Holds, hcell, htext]

/-- Texts that are bound behind others are found at slots that are higher by their count. -/
theorem textOfSlot?_behind {texts : List String} {n : Nat} (hpos : 0 < n) (hle : n ≤ texts.length)
    (before after : List String) :
    textOfSlot? (before ++ texts ++ after) (before.length + n) = textOfSlot? texts n := by
  obtain ⟨i, rfl⟩ : ∃ i, n = i + 1 := ⟨n - 1, by omega⟩
  rw [← Nat.add_assoc, textOfSlot?, textOfSlot?, List.append_assoc,
    List.getElem?_append_right (by omega), Nat.add_sub_cancel_left, List.getElem?_append_left hle]

end BugReport.Sql
