import BugReport.Number.Decimal

/-!
# SQL values and slots

The values that a statement is given for its slots, and the display form of a statement, in which
every slot is replaced by the literal of its value. Slots are written as a question mark and a
number, counted from one; inside quoted literals a question mark is only a character.
-/

namespace BugReport.Sql

open Text (digitsValue)

/-- A value for a slot. -/
inductive Value where
  | text (s : String)
  | integer (i : Int)
  | real (x : Binary64)
  | null
  deriving DecidableEq, Repr

/-- A text as a quoted literal: quotes inside are written twice. -/
def quote (cs : List Char) : List Char :=
  '\'' :: cs.flatMap (fun c => if c == '\'' then ['\'', '\''] else [c]) ++ ['\'']

def Value.literal : Value → List Char
  | text s => quote s.toList
  | integer i => (toString i).toList
  | real x => x.plainText.toList
  | null => "NULL".toList

/-- The value for a slot, given the digits of its number. -/
def slotValue? (values : List Value) (ds : List Char) : Option Value :=
  if ds.isEmpty then none
  else match digitsValue ds with
    | 0 => none
    | n + 1 => values[n]?

/-- Replaces the slots outside of quoted literals by their values, and leaves slots without a value
as they are. The first argument says whether the text starts inside of a literal. -/
def fillSlotsFrom (values : List Value) : Bool → List Char → List Char
  | _, [] => []
  | quoted, c :: cs =>
    if c == '\'' then c :: fillSlotsFrom values (! quoted) cs
    else if c == '?' && ! quoted then
      match slotValue? values (cs.takeWhile Char.isDigit) with
      | some v => v.literal ++ fillSlotsFrom values quoted (cs.dropWhile Char.isDigit)
      | none => c :: fillSlotsFrom values quoted cs
    else c :: fillSlotsFrom values quoted cs
termination_by _ cs => cs.length
decreasing_by
  · simp
  · have := (List.dropWhile_sublist Char.isDigit (l := cs)).length_le
    simp
    omega
  · simp
  · simp

/-- The display form of a statement. -/
def fillSlots (sql : String) (values : List Value) : String :=
  String.ofList (fillSlotsFrom values false sql.toList)

end BugReport.Sql
