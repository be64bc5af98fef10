import BugReport.Number.Decimal

/-!
# Cells and rows

The values that the database answers with, and their text.
-/

namespace BugReport

/-- A value of a row. -/
inductive Cell where
  | null
  | bool (b : Bool)
  | integer (i : Int)
  | real (x : Binary64)
  | text (s : String)
  deriving DecidableEq, Repr, Inhabited

/-- The text of a value. A missing value, and a number that is not finite, is empty. -/
def Cell.toText : Cell → String
  | .null => ""
  | .bool b => if b then "true" else "false"
  | .integer i => toString i
  | .real x => x.jsonText?.getD ""
  | .text s => s

/-- The integer of 64 bits that a value is, if it is one. -/
def Cell.int64? : Cell → Option Int
  | .integer i => if -9223372036854775808 ≤ i ∧ i ≤ 9223372036854775807 then some i else none
  | _ => none

/-- The text that a value is, if it is one. -/
def Cell.text? : Cell → Option String
  | .text s => some s
  | _ => none

/-- The values of a row by their labels. -/
abbrev Row := List (String × Cell)

/-- The text of the value under a label; a row without that label has the empty one. -/
def Row.textAt (row : Row) (label : String) : String :=
  ((row.lookup label).map Cell.toText).getD ""

end BugReport
