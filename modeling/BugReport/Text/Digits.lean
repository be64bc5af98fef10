/-!
# Rows of digits

The value of a row of ASCII digits, and reading a text that is nothing else.
-/

namespace BugReport.Text

/-- The value of a row of digits, most significant first. -/
def digitsValue (ds : List Char) : Nat :=
  ds.foldl (fun n c => 10 * n + (c.toNat - '0'.toNat)) 0

/-- The value of a text of one or more digits. -/
def natural? (s : String) : Option Nat :=
  let cs := s.toList
  if cs.isEmpty || ! cs.all Char.isDigit then none else some (digitsValue cs)

end BugReport.Text
