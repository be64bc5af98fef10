import BugReport.Text.Split
import BugReport.Text.Uppercase

/-!
# Tags of persons

A person's name shortened to three letters: from the first name alone if there is no other, else from
the first two.
-/

namespace BugReport

/-- The letters of a tag, before they become capitals. -/
def tagLetters : List (List Char) → List Char
  | [] => []
  | [only] => only.take 3
  | first :: second :: _ =>
    if 1 < second.length then first.take 1 ++ second.take 2
    else if 1 < first.length then first.take 2 ++ second.take 1
    else first ++ second ++ ['A']

/-- The tag of a person's name. -/
def personTag (name : String) : String :=
  Text.uppercase (String.ofList (tagLetters (name.toList.splitOn ' ')))

end BugReport
