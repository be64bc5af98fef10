/-!
# Blank characters

The characters with the Unicode White_Space property, and the operations that look at nothing else:
trimming a text at either end and cutting it into words. Everything is defined on `List Char`, with
thin versions on `String` beside it.
-/

namespace BugReport.Text

/-- Whether a character has the Unicode White_Space property. There are twenty-five of them. -/
def isBlank (c : Char) : Bool :=
  let n := c.toNat
  (0x09 ≤ n && n ≤ 0x0d) || n == 0x20 || n == 0x85 || n == 0xa0 || n == 0x1680 ||
    (0x2000 ≤ n && n ≤ 0x200a) || n == 0x2028 || n == 0x2029 || n == 0x202f || n == 0x205f ||
    n == 0x3000

/-- Drops the blanks at the start. -/
def trimLeft (cs : List Char) : List Char :=
  cs.dropWhile isBlank

/-- Drops the blanks at the end. -/
def trimRight (cs : List Char) : List Char :=
  (cs.reverse.dropWhile isBlank).reverse

/-- Drops the blanks at both ends. -/
def trim (cs : List Char) : List Char :=
  trimRight (trimLeft cs)

/-- The longest runs of characters that are not blank, in order. -/
def words (cs : List Char) : List (List Char) :=
  (cs.splitOnP isBlank).filter (! ·.isEmpty)

/-- The text without the blanks at its ends. -/
def trimmed (s : String) : String :=
  String.ofList (trim s.toList)

/-- The text without the blanks at its end. -/
def trimmedRight (s : String) : String :=
  String.ofList (trimRight s.toList)

/-- The first word of a text, if it has one. -/
def firstWord? (s : String) : Option String :=
  (words s.toList).head?.map String.ofList

def wordsOf (s : String) : List String :=
  (words s.toList).map String.ofList

end BugReport.Text
