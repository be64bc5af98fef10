import BugReport.Text.Blank

/-!
# Character policies

A parameter admits only values whose characters belong to its class. A value with a character outside
of the class is refused as a whole; nothing is ever escaped. Each policy is quoted in messages by its
pattern.
-/

namespace BugReport

open Text (isBlank)

/-- A letter or digit of ASCII, or the underscore. -/
def isWordChar (c : Char) : Bool :=
  c.isAlphanum || c == '_'

/-- Whether a character lies between two others, ends included. -/
def inSpan (low high c : Char) : Bool :=
  low.toNat ≤ c.toNat && c.toNat ≤ high.toNat

namespace Parameter

/-- The policies. -/
inductive Policy where
  /-- Filter values: words, blanks and the signs of filter expressions. -/
  | filter
  /-- One column name. -/
  | column
  /-- Lists of columns with titles, of formats or of edits. -/
  | columns
  /-- Dates, ranges of dates and offsets. -/
  | date
  /-- Anything on one line. -/
  | free
  /-- Lists of columns with directions. -/
  | sort
  /-- One word. -/
  | word
  /-- The digit 1 or the digit 2. -/
  | level
  deriving DecidableEq, Repr

namespace Policy

/-- Whether the class of a policy holds a character. In the classes for filters, columns and dates a
hyphen between two signs is a span of the character set, which admits all that lies between. -/
def admitsChar : Policy → Char → Bool
  | filter, c =>
    isWordChar c || isBlank c || inSpan '+' '>' c ||
      ['@', '*', '%', '!', '(', ')'].contains c
  | column, c => isWordChar c || c == '+' || c == '-'
  | columns, c => isWordChar c || c == ',' || inSpan '+' '~' c
  | date, c => isWordChar c || c == '*' || inSpan '+' ':' c
  | free, c => c != '\n'
  | sort, c => isWordChar c || isBlank c || c == ',' || c == '-'
  | word, c => isWordChar c
  | level, c => c == '1' || c == '2'

def admits (p : Policy) (cs : List Char) : Bool :=
  cs.all p.admitsChar && (p != level || cs.length == 1)

/-- The pattern by which messages quote a policy. -/
def pattern : Policy → String
  | filter => "^[A-Za-z0-9_,@.\\s*/%!()+->]*$"
  | column => "^[A-Za-z0-9_+-]*$"
  | columns => "^[A-Za-z0-9_,+-~]*$"
  | date => "^[*A-Za-z0-9_+-:]*$"
  | free => "^.*$"
  | sort => "^[A-Za-z0-9_\\s,-]*$"
  | word => "^[A-Za-z0-9_]*$"
  | level => "^[12]$"

end Policy

end Parameter

end BugReport
