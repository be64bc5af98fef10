import BugReport.Text.Blank
import BugReport.Text.Split

/-!
# Match expressions

The values of field filters: a test for null, one term, a comma list of terms of which one has to
hold, or a list in `!( )` of which none may hold. Every text is an expression.
-/

namespace BugReport

open Text (trim trimRight)

/-- Values that stand for a test of their own. -/
inductive Special where
  /-- `+`: a value is there. -/
  | notNull
  /-- `-`: no value is there. -/
  | null
  /-- `*`: anything goes. -/
  | any
  deriving DecidableEq, Repr

def Special.sign : Special → Char
  | .notNull => '+'
  | .null => '-'
  | .any => '*'

/-- The special value that a text is, if it is one. -/
def Special.ofList? (cs : List Char) : Option Special :=
  match cs with
  | ['+'] => some .notNull
  | ['-'] => some .null
  | ['*'] => some .any
  | _ => none

/-- The sign in front of a term. -/
inductive TermOp where
  | equals
  | negate
  | less
  | greater
  deriving DecidableEq, Repr

/-- One comparison of an expression. -/
structure Term where
  op : TermOp
  /-- The text to compare with, as it was written: still percent-encoded. -/
  literal : String
  /-- Whether the term holds a percent sign, which makes it a pattern. -/
  wildcard : Bool
  deriving DecidableEq, Repr

/-- The value of a field filter. -/
inductive MatchExpr where
  | special (special : Special)
  | single (term : Term)
  | anyOf (terms : List Term)
  | noneOf (terms : List Term)
  deriving DecidableEq, Repr

namespace Term

/-- The blanks that may stand before the sign of a term. -/
def isLeadingBlank (c : Char) : Bool :=
  c == ' ' || c == '\t' || c == '\r' || c == '\n'

/-- Cuts the sign off the text of a term. -/
def takeSign : List Char → TermOp × List Char
  | '!' :: cs => (.negate, cs)
  | '<' :: cs => (.less, cs)
  | '>' :: cs => (.greater, cs)
  | cs => (.equals, cs)

/-- Reads a term: blanks, a sign, and the literal up to the end, without the blanks there. -/
def ofList (cs : List Char) : Term :=
  let (op, literal) := takeSign (cs.dropWhile isLeadingBlank)
  ⟨op, String.ofList (trimRight literal), cs.contains '%'⟩

/-- The sign that writes an operation. -/
def signOf : TermOp → List Char
  | .equals => []
  | .negate => ['!']
  | .less => ['<']
  | .greater => ['>']

def toList (t : Term) : List Char :=
  signOf t.op ++ t.literal.toList

end Term

namespace MatchExpr

/-- The terms between commas. -/
def termsOf (cs : List Char) : List Term :=
  (cs.splitOn ',').map Term.ofList

/-- Drops a closing parenthesis at the end. -/
def dropClosing (cs : List Char) : List Char :=
  if cs.getLast? == some ')' then cs.dropLast else cs

def ofTrimmed (cs : List Char) : MatchExpr :=
  match Special.ofList? cs with
  | some s => .special s
  | none =>
    if ! cs.contains ',' then .single (.ofList cs)
    else match cs with
      | '!' :: '(' :: inner => .noneOf (termsOf (dropClosing inner))
      | _ => .anyOf (termsOf cs)

/-- Reads an expression. Blanks at its ends do not count. -/
def parse (s : String) : MatchExpr :=
  ofTrimmed (trim s.toList)

/-- The number of terms; a special value has none. -/
def termCount : MatchExpr → Nat
  | special _ => 0
  | single _ => 1
  | anyOf terms => terms.length
  | noneOf terms => terms.length

def toList : MatchExpr → List Char
  | special s => [s.sign]
  | single term => term.toList
  | anyOf terms => [','].intercalate (terms.map Term.toList)
  | noneOf terms => '!' :: '(' :: [','].intercalate (terms.map Term.toList) ++ [')']

end MatchExpr

end BugReport
