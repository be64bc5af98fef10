import BugReport.Expression.Match
import BugReport.Text.Digits

/-!
# Date expressions

The values of date filters: a range of two bounds, an offset from the present, or a test for null.
An offset is a sign, a count and a unit; it is given in seconds and never leaves the range of signed
64-bit integers.
-/

namespace BugReport

open Text (trim digitsValue)

/-- One end of a date comparison. -/
inductive DateBound where
  /-- `*`: no bound at all. -/
  | unbounded
  /-- An offset from the present. -/
  | relative (seconds : Int)
  /-- A text to compare with as it is. -/
  | absolute (text : String)
  deriving DecidableEq, Repr

/-- The value of a date filter. -/
inductive DateExpr where
  | range (low high : DateBound)
  | onOrBefore (bound : DateBound)
  | onOrAfter (bound : DateBound)
  | special (special : Special)
  /-- Anything else, which restricts nothing. -/
  | unrecognized (text : String)
  deriving DecidableEq, Repr

namespace DateBound

/-- The seconds of a unit: days, weeks and months of thirty days. Other units are worth nothing. -/
def unitSeconds (unit : List Char) : Nat :=
  match unit with
  | ['d'] => 86400
  | ['w'] => 604800
  | ['m'] => 2592000
  | _ => 0

/-- The greatest signed 64-bit integer, at which offsets stay. -/
def maxSeconds : Nat := 9223372036854775807

/-- The signed 64-bit integer that a row of digits stands for, unless it is beyond the greatest one. -/
def count? (digits : List Char) : Option Int64 :=
  if digitsValue digits ≤ maxSeconds then some (.ofNat (digitsValue digits)) else none

/-- The product of two integers. Where it is out of range it is the end of the range. -/
def saturatingMul (a b : Int64) : Int64 :=
  .ofIntClamp (a.toInt * b.toInt)

/-- The seconds of a count and a unit. A count that is out of range is the greatest one before it is
multiplied. -/
def offsetSeconds (cs : List Char) : Int64 :=
  saturatingMul ((count? (cs.takeWhile Char.isDigit)).getD Int64.maxValue)
    (.ofNat (unitSeconds (cs.dropWhile Char.isDigit)))

/-- Reads a bound: a star, an offset, which starts with a sign, or any other text as it is. -/
def ofList (cs : List Char) : DateBound :=
  match cs with
  | ['*'] => .unbounded
  | '+' :: rest => .relative (offsetSeconds rest).toInt
  | '-' :: rest => .relative (-offsetSeconds rest).toInt
  | cs => .absolute (String.ofList cs)

/-- Reads a bound from a text, which is not trimmed. -/
def parse (s : String) : DateBound :=
  ofList s.toList

end DateBound

namespace DateExpr

/-- Reads a trimmed expression: a colon makes a range of what stands before it and of what stands
between it and the next one. -/
def ofTrimmed (cs : List Char) : DateExpr :=
  match cs.splitOn ':' with
  | low :: high :: _ => .range (.ofList low) (.ofList high)
  | _ =>
    match cs with
    | '+' :: _ :: _ => .onOrBefore (.ofList cs)
    | '-' :: _ :: _ => .onOrAfter (.ofList cs)
    | _ =>
      match Special.ofList? cs with
      | some s => .special s
      | none => .unrecognized (String.ofList cs)

/-- Reads an expression. Blanks at its ends do not count. -/
def parse (s : String) : DateExpr :=
  ofTrimmed (trim s.toList)

end DateExpr

end BugReport
