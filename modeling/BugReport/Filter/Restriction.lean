import BugReport.Calendar.Timestamp
import BugReport.Expression.Date
import BugReport.Filter.Literal
import BugReport.Sql.Statement

/-!
# Restrictions

What one filter value says about a column: the conditions that rows have to meet, the texts to bind to
the slots of these conditions, and what was wrong with the value. Slots are numbered from the count of
values that are bound already.
-/

namespace BugReport

open Sql (Operator Comparison Condition)

/-- The outcome of compiling a filter value. The slots of the conditions are those after the ones
that were taken before, one for each of `values`, in this order. -/
structure Restriction where
  conditions : List Condition := []
  values : List String := []
  diagnostics : List Diagnostic := []

namespace Restriction

/-- The restriction that lets every row through. -/
def none : Restriction := {}

/-- The restriction that was refused: it lets every row through. -/
def refused (diagnostics : List Diagnostic) : Restriction := { diagnostics }

/-! ## Match expressions -/

/-- The condition of a special value. -/
def ofSpecial : Special → Restriction
  | .notNull => { conditions := [.isNotNull] }
  | .null => { conditions := [.isNull] }
  | .any => {}

/-- The operator that compares with a term. A list of which none may hold negates its terms, and a
sign of negation inside cancels that out. Under negation the two directions change places. -/
def operatorOf (negated : Bool) (t : Term) : Operator :=
  let negated := negated != (t.op == .negate)
  if t.wildcard then if negated then .notLike else .like
  else match t.op, negated with
    | .less, false => .lt
    | .less, true => .gt
    | .greater, false => .gt
    | .greater, true => .lt
    | _, true => .ne
    | _, false => .eq

/-- The comparisons with terms, which take one slot each. -/
def comparisons (bound : Nat) (negated : Bool) (terms : List Term) : List Comparison :=
  (terms.zipIdx (bound + 1)).map fun (t, slot) => ⟨operatorOf negated t, slot⟩

/-- The restriction whose conditions compare with terms. -/
def ofTerms (terms : List Term) (conditions : List Condition) : Restriction where
  conditions := conditions
  values := terms.map fun t => (Filter.decode t.literal).1
  diagnostics := terms.flatMap fun t => (Filter.decode t.literal).2

def ofMatchExpr (bound : Nat) : MatchExpr → Restriction
  | .special s => ofSpecial s
  | .single t => ofTerms [t] ((comparisons bound false [t]).map .single)
  | .anyOf ts => ofTerms ts [.any (comparisons bound false ts)]
  | .noneOf ts => ofTerms ts [.all (comparisons bound true ts)]

/-- The restriction of a value in the grammar of match expressions. -/
def ofMatch (bound : Nat) (value : String) : Restriction :=
  ofMatchExpr bound (.parse value)

/-! ## Numbers -/

/-- The restriction of a value for a number. Only `+` is understood: greater than zero. -/
def ofNumber (column value : String) : Restriction :=
  if Text.trimmed value == "+" then { conditions := [.isPositive] }
  else refused [.unknownNumberMatch column value]

/-! ## Dates -/

/-- The date at an offset from an instant, if it can be represented. -/
def dateAt? (now seconds : Int) : Option String :=
  let t := Calendar.Timestamp.ofInstant (now + seconds)
  if Calendar.inRange t.day then some t.date.text else Option.none

/-- The text to compare with for a bound, if it is not open. -/
def boundText? (now : Int) (column : String) : DateBound → Except Diagnostic (Option String)
  | .unbounded => .ok Option.none
  | .absolute text => .ok (some text)
  | .relative seconds =>
    match dateAt? now seconds with
    | some text => .ok (some text)
    | Option.none => .error (.offsetOutOfRange column seconds)

/-- The diagnostic of a bound that has no date. -/
def problemsOf {α : Type} : Except Diagnostic α → List Diagnostic
  | .ok _ => []
  | .error d => [d]

/-- The comparisons with the bounds that are not open, each with an operator. -/
def ofBounds (bound : Nat) (bounds : List (Operator × Option String)) : Restriction :=
  let bounds := bounds.filterMap fun (operator, text) => text.map fun t => (operator, t)
  { conditions := (bounds.zipIdx (bound + 1)).map fun ((operator, _), slot) => .single ⟨operator, slot⟩
    values := bounds.map Prod.snd }

/-- The restriction of a date expression. It is all or nothing: a bound without a date leaves nothing
of the other bound. -/
def ofDateExpr (bound : Nat) (now : Int) (column : String) : DateExpr → Restriction
  | .range low high =>
    match boundText? now column low, boundText? now column high with
    | .ok low, .ok high => ofBounds bound [(.ge, low), (.le, high)]
    | low, high => refused (problemsOf low ++ problemsOf high)
  | .onOrBefore b =>
    match boundText? now column b with
    | .ok text => ofBounds bound [(.le, text)]
    | .error d => refused [d]
  | .onOrAfter b =>
    match boundText? now column b with
    | .ok text => ofBounds bound [(.ge, text)]
    | .error d => refused [d]
  | .special s => ofSpecial s
  | .unrecognized text => refused [.unknownDateMatch column text]

/-- The restriction of a value in the grammar of date expressions. -/
def ofDate (bound : Nat) (now : Int) (column value : String) : Restriction :=
  ofDateExpr bound now column (.parse value)

end Restriction

end BugReport
