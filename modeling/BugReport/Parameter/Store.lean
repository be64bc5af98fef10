import BugReport.Parameter.Schema
import BugReport.Text.Split

/-!
# The parameter store

The values of one request in three tiers: what was set explicitly, what was inferred on the way, and
the defaults of the schema. The sort list, the group and the two directions are settled when they are
first asked for and keep that value however the tiers change afterwards.
-/

namespace BugReport

/-- The direction of an order. -/
inductive Direction where
  | asc
  | desc
  deriving DecidableEq, Repr, Inhabited

def Direction.keyword : Direction → String
  | .asc => "ASC"
  | .desc => "DESC"

/-- The direction that a parameter value asks for: descending only by the exact word `desc`. -/
def Direction.ofValue (value : Option String) : Direction :=
  if value == some "desc" then .desc else .asc

namespace Parameter

/-- Whether a value counts as set: it is neither empty nor `0`. -/
def counts (value : String) : Bool :=
  value != "" && value != "0"

/-- Trims the entries of a comma list. -/
def tidyCommas (value : String) : String :=
  String.intercalate "," ((Text.parts ',' value).map Text.trimmed)

/-- The text that is stored for an accepted value. -/
def storedForm (name value : String) : String :=
  match kind? name with
  | some kind => if kind.tidiesCommas then tidyCommas value else value
  | none => value

/-- Some parameters with a value each. -/
abbrev Assignment := String → Option String

/-- The assignment with one value replaced. -/
def Assignment.set (a : Assignment) (name value : String) : Assignment :=
  fun other => if other == name then some value else a other

end Parameter

open Parameter

/-- The store of one request. The last four fields hold what has been settled so far. -/
structure Store where
  explicit : Assignment := fun _ => none
  implicit : Assignment := fun _ => none
  settledSort : Option String := none
  settledOrder : Option Direction := none
  settledGroup : Option (Option String) := none
  settledGroupOrder : Option Direction := none

namespace Store

/-- The store in which nothing is set. -/
def empty : Store := {}

/-! ## Writing -/

/-- Sets a parameter explicitly, if its policy admits the value. -/
def set (s : Store) (name raw : String) : Except Diagnostic Store :=
  match validate name raw with
  | .ok value => .ok { s with explicit := s.explicit.set name (storedForm name value) }
  | .error d => .error d

/-- Records an inferred value, which gives way to an explicit one. Names outside of the schema are
passed over. -/
def infer (s : Store) (name value : String) : Store :=
  if (kind? name).isSome then { s with implicit := s.implicit.set name value } else s

/-- Sets a parameter and keeps the store as it was when the value is refused. -/
def trySet (s : Store) (name raw : String) : Store × List Diagnostic :=
  match s.set name raw with
  | .ok s => (s, [])
  | .error d => (s, [d])

/-- Applies one `name=value` line. A line without an equals sign is passed over; the name is trimmed
and ends at the first equals sign. -/
def applyLine (s : Store) (line : String) : Store × List Diagnostic :=
  match Text.cut '=' line with
  | none => (s, [])
  | some (name, value) => s.trySet (Text.trimmed name) value

/-- Applies lines in order and collects what was refused. -/
def applyLines (s : Store) : List String → Store × List Diagnostic
  | [] => (s, [])
  | line :: lines =>
    let (s, refused) := s.applyLine line
    let (s, more) := s.applyLines lines
    (s, refused ++ more)

/-! ## Reading -/

/-- The value of a parameter: the explicit one, else the inferred one, else the default. -/
def get? (s : Store) (name : String) : Option String :=
  s.explicit name <|> s.implicit name <|> default? name

/-- The value of a parameter if it counts as set. -/
def present? (s : Store) (name : String) : Option String :=
  (s.get? name).filter counts

/-- Whether a parameter is switched on, by the values `1` and `y` only. -/
def isOn (s : Store) (name : String) : Bool :=
  s.get? name == some "1" || s.get? name == some "y"

/-- The explicit or else the inferred value that counts as set. -/
def given? (s : Store) (name : String) : Option String :=
  (s.explicit name).filter counts <|> (s.implicit name).filter counts

/-- The given value, else the default. -/
def givenOrDefault? (s : Store) (name : String) : Option String :=
  s.given? name <|> default? name

/-- The names that are set explicitly, in the order of the schema. -/
def explicitNames (s : Store) : List String :=
  (schema.map Prod.fst).filter fun name => (s.explicit name).isSome

/-- The names that are set explicitly, in alphabetical order. -/
def sortedExplicitNames (s : Store) : List String :=
  s.explicitNames.mergeSort fun a b => decide (a ≤ b)

/-- The debug level that was asked for. -/
def debugLevel? (s : Store) : Option Nat :=
  match s.explicit "debug" with
  | some "1" => some 1
  | some "2" => some 2
  | _ => none

/-! ## Settled values -/

/-- The group, if the report is grouped. -/
def group? (s : Store) : Option String :=
  s.settledGroup.getD (s.given? "group")

def groupOrder (s : Store) : Direction :=
  s.settledGroupOrder.getD (.ofValue (s.givenOrDefault? "grouporder"))

/-- The direction of the last sort column. -/
def order (s : Store) : Direction :=
  s.settledOrder.getD (.ofValue (s.givenOrDefault? "order"))

/-- The sort list: the group with its direction, if there is one, and then the sort parameter. -/
def sort (s : Store) : String :=
  s.settledSort.getD <|
    let base := (s.givenOrDefault? "sort").getD ""
    match s.group? with
    | some group => group ++ " " ++ s.groupOrder.keyword ++ "," ++ base
    | none => base

/-- Settles the group at its present value. -/
def settleGroup (s : Store) : Store :=
  { s with settledGroup := some s.group? }

/-- Settles the direction of the group at its present value. -/
def settleGroupOrder (s : Store) : Store :=
  { s with settledGroupOrder := some s.groupOrder }

/-- Settles the direction of the last sort column at its present value. -/
def settleOrder (s : Store) : Store :=
  { s with settledOrder := some s.order }

/-- Settles the sort list at its present value. The first time this settles the group, and, if there
is one, its direction. -/
def settleSort (s : Store) : Store :=
  match s.settledSort with
  | some _ => s
  | none =>
    let sort := s.sort
    let s := s.settleGroup
    let s := if s.group?.isSome then s.settleGroupOrder else s
    { s with settledSort := some sort }

end Store

end BugReport
