import BugReport.Column.Catalog
import BugReport.Parameter.Store

/-!
# Custom fields

Bug databases have columns of their own beside the built-in ones. Which names stand for them is up to
the request: a start that their names share, a list, or every name that has no heading.
-/

namespace BugReport

open Parameter (Assignment)

/-- Which columns are custom fields. -/
structure CustomFields where
  /-- Whether every column without a heading is one. -/
  unheaded : Bool
  /-- The start of their names; the empty one belongs to none. -/
  start : String
  /-- Names given one by one. -/
  listed : List String
  deriving DecidableEq, Repr

namespace CustomFields

/-- What the parameters of a request say. -/
def ofStore (s : Store) : CustomFields where
  unheaded := s.get? "implicitcustom" == some "true"
  start := (s.get? "customprefix").getD ""
  listed := match s.present? "customfields" with
    | some names => Text.parts ',' names
    | none => []

def holds (f : CustomFields) (column : String) : Bool :=
  if f.unheaded then (Catalog.heading? column).isNone
  else (f.start != "" && Text.startsWith f.start column) || f.listed.contains column

end CustomFields

end BugReport
