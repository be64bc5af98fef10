import BugReport.Parameter.Policy

/-!
# Kinds of parameters

The kind of a parameter says which values it admits and how a value restricts the report.
-/

namespace BugReport.Parameter

/-- The kinds. Those whose name starts with `field` are filters on a field of the report. -/
inductive Kind where
  | field | fieldId | fieldDate | fieldNumber | fieldDepends | fieldKeywords | fieldText | fieldJoin
  | fieldSpecial | filters | columns | sort | column | boolean | value | free
  deriving DecidableEq, Repr, Inhabited

namespace Kind

def name : Kind → String
  | field => "field"
  | fieldId => "field-id"
  | fieldDate => "field-date"
  | fieldNumber => "field-number"
  | fieldDepends => "field-depends"
  | fieldKeywords => "field-keywords"
  | fieldText => "field-text"
  | fieldJoin => "field-join"
  | fieldSpecial => "field-special"
  | filters => "filters"
  | columns => "columns"
  | sort => "sort"
  | column => "column"
  | boolean => "boolean"
  | value => "value"
  | free => "free"

/-- Whether values of a kind filter the rows of the report. -/
def isField : Kind → Bool
  | field | fieldId | fieldDate | fieldNumber | fieldDepends | fieldKeywords | fieldText | fieldJoin
  | fieldSpecial => true
  | _ => false

/-- Whether values of a kind are lists whose entries lose the blanks around them. -/
def tidiesCommas : Kind → Bool
  | field | columns => true
  | _ => false

/-- The policy that values of a kind have to meet. -/
def policy : Kind → Policy
  | fieldDate => .date
  | field | fieldId | fieldNumber | fieldDepends | fieldKeywords | fieldText | fieldJoin
  | fieldSpecial | filters => .filter
  | column => .column
  | columns => .columns
  | sort => .sort
  | free => .free
  | boolean | value => .word

end Kind

end BugReport.Parameter
