/-!
# Report fields

The fields that a report can fetch from the bug database, in the order in which a statement selects
them, and sets of fields.
-/

namespace BugReport

/-- A field with a place of its own in the statement. -/
inductive Field where
  | id | nickname | assigned | attachments | blocks | cc | closed | component | created | deadline
  | depends | flag | quickflag | estimated | reporter | hardware | keywords | milestone | lastcomment
  | modified | os | priority | product | qa | remaining | reopened | resolution | resolved | severity
  | status | summary | assignee | url | verified | version | votes | whiteboard | work
  deriving DecidableEq, Repr, Inhabited

namespace Field

/-- Every field, in the order of selection. -/
def all : List Field :=
  [id, nickname, assigned, attachments, blocks, cc, closed, component, created, deadline,
    depends, flag, quickflag, estimated, reporter, hardware, keywords, milestone, lastcomment,
    modified, os, priority, product, qa, remaining, reopened, resolution, resolved, severity,
    status, summary, assignee, url, verified, version, votes, whiteboard, work]

/-- The name of a field in parameters and columns. -/
def name : Field → String
  | id => "id"
  | nickname => "alias"
  | assigned => "assigned"
  | attachments => "attachments"
  | blocks => "blocks"
  | cc => "cc"
  | closed => "closed"
  | component => "component"
  | created => "created"
  | deadline => "deadline"
  | depends => "depends"
  | flag => "flag"
  | quickflag => "quickflag"
  | estimated => "estimated"
  | reporter => "from"
  | hardware => "hardware"
  | keywords => "keywords"
  | milestone => "milestone"
  | lastcomment => "lastcomment"
  | modified => "modified"
  | os => "os"
  | priority => "priority"
  | product => "product"
  | qa => "qa"
  | remaining => "remaining"
  | reopened => "reopened"
  | resolution => "resolution"
  | resolved => "resolved"
  | severity => "severity"
  | status => "status"
  | summary => "summary"
  | assignee => "to"
  | url => "url"
  | verified => "verified"
  | version => "version"
  | votes => "votes"
  | whiteboard => "status_whiteboard"
  | work => "work"

def ofName? (name : String) : Option Field :=
  all.find? (·.name == name)

theorem mem_all (f : Field) : f ∈ all := by
  cases f <;> decide

theorem ofName?_name (f : Field) : ofName? f.name = some f := by
  cases f <;> decide

theorem name_of_ofName? {name : String} {f : Field} (h : ofName? name = some f) :
    f.name = name := by
  simpa using List.find?_some h

end Field

/-- The states whose beginning the activity log tells: the fields that hold it select the latest
change of the status to this value. -/
def Field.transitionStatus? : Field → Option String
  | .assigned => some "ASSIGNED"
  | .closed => some "CLOSED"
  | .reopened => some "REOPENED"
  | .resolved => some "RESOLVED"
  | .verified => some "VERIFIED"
  | _ => none

/-- A set of fields. -/
structure FieldSet where
  contains : Field → Bool

namespace FieldSet

def empty : FieldSet := ⟨fun _ => false⟩

instance : EmptyCollection FieldSet := ⟨empty⟩
instance : Inhabited FieldSet := ⟨empty⟩

/-- The set with one more field. -/
def insert (s : FieldSet) (f : Field) : FieldSet :=
  ⟨fun g => g == f || s.contains g⟩

/-- Adds the field with a name. A name that belongs to no field adds none. -/
def insertName (s : FieldSet) (name : String) : FieldSet :=
  match Field.ofName? name with
  | some f => s.insert f
  | none => s

/-- The fields of a set, in the order of selection. -/
def toList (s : FieldSet) : List Field :=
  Field.all.filter s.contains

/-- Whether a set holds no field. -/
def isEmpty (s : FieldSet) : Bool :=
  s.toList.isEmpty

@[simp] theorem contains_empty (f : Field) : (∅ : FieldSet).contains f = false := rfl

@[simp] theorem contains_insert (s : FieldSet) (f g : Field) :
    (s.insert f).contains g = (g == f || s.contains g) := rfl

theorem contains_insert_of_contains {s : FieldSet} {f g : Field} (h : s.contains g = true) :
    (s.insert f).contains g = true := by
  simp [h]

theorem contains_insertName_of_contains {s : FieldSet} {name : String} {g : Field}
    (h : s.contains g = true) : (s.insertName name).contains g = true := by
  unfold insertName
  split
  · exact contains_insert_of_contains h
  · exact h

theorem mem_toList {s : FieldSet} {f : Field} : f ∈ s.toList ↔ s.contains f = true := by
  simp [toList, Field.mem_all]

end FieldSet

end BugReport
