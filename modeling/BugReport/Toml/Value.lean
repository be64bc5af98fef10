import BugReport.Entries
import BugReport.Number.Binary64

/-!
# TOML values

The values of a TOML document, and the rules by which its tables come about. A table is written in one
of four ways, and how it was written says how it may be extended: a table under a header only by
another header, one that dotted keys made only by dotted keys, one that a longer header implied by
either, and an inline table not at all.
-/

namespace BugReport

/-- How a table was written. -/
inductive TableOrigin where
  /-- Under a header of its own, or as an entry of an array of tables. -/
  | header
  /-- Implied by the header of a table inside of it. -/
  | implied
  /-- Made by the dots of a key. -/
  | dotted
  /-- In braces. -/
  | braces
  deriving DecidableEq, Repr

/-- A TOML value. -/
inductive Toml where
  | text (s : String)
  | integer (i : Int)
  | real (x : Binary64)
  | boolean (b : Bool)
  /-- A date, a time, or both. What it says is not kept. -/
  | moment
  | array (items : List Toml)
  | table (origin : TableOrigin) (entries : List (String × Toml))
  /-- An array of tables, each under a header of its own. -/
  | tables (all : List (List (String × Toml)))
  deriving Repr, Inhabited

namespace Toml

/-- A table while it is put together. -/
structure Draft where
  origin : TableOrigin
  entries : List (String × Toml)

/-- The ways in which a path leads through tables. -/
inductive Walk where
  /-- The path of a header. -/
  | headers
  /-- The dots of a key in the table of a header. -/
  | dots
  /-- The dots of a key in an inline table. -/
  | inside
  deriving DecidableEq, Repr

/-- The origin of the tables that a walk makes where there are none. -/
def Walk.origin : Walk → TableOrigin
  | .headers => .implied
  | _ => .dotted

/-- Whether a walk may go through a table. Dots lead through tables that are not written out
themselves, so that inside of an inline table they lead only through tables that dots made. -/
def Walk.admits : Walk → TableOrigin → Bool
  | .headers, origin => origin != .braces
  | .dots, origin => origin == .implied || origin == .dotted
  | .inside, origin => origin == .dotted

/-- Changes the table at the end of a path. Tables that are missing on the way are made; an array of
tables stands for its last one. -/
def Draft.changeAt (walk : Walk) (change : Draft → Option Draft) : List String → Draft → Option Draft
  | [], t => change t
  | key :: path, t =>
    match t.entries.lookup key with
    | none => do
      let inner ← changeAt walk change path ⟨walk.origin, []⟩
      some { t with entries := putEntry t.entries key (.table inner.origin inner.entries) }
    | some (.table origin entries) =>
      if walk.admits origin then do
        let inner ← changeAt walk change path ⟨origin, entries⟩
        some { t with entries := putEntry t.entries key (.table inner.origin inner.entries) }
      else none
    | some (.tables all) =>
      match walk, all.getLast? with
      | .inside, _ => none
      | _, none => none
      | _, some last => do
        let inner ← changeAt walk change path ⟨.header, last⟩
        some { t with entries := putEntry t.entries key (.tables (all.dropLast ++ [inner.entries])) }
    | some _ => none

/-- Adds an entry under a key that is not there yet. The table of a key with dots has to be one that
dots made. -/
def Draft.insertNew (path : List String) (key : String) (value : Toml) (t : Draft) : Option Draft :=
  if (t.origin == .dotted) == path.isEmpty then none
  else if (t.entries.lookup key).isSome then none
  else some { t with entries := t.entries ++ [(key, value)] }

/-- Adds an entry under a key with dots, whose last part is given apart from the others. -/
def Draft.insert (walk : Walk) (path : List String) (key : String) (value : Toml) (t : Draft) :
    Option Draft :=
  t.changeAt walk (insertNew path key value) path

/-- Opens the table of a header for entries. It must be new, or only implied before. -/
def Draft.openTable (key : String) (t : Draft) : Option Draft :=
  match t.entries.lookup key with
  | none => some { t with entries := t.entries ++ [(key, .table .header [])] }
  | some (.table .implied entries) =>
    some { t with entries := putEntry t.entries key (.table .header entries) }
  | some _ => none

/-- Adds a table to an array of tables. -/
def Draft.appendTable (key : String) (t : Draft) : Option Draft :=
  match t.entries.lookup key with
  | none => some { t with entries := t.entries ++ [(key, .tables [[]])] }
  | some (.tables all) =>
    some { t with entries := putEntry t.entries key (.tables (all ++ [[]])) }
  | some _ => none

end Toml

end BugReport
