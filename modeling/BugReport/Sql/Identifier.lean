/-!
# Identifiers

Names that can be written into a statement as they are: a letter of ASCII or an underscore, and then
letters, digits and underscores.
-/

namespace BugReport.Sql

def isIdentifier (cs : List Char) : Bool :=
  match cs with
  | [] => false
  | c :: cs => (c.isAlpha || c == '_') && cs.all fun d => d.isAlphanum || d == '_'

/-- A name that was checked. -/
structure Identifier where
  text : String
  valid : isIdentifier text.toList = true
  deriving DecidableEq

/-- The identifier with a name, if the name is one. -/
def Identifier.ofName? (name : String) : Option Identifier :=
  if h : isIdentifier name.toList = true then some ⟨name, h⟩ else none

theorem Identifier.text_of_ofName? {name : String} {i : Identifier}
    (h : Identifier.ofName? name = some i) : i.text = name := by
  unfold ofName? at h
  split at h
  · simp only [Option.some.injEq] at h
    rw [← h]
  · simp at h

end BugReport.Sql
