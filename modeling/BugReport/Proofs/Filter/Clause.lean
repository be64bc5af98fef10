import BugReport.Proofs.Filter.Meaning
import BugReport.Proofs.Filter.Numbering
import BugReport.Proofs.Sql.Formula
import BugReport.Query.Compile

/-! # The clause of a restriction

The conditions of a restriction are written behind those of the restrictions before it, each behind AND. Whatever a
filter value is, its clause can be read, and with texts compared by their characters it is true of exactly the rows that
the restriction keeps.
-/

namespace BugReport

open Sql (Tuple Column Condition Collation Formula)

theorem MatchExpr.termsOf_ne_nil (cs : List Char) : termsOf cs ≠ [] :=
  fun h => List.splitOn_ne_nil ',' cs (List.map_eq_nil_iff.mp h)

namespace Restriction

/-- The formula that the clause of a restriction is the text of. -/
def formula? (column : Column) (r : Restriction) : Option Formula :=
  Sql.formula? (.text "1=1" :: Condition.listPieces column r.conditions)

/-- Whether the clause of a restriction is true of a row, with its texts bound between other ones. -/
def IsTrue (collation : Collation) (row : Tuple) (earlier later : List String) (column : Column)
    (r : Restriction) : Prop :=
  ∃ f ∈ r.formula? column, f.Holds collation row (earlier ++ r.values ++ later)

/-- Whether each condition says something: no group is empty. -/
def Readable (column : Column) (r : Restriction) : Prop :=
  ∀ condition ∈ r.conditions, (condition.formula? column).isSome

variable {collation : Collation} {row : Tuple} {earlier later : List String} {column : Column} {r : Restriction}
  {bound : Nat} {negated : Bool} {terms : List Term}

theorem isSome_formula? (h : r.Readable column) : (r.formula? column).isSome := by
  rw [formula?, Condition.formula?_listPieces h]
  rfl

theorem isTrue_byCharacters_iff (h : r.Readable column) :
    r.IsTrue .byCharacters row earlier later column ↔ r.Keeps row earlier later column := by
  obtain ⟨f, hf, hholds⟩ := Condition.allHold_iff_text h
  rw [Keeps, hholds]
  simp [IsTrue, formula?, hf]

/-! ## Match expressions -/

theorem exists_formula?_any (column : Column) (bound : Nat) (negated : Bool) (hne : terms ≠ []) :
    ∃ g, (Condition.any (comparisons bound negated terms)).formula? column = some g := by
  obtain ⟨t, ts, rfl⟩ := List.exists_cons_of_ne_nil hne
  exact ⟨_, rfl⟩

theorem exists_formula?_all (column : Column) (bound : Nat) (negated : Bool) (hne : terms ≠ []) :
    ∃ g, (Condition.all (comparisons bound negated terms)).formula? column = some g := by
  obtain ⟨t, ts, rfl⟩ := List.exists_cons_of_ne_nil hne
  exact ⟨_, rfl⟩

theorem readable_anyOf (hne : terms ≠ []) : (ofMatchExpr bound (.anyOf terms)).Readable column :=
  List.forall_mem_singleton.mpr (Option.isSome_iff_exists.mpr (exists_formula?_any column bound false hne))

theorem readable_noneOf (hne : terms ≠ []) : (ofMatchExpr bound (.noneOf terms)).Readable column :=
  List.forall_mem_singleton.mpr (Option.isSome_iff_exists.mpr (exists_formula?_all column bound true hne))

theorem readable_ofSpecial (special : Special) : (ofSpecial special).Readable column := by
  cases special <;> simp [Readable, ofSpecial, Condition.formula?]

theorem readable_ofMatch (value : String) : (ofMatch bound value).Readable column := by
  unfold ofMatch MatchExpr.parse MatchExpr.ofTrimmed
  split
  · exact readable_ofSpecial _
  · split
    · exact List.forall_mem_singleton.mpr rfl
    · split
      · exact readable_noneOf (MatchExpr.termsOf_ne_nil _)
      · exact readable_anyOf (MatchExpr.termsOf_ne_nil _)

/-! ## Numbers and dates -/

theorem readable_refused (diagnostics : List Diagnostic) : (refused diagnostics).Readable column :=
  fun _ hcondition => absurd hcondition List.not_mem_nil

theorem readable_ofNumber (name value : String) : (ofNumber name value).Readable column := by
  unfold ofNumber
  split
  · exact List.forall_mem_singleton.mpr rfl
  · exact readable_refused _

theorem readable_ofBounds (bounds : List (Sql.Operator × Option String)) :
    (ofBounds bound bounds).Readable column := by
  intro condition hcondition
  obtain ⟨_, -, rfl⟩ := List.mem_map.mp hcondition
  rfl

theorem readable_ofDate (now : Int) (name value : String) : (ofDate bound now name value).Readable column := by
  obtain ⟨diagnostics, heq⟩ | ⟨special, heq⟩ | ⟨bounds, heq⟩ := ofDate_cases bound now name value
  · rw [heq]
    exact readable_refused diagnostics
  · rw [heq]
    exact readable_ofSpecial special
  · rw [heq]
    exact readable_ofBounds bounds

end Restriction

/-! ## Filters by a field -/

namespace Draft

variable {now : Int} {name value : String} {kind : Parameter.Kind} {r : Restriction}

theorem readable_of_restriction? {bound : Nat} {column : Column}
    (h : restriction? bound now name value kind = some r) : r.Readable column := by
  cases kind with
  | field | fieldId | fieldDepends =>
      cases h
      exact Restriction.readable_ofMatch value
  | fieldNumber =>
      cases h
      exact Restriction.readable_ofNumber _ value
  | fieldDate =>
      cases h
      exact Restriction.readable_ofDate now _ value
  | _ => cases h

/-- Whatever a filter by a field is given, its clause is true of exactly the rows that it keeps. -/
theorem isTrue_iff_keeps (row : Tuple) {earlier : List String} (later : List String) (column : Column)
    (h : restriction? earlier.length now name value kind = some r) :
    r.IsTrue .byCharacters row earlier later column ↔ r.Keeps row earlier later column :=
  Restriction.isTrue_byCharacters_iff (readable_of_restriction? h)

end Draft

end BugReport
