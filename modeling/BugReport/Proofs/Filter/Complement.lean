import BugReport.Proofs.Filter.Clause

/-! # Lists and their negation

The clause of a negated list is true of exactly the texts of which the clause of the list is not: every term is
compared in the opposite way, and AND stands in the place of OR. The opposite of before a text is behind it, so of the
text itself neither is true.
-/

namespace BugReport

open Sql (Tuple Column Condition Collation Formula)

/-- What a term says about the text in a column. -/
def Term.Fits (collation : Collation) (negated : Bool) (x : String) (t : Term) : Prop :=
  collation.Relates (Restriction.operatorOf negated t) x t.text

/-- Whether a term asks for the texts before or behind its own. -/
def Term.IsRange (t : Term) : Prop :=
  t.wildcard = false ∧ (t.op = .less ∨ t.op = .greater)

instance (t : Term) : Decidable t.IsRange :=
  inferInstanceAs (Decidable (_ ∧ _))

/-- Under negation a term says the opposite, except about the text that it asks for the sides of. -/
theorem Term.fits_negated_iff (collation : Collation) {x : String} {t : Term} (h : t.IsRange → x ≠ t.text) :
    t.Fits collation true x ↔ ¬ t.Fits collation false x := by
  obtain ⟨op, literal, wildcard⟩ := t
  cases wildcard with
  | true =>
      cases op with
      | equals | less | greater => exact Iff.rfl
      | negate => exact not_not.symm
  | false =>
      cases op with
      | equals => exact Iff.rfl
      | negate => exact not_not.symm
      | less => exact collation.lt_iff_not_lt (h ⟨rfl, .inl rfl⟩)
      | greater => exact collation.lt_iff_not_lt (h ⟨rfl, .inr rfl⟩).symm

namespace Restriction

variable {collation : Collation} {row : Tuple} {earlier later : List String} {column : Column} {x : String}
  {terms : List Term} {t : Term}

/-- The clause of one condition says what the condition says. -/
theorem isTrue_iff_of_condition {r : Restriction} {condition : Condition} {g : Formula}
    (h : r.conditions = [condition]) (hg : condition.formula? column = some g) :
    r.IsTrue collation row earlier later column ↔ g.Holds collation row (earlier ++ r.values ++ later) := by
  have hreadable : ∀ c ∈ [condition], (Condition.formula? column c).isSome := by simp [hg]
  rw [IsTrue, formula?, h, Condition.formula?_listPieces hreadable]
  simp [hg, Formula.Holds]

/-- The comparison with a term finds the text of the term. -/
theorem holds_at_slot (collation : Collation) (negated : Bool) (earlier later : List String)
    (hcell : row.cell column = some x) {slot : Nat} (h : (t, slot) ∈ terms.zipIdx (earlier.length + 1)) :
    (Formula.comparison column ⟨operatorOf negated t, slot⟩).Holds collation row
        (earlier ++ terms.map Term.text ++ later) ↔ t.Fits collation negated x :=
  Formula.holds_comparison_iff hcell (textOfSlot?_between h)

theorem isTrue_single (hcell : row.cell column = some x) :
    (ofMatchExpr earlier.length (.single t)).IsTrue collation row earlier later column ↔
      t.Fits collation false x := by
  have hmem : (t, earlier.length + 1) ∈ [t].zipIdx (earlier.length + 1) := by simp
  rw [isTrue_iff_of_condition rfl rfl]
  exact holds_at_slot collation false earlier later hcell hmem

theorem isTrue_anyOf (hne : terms ≠ []) (hcell : row.cell column = some x) :
    (ofMatchExpr earlier.length (.anyOf terms)).IsTrue collation row earlier later column ↔
      ∃ t ∈ terms, t.Fits collation false x := by
  obtain ⟨g, hg⟩ := exists_formula?_any column earlier.length false hne
  rw [isTrue_iff_of_condition rfl hg, Condition.formula?_any_holds_iff hg]
  exact exists_mem_comparisons_iff fun _ _ hmem => holds_at_slot collation false earlier later hcell hmem

theorem isTrue_noneOf (hne : terms ≠ []) (hcell : row.cell column = some x) :
    (ofMatchExpr earlier.length (.noneOf terms)).IsTrue collation row earlier later column ↔
      ∀ t ∈ terms, t.Fits collation true x := by
  obtain ⟨g, hg⟩ := exists_formula?_all column earlier.length true hne
  rw [isTrue_iff_of_condition rfl hg, Condition.formula?_all_holds_iff hg]
  exact forall_mem_comparisons_iff fun _ _ hmem => holds_at_slot collation true earlier later hcell hmem

/-- A negated list is true of exactly the texts that fit no term, those that a term asks for the sides of left out. -/
theorem isTrue_noneOf_iff_not (hne : terms ≠ []) (hcell : row.cell column = some x)
    (hsides : ∀ t ∈ terms, t.IsRange → x ≠ t.text) :
    (ofMatchExpr earlier.length (.noneOf terms)).IsTrue collation row earlier later column ↔
      ¬ (ofMatchExpr earlier.length (.anyOf terms)).IsTrue collation row earlier later column := by
  rw [isTrue_noneOf hne hcell, isTrue_anyOf hne hcell]
  simp only [not_exists, not_and]
  exact forall₂_congr fun t ht => Term.fits_negated_iff collation (hsides t ht)

/-- Of a list and its negation exactly one is true of a text in a column, unless a term asks for the sides of that very
text. A list is true where one of its terms is, as a clause of its own. -/
theorem noneOf_complements_anyOf (collation : Collation) (row : Tuple) (earlier later : List String) (column : Column)
    (x : String) (terms : List Term) (hcell : row.cell column = some x) (hne : terms ≠ []) :
    ((ofMatchExpr earlier.length (.anyOf terms)).formula? column).isSome ∧
      ((ofMatchExpr earlier.length (.noneOf terms)).formula? column).isSome ∧
      ((∀ t ∈ terms, t.IsRange → x ≠ t.text) →
        Xor ((ofMatchExpr earlier.length (.anyOf terms)).IsTrue collation row earlier later column)
          ((ofMatchExpr earlier.length (.noneOf terms)).IsTrue collation row earlier later column)) ∧
      ((ofMatchExpr earlier.length (.anyOf terms)).IsTrue collation row earlier later column ↔
        ∃ t ∈ terms, (ofMatchExpr earlier.length (.single t)).IsTrue collation row earlier later column) := by
  refine ⟨isSome_formula? (readable_anyOf hne), isSome_formula? (readable_noneOf hne), ?_, ?_⟩
  · intro hsides
    rw [isTrue_noneOf_iff_not hne hcell hsides, xor_not_right]
  · rw [isTrue_anyOf hne hcell]
    exact exists_congr fun t => and_congr_right fun _ => (isTrue_single hcell).symm

/-- Four terms of different kinds, with texts bound before and behind theirs. -/
theorem noneOf_complements_anyOf_mixed :
    ∃ (row : Tuple) (terms : List Term), row.cell (.bare "votes") = some "7" ∧ terms.length = 4 ∧
      (∀ t ∈ terms, t.IsRange → "7" ≠ t.text) ∧
      Xor ((ofMatchExpr 1 (.anyOf terms)).IsTrue .byCharacters row ["NEW"] ["ann"] (.bare "votes"))
        ((ofMatchExpr 1 (.noneOf terms)).IsTrue .byCharacters row ["NEW"] ["ann"] (.bare "votes")) := by
  let row : Tuple := ⟨fun _ => some "7", fun _ => false⟩
  let terms : List Term := [⟨.equals, "P1", false⟩, ⟨.negate, "%crash%", true⟩, ⟨.less, "5", false⟩,
    ⟨.greater, "9", false⟩]
  have hsides : ∀ t ∈ terms, t.IsRange → "7" ≠ t.text := by decide +kernel
  obtain ⟨-, -, hxor, -⟩ :=
    noneOf_complements_anyOf .byCharacters row ["NEW"] ["ann"] (.bare "votes") "7" terms rfl (by decide)
  exact ⟨row, terms, rfl, rfl, hsides, hxor hsides⟩

end Restriction

end BugReport
