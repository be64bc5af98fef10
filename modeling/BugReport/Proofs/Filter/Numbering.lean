import BugReport.Filter.Restriction
import BugReport.Proofs.Sql.Slots

/-! # The slots of restrictions

A restriction takes the slots behind those that were taken before, one for each of its values and in
their order. No value is bound without a comparison and no comparison is without a value, also when a
value was refused.
-/

namespace BugReport.Restriction

open Sql (Operator Comparison Condition)

/-- Whether the conditions hold the slots behind `bound`, one for each value. -/
def Numbered (bound : Nat) (r : Restriction) : Prop :=
  r.conditions.flatMap Condition.slots = List.range' (bound + 1) r.values.length

theorem numbered_none (bound : Nat) : none.Numbered bound := rfl

theorem numbered_refused (bound : Nat) (diagnostics : List Diagnostic) :
    (refused diagnostics).Numbered bound := rfl

theorem numbered_ofSpecial (bound : Nat) (special : Special) : (ofSpecial special).Numbered bound := by
  cases special <;> rfl

theorem slots_comparisons (bound : Nat) (negated : Bool) (terms : List Term) :
    (comparisons bound negated terms).map Comparison.slot = List.range' (bound + 1) terms.length := by
  rw [comparisons, List.map_map, ← List.zipIdx_map_snd]
  rfl

theorem numbered_ofMatch (bound : Nat) (value : String) : (ofMatch bound value).Numbered bound := by
  unfold ofMatch
  cases MatchExpr.parse value with
  | special special => exact numbered_ofSpecial bound special
  | single term => rfl
  | anyOf terms | noneOf terms =>
      simp only [Numbered, ofMatchExpr, ofTerms, List.flatMap_singleton, Condition.slots,
        slots_comparisons, List.length_map]

theorem numbered_ofNumber (bound : Nat) (column value : String) :
    (ofNumber column value).Numbered bound := by
  unfold ofNumber
  split
  · rfl
  · exact numbered_refused bound _

/-- Only bounds that are not open take slots. -/
theorem numbered_ofBounds (bound : Nat) (bounds : List (Operator × Option String)) :
    (ofBounds bound bounds).Numbered bound := by
  simp only [Numbered, ofBounds, List.length_map, List.flatMap_map, Condition.slots]
  rw [← List.zipIdx_map_snd, List.map_eq_flatMap]

/-- A value for a date is refused, is a test of its own, or gives bounds. -/
theorem ofDate_cases (bound : Nat) (now : Int) (column value : String) :
    (∃ diagnostics, ofDate bound now column value = refused diagnostics) ∨
      (∃ special, ofDate bound now column value = ofSpecial special) ∨
      ∃ bounds, ofDate bound now column value = ofBounds bound bounds := by
  unfold ofDate
  cases DateExpr.parse value with
  | range low high =>
      simp only [ofDateExpr]
      split
      · exact .inr (.inr ⟨_, rfl⟩)
      · exact .inl ⟨_, rfl⟩
  | onOrBefore end_ | onOrAfter end_ =>
      simp only [ofDateExpr]
      split
      · exact .inr (.inr ⟨_, rfl⟩)
      · exact .inl ⟨_, rfl⟩
  | special special => exact .inr (.inl ⟨special, rfl⟩)
  | unrecognized text => exact .inl ⟨_, rfl⟩

theorem numbered_ofDate (bound : Nat) (now : Int) (column value : String) :
    (ofDate bound now column value).Numbered bound := by
  obtain ⟨diagnostics, heq⟩ | ⟨special, heq⟩ | ⟨bounds, heq⟩ := ofDate_cases bound now column value
  · rw [heq]
    exact numbered_refused bound diagnostics
  · rw [heq]
    exact numbered_ofSpecial bound special
  · rw [heq]
    exact numbered_ofBounds bound bounds

end BugReport.Restriction
