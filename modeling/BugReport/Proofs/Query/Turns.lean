import BugReport.Query.Compile

/-! # The turn of a pair

A pair of the `filters` parameter names a field and a value. In its turn it filters by a custom field, which is
fetched with it, or by the field of a parameter, or it is wrong, which is all that is told then. What every pair
keeps is shown for these three cases.
-/

namespace BugReport

open Parameter (Kind kind?)
open Sql (Identifier)

/-- A filter of a request: a field, a value, and the kind by which the value is read. -/
structure FieldFilter where
  name : String
  value : String
  kind : Kind
  deriving DecidableEq, Repr

namespace Draft

/-- The value of a pair, which ends at a further equals sign. -/
def pairValue (rest : String) : String :=
  ((Text.cutSeq "%3D" rest).map Prod.fst).getD rest

/-- The filter that a pair is, if it names a custom field or the field of a parameter. -/
def pairFilter? (custom : CustomFields) (pair : String) : Option FieldFilter :=
  match Text.cutSeq "%3D" pair with
  | none => none
  | some (name, rest) =>
    if custom.holds name then
      if (Identifier.ofName? name).isSome then some ⟨name, pairValue rest, .field⟩ else none
    else
      match kind? name with
      | some kind => if kind.isField then some ⟨name, pairValue rest, kind⟩ else none
      | none => none

theorem applyPair_cases {motive : Draft → Option FieldFilter → Prop} (d : Draft) (now : Int) (pair : String)
    (hwrong : ∀ told, motive (d.warn [told]) none)
    (hcustom : ∀ name rest, Text.cutSeq "%3D" pair = some (name, rest) → d.custom.holds name = true →
      (Identifier.ofName? name).isSome = true →
      motive ((d.addCustomField name).addFilter now name (pairValue rest) .field)
        (some ⟨name, pairValue rest, .field⟩))
    (hparameter : ∀ name rest kind, Text.cutSeq "%3D" pair = some (name, rest) → kind? name = some kind →
      motive (d.addFilter now name (pairValue rest) kind) (some ⟨name, pairValue rest, kind⟩)) :
    motive (d.applyPair now pair) (pairFilter? d.custom pair) := by
  unfold applyPair pairFilter?
  cases hcut : Text.cutSeq "%3D" pair with
  | none => exact hwrong _
  | some parts =>
      obtain ⟨name, rest⟩ := parts
      dsimp only
      by_cases hholds : d.custom.holds name = true
      · rw [if_pos hholds, if_pos hholds]
        by_cases hname : (Identifier.ofName? name).isSome = true
        · rw [if_pos hname, if_pos hname]
          exact hcustom name rest hcut hholds hname
        · have hrefused : d.addCustomField name = d.warn [.invalidCustomField name] := by
            rw [addCustomField, Option.not_isSome_iff_eq_none.mp hname]
          rw [if_neg hname, if_neg hname, hrefused]
          exact hwrong _
      · rw [if_neg hholds, if_neg hholds]
        cases hkind : kind? name with
        | none => exact hwrong _
        | some kind =>
            by_cases hfield : kind.isField = true
            · simp only [hfield, if_true]
              exact hparameter name rest kind hcut hkind
            · simp only [hfield]
              exact hwrong _

end Draft

end BugReport
