import BugReport.Column.Custom
import BugReport.Proofs.Expression.Tidied
import BugReport.Proofs.Parameter.Clean
import BugReport.Proofs.Text.Sequences
import BugReport.Proofs.Text.Trim

/-! # Setting a parameter

Setting a parameter leaves the others as they are. A pair of the `filters` parameter is admitted as soon as its
value is, and is stored as it was written, without the blanks at its end.
-/

namespace BugReport

open Parameter (Assignment counts kind? storedForm validate)
open Text (isBlank trim trimLeft trimRight)

variable {s s' : Store} {name raw value : String} {kind : Parameter.Kind}

namespace Parameter

theorem eq_trimmed_of_validate (h : validate name raw = .ok value) : value = Text.trimmed raw := by
  unfold validate at h
  dsimp only at h
  split at h
  · cases h
  · split at h
    · cases h
      rfl
    · cases h

/-- Whether each character of a value belongs to the class of a kind, but for the blanks at its ends. -/
def Kind.Admits (kind : Kind) (raw : String) : Prop :=
  ∀ c ∈ trim raw.toList, kind.policy.admitsChar c = true

instance (kind : Kind) (raw : String) : Decidable (kind.Admits raw) :=
  List.decidableBAll (fun c => kind.policy.admitsChar c = true) (trim raw.toList)

theorem Kind.policy_ne_level (kind : Kind) : kind.policy ≠ .level := by
  cases kind <;> decide

/-- Except for the level of debugging, values are checked character by character. -/
theorem validate_of_ne_debug (hkind : kind? name = some kind) (hname : name ≠ "debug") (raw : String) :
    validate name raw = if kind.Admits raw then .ok (Text.trimmed raw)
      else .error (.invalidParameter name (Text.trimmed raw) kind.policy.pattern) := by
  have hadmits : kind.policy.admits (Text.trimmed raw).toList = true ↔ kind.Admits raw := by
    simp [Policy.admits, kind.policy_ne_level, Kind.Admits, Text.trimmed]
  simp only [validate, policy?_of_ne_debug hkind hname, hadmits]

theorem validate_eq_ok_iff (hkind : kind? name = some kind) (hname : name ≠ "debug") :
    validate name raw = .ok (Text.trimmed raw) ↔ kind.Admits raw := by
  rw [validate_of_ne_debug hkind hname]
  split
  next hadmits => exact iff_of_true rfl hadmits
  next hadmits => exact iff_of_false nofun hadmits

theorem counts_of_mem {c : Char} (hc : c ≠ '0') (h : c ∈ value.toList) : counts value = true := by
  rw [counts, Bool.and_eq_true, bne_iff_ne, bne_iff_ne]
  constructor
  · rintro rfl
    exact absurd h List.not_mem_nil
  · rintro rfl
    exact hc (List.mem_singleton.mp h)

theorem counts_storedForm (h : counts (Text.trimmed value) = true) (name : String) :
    counts (storedForm name (Text.trimmed value)) = true := by
  have htidied : counts (tidyCommas (Text.trimmed value)) = true := by
    by_cases hcomma : ',' ∈ (Text.trimmed value).toList
    · apply counts_of_mem (c := ',') (by decide)
      obtain ⟨first, rest, hsplit, hfirst⟩ := List.eq_append_cons_of_mem hcomma
      rw [toList_tidyCommas, hsplit, tidied_cons hfirst]
      exact List.mem_append_right _ List.mem_cons_self
    · have hsame : tidyCommas (Text.trimmed value) = Text.trimmed value := by
        rw [← String.toList_inj, toList_tidyCommas, tidied_single hcomma, Text.trimmed, String.toList_ofList,
          Text.trim_trim]
      exact (congrArg counts hsame).trans h
  unfold storedForm
  split
  · split
    · exact htidied
    · exact h
  · exact h

end Parameter

namespace Store

theorem eq_of_set (h : s.set name raw = .ok s') :
    s' = { s with explicit := s.explicit.set name (storedForm name (Text.trimmed raw)) } := by
  unfold set at h
  split at h
  next value hvalid =>
      cases h
      rw [Parameter.eq_trimmed_of_validate hvalid]
  · cases h

theorem set_of_validate (h : validate name raw = .ok value) : ∃ s', s.set name raw = .ok s' := by
  rw [set, h]
  exact ⟨_, rfl⟩

theorem present?_set_of_ne (h : s.set name raw = .ok s') {other : String} (hne : other ≠ name) :
    s'.present? other = s.present? other := by
  rw [eq_of_set h]
  simp [present?, get?, Assignment.set, hne]

theorem get?_set_of_ne (h : s.set name raw = .ok s') {other : String} (hne : other ≠ name) :
    s'.get? other = s.get? other := by
  rw [eq_of_set h]
  simp [get?, Assignment.set, hne]

theorem present?_set_self (h : s.set name raw = .ok s')
    (hcounts : counts (storedForm name (Text.trimmed raw)) = true) :
    s'.present? name = some (storedForm name (Text.trimmed raw)) := by
  rw [eq_of_set h]
  simp [present?, get?, Assignment.set, hcounts]

/-- The parameters that say which columns are custom fields. -/
def customNames : List String := ["implicitcustom", "customprefix", "customfields"]

theorem ofStore_set (h : s.set name raw = .ok s') (hname : name ∉ customNames) :
    CustomFields.ofStore s' = CustomFields.ofStore s := by
  have hne {other : String} (hother : other ∈ customNames) : other ≠ name :=
    fun heq => hname (heq ▸ hother)
  rw [CustomFields.ofStore, CustomFields.ofStore, get?_set_of_ne h (hne (by decide)),
    get?_set_of_ne h (hne (by decide)), present?_set_of_ne h (hne (by decide))]

end Store

/-! ## Pairs -/

/-- A pair of the `filters` parameter. -/
def pairOf (name value : String) : String :=
  name ++ "%3D" ++ value

theorem toList_pairOf (name value : String) :
    (pairOf name value).toList = name.toList ++ ['%', '3', 'D'] ++ value.toList := by
  rw [pairOf, String.toList_append, String.toList_append]
  rfl

theorem cutSeq_pairOf (h : '%' ∉ name.toList) (value : String) :
    Text.cutSeq "%3D" (pairOf name value) = some (name, value) := by
  have hcut := Text.cutSeqList_append h ['3', 'D'] value.toList
  have hsep : "%3D".toList = ['%', '3', 'D'] := rfl
  rw [Text.cutSeq, toList_pairOf, hsep, hcut]
  simp

theorem cutSeq_eq_none {sep : String} (h : ¬ sep.toList <:+: value.toList) :
    Text.cutSeq sep value = none := by
  rw [Text.cutSeq, Text.cutSeqList_eq_none h, Option.map_none]

theorem partsSeq_pairOf (h : '%' ∉ name.toList) (hvalue : ¬ "%26".toList <:+: value.toList) :
    Text.partsSeq "%26" (pairOf name value) = [pairOf name value] := by
  have hapart : ¬ "%26".toList <:+: (pairOf name value).toList := by
    intro hfound
    rw [toList_pairOf, List.append_assoc] at hfound
    have hrest : ['%', '2', '6'] <:+: '%' :: (['3', 'D'] ++ value.toList) :=
      Text.infix_of_infix_append h hfound
    rcases List.infix_cons_iff.mp hrest with hstart | hlater
    · have hnext := (List.cons_prefix_cons.mp hstart).2
      exact absurd (List.cons_prefix_cons.mp hnext).1 (by decide)
    · exact hvalue (Text.infix_of_infix_append (by decide) hlater)
  rw [Text.partsSeq, Text.partsSeqList_eq_singleton hapart, List.map_singleton, String.ofList_toList]

end BugReport
