import BugReport.Proofs.Filter.Clean
import BugReport.Proofs.Parameter.Store
import BugReport.Report.Request

/-! # Clean parameters

A value is checked before it is stored, and the classes of the parameters that filter rows leave the
quoting signs out. Trimming brings in nothing but commas, and the defaults are clean, so the filters of a
store are clean whatever lines it was made from.
-/

namespace BugReport

namespace Parameter

/-- Whether the values of a kind filter rows, by themselves or in pairs. -/
def Kind.filtersRows (kind : Kind) : Bool :=
  kind.isField || kind == .filters

variable {name raw value : String} {kind : Kind}

theorem Kind.admitsChar_sign (h : kind.filtersRows = true) :
    quotingSigns.any kind.policy.admitsChar = false := by
  cases kind <;> revert h <;> decide

theorem ne_debug_of_kind? (hkind : kind? name = some kind) (h : kind ≠ .value) : name ≠ "debug" := by
  rintro rfl
  exact h (Option.some.inj hkind).symm

theorem policy?_of_ne_debug (hkind : kind? name = some kind) (hname : name ≠ "debug") :
    policy? name = some kind.policy := by
  simp [policy?, hname, hkind]

theorem policy?_of_kind? (hkind : kind? name = some kind) (h : kind.filtersRows = true) :
    policy? name = some kind.policy := by
  have hne : kind ≠ .value := by
    rintro rfl
    cases h
  exact policy?_of_ne_debug hkind (ne_debug_of_kind? hkind hne)

theorem clean_of_validate (hkind : kind? name = some kind) (h : kind.filtersRows = true)
    (hvalid : validate name raw = .ok value) : Clean value := by
  simp only [validate, policy?_of_kind? hkind h] at hvalid
  split at hvalid
  next hadmits =>
      cases hvalid
      rw [Policy.admits, Bool.and_eq_true] at hadmits
      exact .of_class (Kind.admitsChar_sign h) (List.all_eq_true.mp hadmits.1)
  · cases hvalid

theorem clean_tidyCommas (h : Clean value) : Clean (tidyCommas value) := by
  have hcomma : Clean "," := by decide
  intro c hc
  rw [tidyCommas, String.toList_intercalate] at hc
  rcases Text.mem_intercalate hc with hsep | ⟨part, hpart, hmem⟩
  · exact hcomma c hsep
  · obtain ⟨entry, hentry, rfl⟩ := List.mem_map.mp hpart
    obtain ⟨whole, hwhole, rfl⟩ := List.mem_map.mp hentry
    rw [Text.trimmed, String.toList_ofList] at hmem
    exact h c (Text.subset_of_mem_parts hwhole (Text.trim_subset _ hmem))

theorem clean_storedForm (h : Clean value) (name : String) : Clean (storedForm name value) := by
  unfold storedForm
  split
  · split
    · exact clean_tidyCommas h
    · exact h
  · exact h

theorem clean_defaults : ∀ entry ∈ defaults, Clean entry.2 := by
  decide

theorem clean_of_default? (h : default? name = some value) : Clean value := by
  obtain ⟨before, after, heq, -⟩ := List.lookup_eq_some_iff.mp h
  exact clean_defaults (name, value) (heq ▸ List.mem_append_right _ List.mem_cons_self)

/-- Compiling a request does not write to filters. -/
theorem filtersRows_writtenNames :
    ∀ name ∈ Store.writtenNames, ∀ kind ∈ kind? name, kind.filtersRows = false := by
  decide

end Parameter

open Parameter (kind?)

namespace Store

variable {s s' : Store}

/-- Whether the parameters that filter rows are clean. -/
def CleanFilters (s : Store) : Prop :=
  ∀ name kind, kind? name = some kind → kind.filtersRows = true →
    ∀ value, s.get? name = some value → Clean value

namespace CleanFilters

theorem present? (h : s.CleanFilters) {name value : String} {kind : Parameter.Kind}
    (hkind : kind? name = some kind) (hfilters : kind.filtersRows = true)
    (hvalue : s.present? name = some value) : Clean value :=
  h name kind hkind hfilters value (Option.eq_some_of_filter_eq_some hvalue)

theorem of_kept (h : s.CleanFilters) (hkept : s.Kept s') : s'.CleanFilters := by
  intro name kind hkind hfilters value hvalue
  have hname : name ∉ writtenNames := by
    intro hmem
    rw [Parameter.filtersRows_writtenNames name hmem kind hkind] at hfilters
    cases hfilters
  rw [hkept.get? hname] at hvalue
  exact h name kind hkind hfilters value hvalue

theorem empty : Store.empty.CleanFilters :=
  fun _ _ _ _ _ hvalue => Parameter.clean_of_default? hvalue

theorem set {name raw : String} (h : s.CleanFilters) (hset : s.set name raw = .ok s') :
    s'.CleanFilters := by
  unfold Store.set at hset
  split at hset
  next accepted hvalid =>
      cases hset
      intro other kind hkind hfilters value hvalue
      by_cases hother : other = name
      · subst hother
        have hstored : Parameter.storedForm other accepted = value := by
          simpa [Store.get?, Parameter.Assignment.set] using hvalue
        rw [← hstored]
        exact Parameter.clean_storedForm (Parameter.clean_of_validate hkind hfilters hvalid) other
      · refine h other kind hkind hfilters value ?_
        simpa [Store.get?, Parameter.Assignment.set, hother] using hvalue
  · cases hset

theorem applyDefaults (h : s.CleanFilters) (caller : Store) (entries : List String) :
    (Request.applyDefaults caller s entries).1.CleanFilters := by
  induction entries generalizing s with
  | nil => exact h
  | cons entry entries ih =>
      have hentry : (Request.applyDefault caller s entry).1.CleanFilters := by
        unfold Request.applyDefault
        split
        · exact h
        · dsimp only
          split
          · exact h
          · exact trySet_induction set h _ _
      exact ih hentry

/-- Neither arguments nor configured parameters bring in a quoting sign. -/
theorem ofArgs (file : ConfigFile) (args : List String) :
    (Request.ofArgs file args).store.CleanFilters :=
  (applyLines_induction set empty args).applyDefaults _ _

end CleanFilters

end Store

end BugReport
