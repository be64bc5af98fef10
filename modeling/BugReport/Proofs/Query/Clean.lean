import BugReport.Proofs.Parameter.Clean
import BugReport.Proofs.Query.Growth

/-! # Bound values are clean

Values are bound by filters, by the search and inside of joins. Match expressions bind clean texts
whatever they are given; dates and the search bind what stands in clean parameters. So no text that a
request binds holds a quoting sign.
-/

namespace BugReport

open Parameter (Kind kind?)

namespace Draft

variable {d d' : Draft}

/-- The invariant of compiling: the filters are clean and what is bound is clean. -/
structure BindsClean (d : Draft) : Prop where
  filters : d.store.CleanFilters
  values : ∀ text ∈ d.values, Clean text

/-- A rule that is no filter keeps the invariant. -/
theorem BindsClean.of_growsTo (h : d.BindsClean) (hgrows : d.GrowsTo d')
    (hfiltered : d'.filtered = d.filtered) : d'.BindsClean := by
  refine ⟨h.filters.of_kept hgrows.store, ?_⟩
  have hvalues : d'.values = d.values := (Prod.mk.inj hfiltered).2
  rw [hvalues]
  exact h.values

/-! ## Filters -/

theorem isField_of_restriction? {bound : Nat} {now : Int} {name value : String} {kind : Kind}
    {r : Restriction} (h : restriction? bound now name value kind = some r) :
    kind.isField = true := by
  cases kind with
  | filters | columns | sort | column | boolean | value | free => cases h
  | _ => rfl

theorem clean_of_restriction? {bound : Nat} {now : Int} {name value : String} {kind : Kind}
    {r : Restriction} (h : restriction? bound now name value kind = some r) (hvalue : Clean value) :
    ∀ text ∈ r.values, Clean text := by
  cases kind with
  | field | fieldId | fieldDepends =>
      cases h
      exact Restriction.clean_ofMatch bound value
  | fieldNumber =>
      cases h
      unfold Restriction.ofNumber
      split <;> simp [Restriction.refused]
  | fieldDate =>
      cases h
      exact Restriction.clean_ofDate bound now _ hvalue
  | _ => cases h

theorem BindsClean.filterField (h : d.BindsClean) (now : Int) {name value : String} {kind : Kind}
    (hvalue : kind.isField = true → Clean value) :
    (d.filterField now name value kind).1.BindsClean := by
  refine ⟨h.filters.of_kept (d.growsTo_filterField now name value kind).store, ?_⟩
  rcases d.filterField_cases now name value kind with ⟨-, hvalues, -⟩ | ⟨r, hsome, hvalues, -, -⟩
  · rw [hvalues]
    exact h.values
  · intro text htext
    rw [hvalues] at htext
    rcases List.mem_append.mp htext with hmem | hmem
    · exact h.values text hmem
    · exact clean_of_restriction? hsome (hvalue (isField_of_restriction? hsome)) text hmem

theorem BindsClean.addClauses (h : d.BindsClean) (clauses : List Sql.Clause) :
    (d.addClauses clauses).BindsClean :=
  ⟨h.filters, h.values⟩

theorem BindsClean.addFilter (h : d.BindsClean) (now : Int) {name value : String} {kind : Kind}
    (hvalue : kind.isField = true → Clean value) : (d.addFilter now name value kind).BindsClean :=
  (h.filterField now hvalue).addClauses _

/-- The value of a pair is cut out of the pair. -/
theorem clean_pairValue {pair name rest : String} (h : Clean pair)
    (hcut : Text.cutSeq "%3D" pair = some (name, rest)) : Clean (pairValue rest) := by
  have hrest : Clean rest := h.of_subset (Text.subset_of_cutSeq hcut).2
  unfold pairValue
  cases hagain : Text.cutSeq "%3D" rest with
  | none => exact hrest
  | some ends => exact hrest.of_subset (Text.subset_of_cutSeq hagain).1

theorem BindsClean.applyPair (h : d.BindsClean) (now : Int) {pair : String} (hpair : Clean pair) :
    (d.applyPair now pair).BindsClean := by
  apply applyPair_cases (motive := fun d' _ => d'.BindsClean) d now pair
  · intro told
    exact h.of_growsTo (growsTo_warn d _) rfl
  · intro name rest hcut _ _
    have hcustom : (d.addCustomField name).BindsClean :=
      h.of_growsTo (growsTo_addCustomField d name) (filtered_addCustomField name)
    exact hcustom.addFilter now fun _ => clean_pairValue hpair hcut
  · intro name rest kind hcut _
    exact h.addFilter now fun _ => clean_pairValue hpair hcut

/-- One parameter keeps the invariant. -/
theorem BindsClean.applyParameter (h : d.BindsClean) (now : Int) {name value : String} {kind : Kind}
    (hvalue : kind.filtersRows = true → Clean value) :
    (d.applyParameter now (name, kind, value)).BindsClean := by
  have hfield (hkind : kind.isField = true) : Clean value := by
    apply hvalue
    rw [Kind.filtersRows, hkind, Bool.true_or]
  unfold Draft.applyParameter
  dsimp only
  split
  · refine List.foldlRecOn (motive := BindsClean) _ _ h fun d' hd' pair hpair => ?_
    exact hd'.applyPair now ((hvalue rfl).of_subset (Text.subset_of_mem_partsSeq hpair))
  · exact (h.filterField now fun _ => hfield rfl).addClauses _
  · exact h.addFilter now hfield

/-! ## After the filters -/

theorem BindsClean.applySearch (h : d.BindsClean) : d.applySearch.BindsClean := by
  refine ⟨h.filters.of_kept d.growsTo_applySearch.store, ?_⟩
  unfold Draft.applySearch
  split
  next text hsearch =>
      have hpercent : Clean "%" := by decide
      have htext : Clean text := h.filters.present? (by decide : kind? "search" = some .fieldText)
        (by decide) hsearch
      intro bound hbound
      rcases List.mem_append.mp hbound with hmem | hmem
      · exact h.values bound hmem
      · rw [List.mem_singleton.mp hmem]
        exact (hpercent.append htext).append hpercent
  · exact h.values

end Draft

/-! ## Joins -/

theorem Field.clean_innerRestriction (f : Field) (store : Store) (bound : Nat) :
    ∀ text ∈ (f.innerRestriction store bound).values, Clean text := by
  unfold innerRestriction
  split
  · split
    · exact Restriction.clean_ofMatch bound _
    · simp [Restriction.none]
  · simp [Restriction.none]

theorem JoinPlan.clean_ofFields (store : Store) (bound : Nat) (fields : List Field) :
    ∀ text ∈ (ofFields store bound fields).values, Clean text := by
  induction fields generalizing bound with
  | nil => simp [ofFields]
  | cons f fields ih =>
      intro text htext
      rcases List.mem_append.mp htext with hmem | hmem
      · exact f.clean_innerRestriction store bound text hmem
      · exact ih _ text hmem

/-! ## Requests -/

theorem bindsClean_drafted {store : Store} (h : store.CleanFilters) (now : Int) :
    (drafted store now).BindsClean := by
  have hstart : (Draft.start store).BindsClean := ⟨h, by simp [Draft.start]⟩
  have hprepared := h.of_kept (Draft.start store).growsTo_prepare.store
  refine drafted_induction hstart .of_growsTo ?_ .applySearch
  intro d name kind value hd _ hkind hvalue
  exact hd.applyParameter now fun hfilters => hprepared.present? hkind hfilters hvalue

/-- What a store binds is clean if its filters are. -/
theorem clean_values_compile {store : Store} (h : store.CleanFilters) (now : Int) :
    ∀ text ∈ (compile store now).query.values, Clean text := by
  rw [values_compile]
  intro text htext
  rcases List.mem_append.mp htext with hmem | hmem
  · exact (bindsClean_drafted h now).values text hmem
  · exact JoinPlan.clean_ofFields _ _ _ text hmem

theorem Request.query_compile (r : Request) (now : Int) :
    (r.compile now).query = (BugReport.compile r.store now).query := by
  simp only [Request.compile]

/-- Every parameter of a compiled request is a text without quoting signs. A match expression binds one
text for each of its terms: the decoded literal if that is in the safe class, and otherwise a fixed word,
with a diagnostic. -/
theorem params_clean (file : ConfigFile) (args : List String) (now : Int) :
    (∀ param ∈ ((Request.ofArgs file args).compile now).query.params,
      ∃ text, param = .text text ∧ Clean text) ∧
    ∀ (bound : Nat) (value : String),
      List.Forall₂ (Term.BoundAs (Restriction.ofMatch bound value).diagnostics)
        (MatchExpr.parse value).terms (Restriction.ofMatch bound value).values := by
  refine ⟨?_, Restriction.boundAs_ofMatch⟩
  rw [Request.query_compile]
  intro param hparam
  obtain ⟨text, htext, rfl⟩ := List.mem_map.mp hparam
  exact ⟨text, rfl, clean_values_compile (.ofArgs file args) now text htext⟩

end BugReport
