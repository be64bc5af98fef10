import BugReport.Proofs.Parameter.Store
import BugReport.Proofs.Query.Binding

/-! # Drafts grow

No rule takes anything back: a field that is required stays required, values and custom fields are added
at the end, and diagnostics are only collected. So what one rule brings about is still there when the
statement is put together. An invariant of compiling has to be looked at for the parameters and for the
search only, if it is kept by growth that leaves what filters write alone.
-/

namespace BugReport

open Parameter (Kind kind?)

namespace Draft

/-- What a draft becomes while it is worked on. -/
structure GrowsTo (d d' : Draft) : Prop where
  custom : d'.custom = d.custom
  store : d.store.Kept d'.store
  required : ∀ f, d.required.contains f = true → d'.required.contains f = true
  customFields : d.customFields <+: d'.customFields
  values : d.values <+: d'.values
  diagnostics : d.diagnostics <+: d'.diagnostics

namespace GrowsTo

variable {d d' d'' : Draft} {α : Type} {f : Draft → α → Draft}

theorem refl (d : Draft) : d.GrowsTo d :=
  ⟨rfl, .refl _, fun _ h => h, List.prefix_rfl, List.prefix_rfl, List.prefix_rfl⟩

theorem trans (h : d.GrowsTo d') (h' : d'.GrowsTo d'') : d.GrowsTo d'' where
  custom := h'.custom.trans h.custom
  store := h.store.trans h'.store
  required g hg := h'.required g (h.required g hg)
  customFields := h.customFields.trans h'.customFields
  values := h.values.trans h'.values
  diagnostics := h.diagnostics.trans h'.diagnostics

theorem foldl (hstep : ∀ (d : Draft) x, d.GrowsTo (f d x)) (d : Draft) (xs : List α) :
    d.GrowsTo (xs.foldl f d) := by
  induction xs generalizing d with
  | nil => exact .refl d
  | cons x xs ih => exact (hstep d x).trans (ih _)

/-- Each entry of a loop has its turn, and what it brings about stays. -/
theorem exists_turn (hstep : ∀ (d : Draft) x, d.GrowsTo (f d x)) (d : Draft) {xs : List α}
    {x : α} (hx : x ∈ xs) : ∃ d', d.GrowsTo d' ∧ (f d' x).GrowsTo (xs.foldl f d) := by
  obtain ⟨before, after, rfl⟩ := List.append_of_mem hx
  refine ⟨before.foldl f d, foldl hstep d before, ?_⟩
  rw [List.foldl_append, List.foldl_cons]
  exact foldl hstep _ after

end GrowsTo

variable (d : Draft)

/-! ## Single changes -/

theorem growsTo_warn (diagnostics : List Diagnostic) : d.GrowsTo (d.warn diagnostics) :=
  { GrowsTo.refl d with diagnostics := List.prefix_append _ _ }

theorem growsTo_store {store : Store} (h : d.store.Kept store) : d.GrowsTo { d with store } :=
  { GrowsTo.refl d with store := h }

theorem growsTo_require (f : Field) : d.GrowsTo (d.require f) :=
  { GrowsTo.refl d with required := fun _ h => FieldSet.contains_insert_of_contains h }

theorem growsTo_requireName (name : String) : d.GrowsTo (d.requireName name) :=
  { GrowsTo.refl d with required := fun _ h => FieldSet.contains_insertName_of_contains h }

theorem growsTo_addColumn (column : String) : d.GrowsTo (d.addColumn column) :=
  { GrowsTo.refl d with }

theorem growsTo_removeColumn (column : String) : d.GrowsTo (d.removeColumn column) :=
  { GrowsTo.refl d with }

theorem growsTo_putFormat (column format : String) : d.GrowsTo (d.putFormat column format) :=
  { GrowsTo.refl d with }

theorem growsTo_addClauses (clauses : List Sql.Clause) : d.GrowsTo (d.addClauses clauses) :=
  { GrowsTo.refl d with }

theorem growsTo_bind (r : Restriction) : d.GrowsTo (d.bind r) :=
  { GrowsTo.refl d with
    values := List.prefix_append _ _
    diagnostics := List.prefix_append _ _ }

theorem growsTo_addCustomField (name : String) : d.GrowsTo (d.addCustomField name) := by
  unfold addCustomField
  split
  · split
    · exact .refl d
    · exact { GrowsTo.refl d with customFields := List.prefix_append _ _ }
  · exact growsTo_warn d _

/-! ## Before the filters -/

theorem growsTo_applyLink (entry : String) : d.GrowsTo (d.applyLink entry) := by
  unfold applyLink
  split
  · exact (growsTo_putFormat d _ _).trans (growsTo_addColumn _ _)
  · exact (growsTo_putFormat d _ _).trans (growsTo_addColumn _ _)

theorem growsTo_applyLinks : d.GrowsTo d.applyLinks := by
  unfold applyLinks
  split
  · exact .foldl (fun d entry => d.growsTo_applyLink entry) d _
  · exact .refl d

theorem growsTo_applyLastCommentFormat : d.GrowsTo d.applyLastCommentFormat := by
  unfold applyLastCommentFormat
  split
  · dsimp only
    split
    · exact growsTo_require d _
    · exact (growsTo_require d _).trans (growsTo_putFormat _ _ _)
  · exact .refl d

theorem growsTo_applyGroup : d.GrowsTo d.applyGroup := by
  have hgroup := d.store.kept_settleGroup
  unfold applyGroup
  dsimp only
  split
  · exact (growsTo_store d (hgroup.trans (Store.kept_trySet_sortable "0"))).trans (growsTo_warn _ _)
  · exact growsTo_store d hgroup

theorem growsTo_applyFormat (parameter column : String) :
    d.GrowsTo (applyFormat parameter column d) := by
  unfold applyFormat
  split
  · exact growsTo_putFormat d _ _
  · exact .refl d

theorem growsTo_prepare : d.GrowsTo d.prepare := by
  have hgroup : d.GrowsTo d.applyLinks.applyLastCommentFormat.applyGroup :=
    (growsTo_applyLinks d).trans
      ((growsTo_applyLastCommentFormat _).trans (growsTo_applyGroup _))
  exact hgroup.trans ((growsTo_applyFormat _ _ _).trans (growsTo_applyFormat _ _ _))

/-! ## Filters -/

theorem growsTo_showFiltered (name value : String) (kind : Kind) :
    d.GrowsTo (d.showFiltered name value kind) := by
  have hshown : d.GrowsTo (d.showFiltered name value .field) := by
    simp only [showFiltered]
    split
    · split
      · have hsort : d.store.Kept (d.store.infer "sort" name) := Store.kept_infer (by decide) name
        exact (growsTo_addColumn d name).trans
          (growsTo_store _ (hsort.trans (Store.kept_infer (by decide) _)))
      · exact growsTo_addColumn d name
    · exact growsTo_removeColumn d name
  cases kind with
  | field | fieldDate | fieldNumber => exact hshown
  | _ => exact .refl d

/-- What a filter does: it restricts nothing, or it writes the conditions of the restriction that its
value makes, binds the values, and makes its field required. -/
theorem filterField_cases (d : Draft) (now : Int) (name value : String) (kind : Kind) :
    (restriction? d.values.length now name value kind = none ∧
      (d.filterField now name value kind).1.values = d.values ∧
      (d.filterField now name value kind).2 = []) ∨
    ∃ r, restriction? d.values.length now name value kind = some r ∧
      (d.filterField now name value kind).1.values = d.values ++ r.values ∧
      (d.filterField now name value kind).1.required =
        (d.showFiltered name value kind).required.insertName name ∧
      (d.filterField now name value kind).2 = r.conditions := by
  have hvalues : (d.showFiltered name value kind).values = d.values :=
    (Prod.mk.inj (filtered_showFiltered (d := d) name value kind)).2
  unfold filterField
  dsimp only
  rw [hvalues]
  split
  next hnone => exact .inl ⟨hnone, hvalues, rfl⟩
  next r hsome => exact .inr ⟨r, hsome, hvalues ▸ rfl, rfl, rfl⟩

theorem growsTo_filterField (now : Int) (name value : String) (kind : Kind) :
    d.GrowsTo (d.filterField now name value kind).1 := by
  have hshown := d.growsTo_showFiltered name value kind
  unfold filterField
  dsimp only
  split
  · exact hshown
  next r _ =>
      have hbound := (hshown.trans (growsTo_bind _ r)).trans (growsTo_requireName _ name)
      exact hbound.trans { GrowsTo.refl _ with }

theorem growsTo_addFilter (now : Int) (name value : String) (kind : Kind) :
    d.GrowsTo (d.addFilter now name value kind) :=
  (d.growsTo_filterField now name value kind).trans (growsTo_addClauses _ _)

theorem growsTo_applyPair (now : Int) (pair : String) : d.GrowsTo (d.applyPair now pair) := by
  apply applyPair_cases (motive := fun d' _ => d.GrowsTo d') d now pair
  · intro told
    exact growsTo_warn d _
  · intro name rest _ _ _
    exact (growsTo_addCustomField d name).trans (growsTo_addFilter _ _ _ _ _)
  · intro name rest kind _ _
    exact growsTo_addFilter d _ _ _ _

theorem growsTo_applyParameter (now : Int) (parameter : String × Kind × String) :
    d.GrowsTo (d.applyParameter now parameter) := by
  obtain ⟨name, kind, value⟩ := parameter
  unfold applyParameter
  dsimp only
  split
  · exact .foldl (fun d pair => d.growsTo_applyPair now pair) d _
  · exact (d.growsTo_filterField now name value .field).trans (growsTo_addClauses _ _)
  · exact growsTo_addFilter d _ _ _ _

theorem growsTo_applyParameters (now : Int) : d.GrowsTo (d.applyParameters now) :=
  .foldl (fun d parameter => d.growsTo_applyParameter now parameter) d _

/-! ## After the filters -/

theorem growsTo_applyListFormat : d.GrowsTo d.applyListFormat := by
  unfold applyListFormat
  split
  · exact (growsTo_require d _).trans (growsTo_require _ _)
  · exact .refl d

theorem growsTo_applyFlag : d.GrowsTo d.applyFlag := by
  unfold applyFlag
  split
  · exact ((growsTo_require d _).trans (growsTo_addColumn _ _)).trans
      ((growsTo_addColumn _ _).trans (growsTo_addColumn _ _))
  · exact .refl d

theorem growsTo_applyLastComment : d.GrowsTo d.applyLastComment := by
  unfold applyLastComment
  split
  · exact growsTo_require d _
  · exact .refl d

theorem growsTo_applySearch : d.GrowsTo d.applySearch := by
  unfold applySearch
  split
  · exact { GrowsTo.refl d with values := List.prefix_append _ _ }
  · exact .refl d

theorem growsTo_applyGroupOrder : d.GrowsTo d.applyGroupOrder := by
  unfold applyGroupOrder
  split
  · exact growsTo_store d (Store.kept_infer (by decide) _)
  · exact .refl d

theorem growsTo_applyListFormat_applyFlag : d.GrowsTo d.applyListFormat.applyFlag :=
  d.growsTo_applyListFormat.trans (growsTo_applyFlag _)

theorem growsTo_conclude_of_lastComment :
    d.applyListFormat.applyFlag.applyLastComment.GrowsTo d.conclude := by
  have hsearch := d.applyListFormat.applyFlag.applyLastComment.growsTo_applySearch
  exact (hsearch.trans (growsTo_applyGroupOrder _)).trans
    ((growsTo_require _ .quickflag).trans (growsTo_require _ .nickname))

theorem growsTo_conclude : d.GrowsTo d.conclude :=
  d.growsTo_applyListFormat_applyFlag.trans
    ((growsTo_applyLastComment _).trans (growsTo_conclude_of_lastComment d))

/-! ## Columns -/

theorem growsTo_sortColumn (column : String) : d.GrowsTo ((d.addColumn column).requireName column) :=
  (growsTo_addColumn d column).trans (growsTo_requireName _ column)

theorem growsTo_applySort : d.GrowsTo d.applySort :=
  (growsTo_store d d.store.kept_settleSort).trans
    (.foldl (fun d column => d.growsTo_sortColumn column) _ _)

theorem growsTo_hideGroup : d.GrowsTo d.hideGroup :=
  .foldl (fun d column => (growsTo_removeColumn d column).trans (growsTo_requireName _ column)) d _

theorem growsTo_settleColumns : d.GrowsTo d.settleColumns.1 :=
  { GrowsTo.refl d with diagnostics := List.prefix_append _ _ }

theorem growsTo_fetchColumn (column : String) : d.GrowsTo (d.fetchColumn column) := by
  unfold fetchColumn
  split
  · exact growsTo_requireName d column
  · split
    · exact growsTo_addCustomField d column
    · exact .refl d

theorem growsTo_fetchGroup (column : String) : d.GrowsTo (d.fetchGroup column) := by
  unfold fetchGroup
  split
  · exact growsTo_addCustomField d column
  · exact .refl d

theorem growsTo_applyBar : d.GrowsTo d.applyBar := by
  unfold applyBar
  split
  · exact growsTo_requireName d _
  · exact .refl d

/-- The draft when its columns are settled. -/
def settled (d : Draft) : Draft :=
  d.applySort.hideGroup.settleColumns.1

/-- The draft when its columns are fetched. -/
def withColumns (d : Draft) : Draft :=
  d.arrange.2.foldl fetchColumn d.settled

/-- The draft when its columns and its group are fetched. -/
def withGroup (d : Draft) : Draft :=
  (groupEntries d.withColumns.store).foldl fetchGroup d.withColumns

theorem arrange_fst : d.arrange.1 = d.withGroup.applyBar := by
  simp only [arrange, withGroup, withColumns, settled]

theorem growsTo_settled : d.applySort.GrowsTo d.settled :=
  (growsTo_hideGroup _).trans (growsTo_settleColumns _)

theorem growsTo_withColumns : d.settled.GrowsTo d.withColumns :=
  .foldl (fun d column => d.growsTo_fetchColumn column) _ _

theorem growsTo_withGroup : d.withColumns.GrowsTo d.withGroup :=
  .foldl (fun d column => d.growsTo_fetchGroup column) _ _

theorem growsTo_arrange_of_settled : d.settled.GrowsTo d.arrange.1 := by
  rw [arrange_fst]
  exact (growsTo_withColumns d).trans ((growsTo_withGroup d).trans (growsTo_applyBar _))

theorem growsTo_arrange : d.GrowsTo d.arrange.1 :=
  d.growsTo_applySort.trans ((growsTo_settled d).trans (growsTo_arrange_of_settled d))

theorem growsTo_assemble : d.GrowsTo d.assemble.1 :=
  { GrowsTo.refl d with
    store := d.store.kept_settleOrder
    values := List.prefix_append _ _
    diagnostics := List.prefix_append _ _ }

end Draft

/-! ## Invariants -/

theorem Draft.mem_presentParameters {store : Store} {name value : String} {kind : Kind} :
    (name, kind, value) ∈ presentParameters store ↔
      kind? name = some kind ∧ store.present? name = some value := by
  have hschema : ∀ entry ∈ Parameter.schema, kind? entry.1 = some entry.2 := by decide +kernel
  rw [presentParameters, List.mem_filterMap]
  constructor
  · rintro ⟨entry, hentry, hpresent⟩
    obtain ⟨_, hvalue, heq⟩ := Option.map_eq_some_iff.mp hpresent
    cases heq
    exact ⟨hschema entry hentry, hvalue⟩
  · rintro ⟨hkind, hvalue⟩
    exact ⟨(name, kind), mem_of_lookup hkind, Option.map_eq_some_iff.mpr ⟨value, hvalue, rfl⟩⟩

section

variable {store : Store} {now : Int} {motive : Draft → Prop}

/-- An invariant of compiling is kept by every rule, as soon as it is kept by the parameters that are set,
by the search, and by growth that leaves what filters write alone. -/
theorem drafted_induction (hstart : motive (Draft.start store))
    (hquiet : ∀ {d d' : Draft}, motive d → d.GrowsTo d' → d'.filtered = d.filtered → motive d')
    (hparameter : ∀ {d : Draft} {name : String} {kind : Kind} {value : String}, motive d →
      (Draft.start store).GrowsTo d → kind? name = some kind →
      (Draft.start store).prepare.store.present? name = some value →
      motive (d.applyParameter now (name, kind, value)))
    (hsearch : ∀ {d : Draft}, motive d → motive d.applySearch) : motive (drafted store now) := by
  have hprepared := hquiet hstart (Draft.growsTo_prepare _) Draft.filtered_prepare
  have hloop := List.foldlRecOn (motive := fun d => (Draft.start store).GrowsTo d ∧ motive d)
    (Draft.presentParameters (Draft.start store).prepare.store) (Draft.applyParameter now)
    ⟨Draft.growsTo_prepare _, hprepared⟩
  have hfiltered : motive ((Draft.start store).prepare.applyParameters now) := by
    refine (hloop fun d hd ⟨name, kind, value⟩ hmem => ?_).2
    obtain ⟨hkind, hvalue⟩ := Draft.mem_presentParameters.mp hmem
    exact ⟨hd.1.trans (d.growsTo_applyParameter now _), hparameter hd.2 hd.1 hkind hvalue⟩
  have hlist := hquiet hfiltered (Draft.growsTo_applyListFormat _) Draft.filtered_applyListFormat
  have hflag := hquiet hlist (Draft.growsTo_applyFlag _) Draft.filtered_applyFlag
  have hcomment := hquiet hflag (Draft.growsTo_applyLastComment _) Draft.filtered_applyLastComment
  have horder := hquiet (hsearch hcomment) (Draft.growsTo_applyGroupOrder _)
    Draft.filtered_applyGroupOrder
  have hconcluded := hquiet horder
    ((Draft.growsTo_require _ .quickflag).trans (Draft.growsTo_require _ .nickname)) rfl
  exact hquiet hconcluded (Draft.growsTo_arrange _) Draft.filtered_arrange

end

theorem growsTo_filtered (store : Store) (now : Int) :
    (Draft.start store).GrowsTo ((Draft.start store).prepare.applyParameters now) :=
  (Draft.growsTo_prepare _).trans (Draft.growsTo_applyParameters _ now)

theorem growsTo_concluded (store : Store) (now : Int) :
    (Draft.start store).GrowsTo ((Draft.start store).prepare.applyParameters now).conclude :=
  (growsTo_filtered store now).trans (Draft.growsTo_conclude _)

theorem growsTo_drafted (store : Store) (now : Int) :
    (Draft.start store).GrowsTo (drafted store now) :=
  drafted_induction (.refl _) (fun h hgrows _ => h.trans hgrows)
    (fun {d} _ _ _ h _ _ _ => h.trans (d.growsTo_applyParameter now _))
    (fun {d} h => h.trans d.growsTo_applySearch)

/-- A store keeps what it was asked for while its request is compiled. -/
theorem kept_compile (store : Store) (now : Int) : store.Kept (compile store now).store := by
  rw [store_compile]
  exact ((growsTo_drafted store now).trans (Draft.growsTo_assemble _)).store

end BugReport
