import BugReport.Proofs.Query.Fragments
import BugReport.Proofs.Query.Rules
import BugReport.Proofs.Query.Turns

/-! # Binding values

While a request is compiled its filters write clauses and bind values. The invariant is that the clauses
hold one slot for each value that is bound so far, in the order of the values, and that their columns are
vetted. Only filters touch clauses and values; every other rule keeps both. The joins bind the last
values, so the slots of the whole statement are a rearrangement of the numbers of its values.
-/

namespace BugReport

open Sql
open Parameter (Kind)

namespace Draft

variable {d d' : Draft}

/-- What filters have written: the clauses and the values for their slots. -/
def filtered (d : Draft) : List Clause × List String :=
  (d.clauses, d.values)

/-- The invariant of compiling. -/
structure Sound (d : Draft) : Prop where
  vetted : ∀ clause ∈ d.clauses, clause.IsVetted
  slots : d.clauses.flatMap Clause.slots = List.range' 1 d.values.length

theorem Sound.of_filtered_eq (h : d.Sound) (heq : d'.filtered = d.filtered) : d'.Sound := by
  obtain ⟨hclauses, hvalues⟩ := Prod.mk.inj heq
  exact ⟨by rw [hclauses]; exact h.vetted, by rw [hclauses, hvalues]; exact h.slots⟩

/-! ## Rules that are no filters -/

theorem apart_filtered : Apart filtered :=
  ⟨fun _ _ => rfl, fun _ _ => rfl, fun _ _ => rfl, fun _ _ => rfl, fun _ _ => rfl⟩

@[simp] theorem filtered_warn (diagnostics : List Diagnostic) :
    (d.warn diagnostics).filtered = d.filtered := rfl

@[simp] theorem filtered_require (f : Field) : (d.require f).filtered = d.filtered := rfl

theorem filtered_prepare : d.prepare.filtered = d.filtered :=
  apart_filtered.prepare d

@[simp] theorem filtered_showFiltered (name value : String) (kind : Kind) :
    (d.showFiltered name value kind).filtered = d.filtered :=
  apart_filtered.showFiltered d name value kind

theorem filtered_addCustomField (name : String) : (d.addCustomField name).filtered = d.filtered :=
  apart_filtered.addCustomField d (fun _ _ => rfl) name

@[simp] theorem filtered_applyListFormat : d.applyListFormat.filtered = d.filtered :=
  apart_filtered.applyListFormat d

@[simp] theorem filtered_applyFlag : d.applyFlag.filtered = d.filtered :=
  apart_filtered.applyFlag d

@[simp] theorem filtered_applyLastComment : d.applyLastComment.filtered = d.filtered :=
  apart_filtered.applyLastComment d

@[simp] theorem filtered_applyGroupOrder : d.applyGroupOrder.filtered = d.filtered :=
  apart_filtered.applyGroupOrder d

/-- Settling the columns writes nothing. -/
theorem filtered_arrange : d.arrange.1.filtered = d.filtered :=
  apart_filtered.arrange d fun _ _ => rfl

/-! ## Filters -/

/-- Clauses may be added with the values for their slots. -/
theorem Sound.addClauses {clauses : List Clause} {more : List String} (h : d.Sound)
    (hkept : d'.filtered = (d.clauses, d.values ++ more))
    (hvetted : ∀ clause ∈ clauses, clause.IsVetted)
    (hslots : clauses.flatMap Clause.slots = List.range' (d.values.length + 1) more.length) :
    (d'.addClauses clauses).Sound := by
  obtain ⟨hclauses, hvalues⟩ := Prod.mk.inj hkept
  refine ⟨?_, ?_⟩
  · intro clause hclause
    simp only [Draft.addClauses, hclauses] at hclause
    rcases List.mem_append.mp hclause with hmem | hmem
    · exact h.vetted clause hmem
    · exact hvetted clause hmem
  · simp only [Draft.addClauses, hclauses, hvalues, List.flatMap_append, List.length_append]
    rw [h.slots, hslots, ← List.range'_append_1, Nat.add_comm 1]

theorem numbered_of_restriction? {bound : Nat} {now : Int} {name value : String} {kind : Kind}
    {r : Restriction} (h : restriction? bound now name value kind = some r) : r.Numbered bound := by
  cases kind with
  | field | fieldId | fieldDepends =>
      cases h
      exact Restriction.numbered_ofMatch bound value
  | fieldNumber =>
      cases h
      exact Restriction.numbered_ofNumber bound _ value
  | fieldDate =>
      cases h
      exact Restriction.numbered_ofDate bound now _ value
  | _ => cases h

/-- A filter binds one value for each slot of its conditions, and adds no clause by itself. -/
theorem exists_filterField (d : Draft) (now : Int) (name value : String) (kind : Kind) :
    ∃ more, (d.filterField now name value kind).1.filtered = (d.clauses, d.values ++ more) ∧
      (d.filterField now name value kind).2.flatMap Condition.slots =
        List.range' (d.values.length + 1) more.length := by
  obtain ⟨hclauses, hvalues⟩ := Prod.mk.inj (filtered_showFiltered (d := d) name value kind)
  unfold filterField
  dsimp only
  split
  next hnone =>
      refine ⟨[], ?_, rfl⟩
      rw [filtered_showFiltered, List.append_nil]
      rfl
  next r hsome =>
      refine ⟨r.values, ?_, ?_⟩
      · rw [← hclauses, ← hvalues]
        rfl
      · rw [← hvalues]
        exact numbered_of_restriction? hsome

/-- A filter on a field whose name may stand in a statement. -/
theorem Sound.addFilter (h : d.Sound) {name : String} (hname : isIdentifier name.toList = true)
    (now : Int) (value : String) (kind : Kind) : (d.addFilter now name value kind).Sound := by
  obtain ⟨more, hkept, hslots⟩ := d.exists_filterField now name value kind
  refine h.addClauses hkept ?_ ?_
  · intro clause hclause
    obtain ⟨condition, -, rfl⟩ := List.mem_map.mp hclause
    exact Catalog.isVetted_place hname
  · rw [List.flatMap_map]
    exact hslots

theorem isIdentifier_schema : ∀ entry ∈ Parameter.schema, isIdentifier entry.1.toList = true := by
  decide

theorem isIdentifier_of_kind? {name : String} {kind : Kind} (h : Parameter.kind? name = some kind) :
    isIdentifier name.toList = true :=
  isIdentifier_schema _ (mem_of_lookup h)

theorem isIdentifier_of_ofName? {name : String} (h : (Identifier.ofName? name).isSome) :
    isIdentifier name.toList = true := by
  obtain ⟨i, hi⟩ := Option.isSome_iff_exists.mp h
  rw [← Identifier.text_of_ofName? hi]
  exact i.valid

/-- A pair filters by a custom field only if its name was checked, and otherwise by a parameter. -/
theorem Sound.applyPair (h : d.Sound) (now : Int) (pair : String) : (d.applyPair now pair).Sound := by
  apply applyPair_cases (motive := fun d' _ => d'.Sound) d now pair
  · intro told
    exact h.of_filtered_eq rfl
  · -- A custom field stands in the statement by its own name.
    intro name rest _ _ hname
    exact (h.of_filtered_eq (filtered_addCustomField name)).addFilter (isIdentifier_of_ofName? hname) now _ _
  · intro name rest kind _ hkind
    exact h.addFilter (isIdentifier_of_kind? hkind) now _ _

/-- One parameter keeps the invariant. -/
theorem Sound.applyParameter (h : d.Sound) (now : Int) {parameter : String × Kind × String}
    (hname : isIdentifier parameter.1.toList = true) : (d.applyParameter now parameter).Sound := by
  obtain ⟨name, kind, value⟩ := parameter
  unfold Draft.applyParameter
  dsimp only
  split
  · exact List.foldlRecOn (motive := Sound) _ _ h fun d' hd' pair _ => hd'.applyPair now pair
  · -- The conditions on keywords go into one clause, which has a column of its own.
    obtain ⟨more, hkept, hslots⟩ := d.exists_filterField now name value .field
    refine h.addClauses hkept ?_ ?_
    · intro clause hclause
      rw [List.mem_singleton.mp hclause]
      trivial
    · rw [List.flatMap_singleton]
      exact hslots
  · exact h.addFilter hname now value kind

/-- The loop over the parameters keeps the invariant. -/
theorem Sound.applyParameters (h : d.Sound) (now : Int) : (d.applyParameters now).Sound := by
  refine List.foldlRecOn (motive := Sound) _ _ h ?_
  -- The loop goes over the parameters that were set when it started, all of them from the schema.
  intro d' hd' parameter hparameter
  obtain ⟨entry, hentry, hpresent⟩ := List.mem_filterMap.mp hparameter
  obtain ⟨value, -, rfl⟩ := Option.map_eq_some_iff.mp hpresent
  exact hd'.applyParameter now (isIdentifier_schema entry hentry)

theorem Sound.applySearch (h : d.Sound) : d.applySearch.Sound := by
  unfold Draft.applySearch
  split
  next text _ =>
      have hcolumn : (Piece.column (.bare "short_desc")).isVetted = true := by decide
      have hkept : ({ d with values := d.values ++ ["%" ++ text ++ "%"] } : Draft).filtered =
        (d.clauses, d.values ++ ["%" ++ text ++ "%"]) := rfl
      refine h.addClauses hkept ?_ ?_
      · intro clause hclause
        rw [List.mem_singleton.mp hclause]
        exact hcolumn
      · simp [Clause.slots, Condition.slots]
  · exact h

theorem Sound.conclude (h : d.Sound) : d.conclude.Sound := by
  have hsearch : d.applyListFormat.applyFlag.applyLastComment.applySearch.Sound :=
    (h.of_filtered_eq (by simp)).applySearch
  exact hsearch.of_filtered_eq (by simp [Draft.conclude])

/-! ## Putting the statement together -/

/-- A statement that is put together for a draft. -/
theorem Sound.regular_assemble (h : d.Sound) : d.assemble.2.Regular where
  items := by
    intro item hitem
    rcases List.mem_cons.mp hitem with rfl | hitem
    · decide
    rcases List.mem_append.mp hitem with hmem | hmem
    · exact d.required.fixed_items (personName d.store) item hmem
    · obtain ⟨i, -, rfl⟩ := List.mem_map.mp hmem
      exact fixed_customItem i
  joins := JoinPlan.whole_ofFields _ _ _
  clauses := h.vetted
  order := fun key hkey => OrderKey.fixed_pieces (sortable_compileOrder d.store.sort key hkey).fixed

/-- The slots of the joins come first in the text, and last in number. -/
theorem Sound.slotsOf_assemble (h : d.Sound) :
    (slotsOf d.assemble.2.pieces).Perm (List.range' 1 d.assemble.1.values.length) := by
  have hjoins := JoinPlan.slotsOf_ofFields d.store d.values.length
    (Field.joinOrder.filter d.required.joinsField)
  rw [h.regular_assemble.slotsOf_pieces]
  -- The text has the joins before the clauses, but their values are bound after those of the clauses.
  simp only [assemble, FieldSet.joinPlan, Draft.warn, List.length_append]
  rw [hjoins, h.slots, ← List.range'_append_1, Nat.add_comm 1]
  exact List.perm_append_comm

end Draft

/-- The draft of a request when its statement is put together. -/
def drafted (store : Store) (now : Int) : Draft :=
  ((Draft.start store).prepare.applyParameters now).conclude.arrange.1

theorem statement_compile (store : Store) (now : Int) :
    (compile store now).query.statement = (drafted store now).assemble.2 := by
  simp only [compile, drafted]

theorem values_compile (store : Store) (now : Int) :
    (compile store now).query.values = (drafted store now).assemble.1.values := by
  simp only [compile, drafted]

theorem store_compile (store : Store) (now : Int) :
    (compile store now).store = (drafted store now).assemble.1.store := by
  simp only [compile, drafted]

/-- A request keeps the invariant up to where its statement is put together. -/
theorem sound_drafted (store : Store) (now : Int) : (drafted store now).Sound := by
  have hstart : (Draft.start store).Sound := ⟨by simp [Draft.start], rfl⟩
  have hconclude := ((hstart.of_filtered_eq Draft.filtered_prepare).applyParameters now).conclude
  exact hconclude.of_filtered_eq Draft.filtered_arrange

/-- Every request compiles to a regular statement. -/
theorem regular_compile (store : Store) (now : Int) :
    (compile store now).query.statement.Regular := by
  rw [statement_compile]
  exact (sound_drafted store now).regular_assemble

/-- The slots of a compiled statement are the numbers of its values, each once. -/
theorem slotsOf_compile (store : Store) (now : Int) :
    (slotsOf (compile store now).query.statement.pieces).Perm
      (List.range' 1 (compile store now).query.values.length) := by
  rw [statement_compile, values_compile]
  exact (sound_drafted store now).slotsOf_assemble

end BugReport
