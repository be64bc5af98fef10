import BugReport.Proofs.Query.Growth
import BugReport.Proofs.Sql.Scope
import Mathlib.Data.List.Nodup

/-! # The scope of compiled statements

What a field selects, what a filter on it compares, and what ties its joins to the bugs all belong to the
bugs or to the joins of the same field. No two joins share a name, so a qualified name belongs to the
statement as soon as its field is joined. Filters make their field required when they write a clause, and
nothing that is required is dropped. The one field whose place is inside of a sub-select is that of the
keywords; only a custom field of that name could be filtered outside of it.
-/

namespace BugReport

open Sql
open Parameter (Kind kind? default?)

/-! ## What fields join -/

/-- What the rest of a statement sees of a join. -/
structure Sql.Outline where
  correlation : String
  /-- The labels of a derived table. -/
  labels? : Option (List String)
  condition : List Piece
  deriving DecidableEq

def Sql.Join.outline (j : Join) : Outline :=
  ⟨j.source.correlation, j.source.labels?, j.condition⟩

/-- Whether a qualified name belongs to a join. -/
def Sql.Outline.Offers (o : Outline) (qualified : String × String) : Prop :=
  o.correlation = qualified.1 ∧ ∀ labels ∈ o.labels?, qualified.2 ∈ labels

namespace Field

/-- What is decidable for each field is decided for all of them. -/
instance {p : Field → Prop} [DecidablePred p] : Decidable (∀ f, p f) :=
  decidable_of_iff (∀ f ∈ all, p f) ⟨fun h f => h f f.mem_all, fun h f _ => h f⟩

def outlines (f : Field) : List Outline :=
  (f.joins []).map Join.outline

/-- Whether a qualified name belongs to the joins of a field. -/
def Offers (f : Field) (qualified : String × String) : Prop :=
  ∃ o ∈ f.outlines, o.Offers qualified

instance (o : Outline) (qualified : String × String) : Decidable (o.Offers qualified) :=
  inferInstanceAs (Decidable (_ ∧ _))

instance (f : Field) (qualified : String × String) : Decidable (f.Offers qualified) :=
  inferInstanceAs (Decidable (∃ o ∈ f.outlines, o.Offers qualified))

/-- The conditions inside of a join do not show outside. -/
theorem outlines_joins (f : Field) (inner : List Piece) :
    (f.joins inner).map Join.outline = f.outlines := by
  cases f <;> rfl

theorem mem_joinOrder_of_outlines : ∀ {f : Field}, f.outlines ≠ [] → f ∈ joinOrder := by
  decide

/-- No join is called like another one or like the bugs. -/
theorem nodup_correlations :
    ("bugs" :: (joinOrder.flatMap outlines).map Outline.correlation).Nodup := by
  decide +kernel

/-- What a field selects belongs to its own joins, to the bugs, or to a sub-select. -/
theorem offers_items (f : Field) (person : PersonName) :
    ∀ item ∈ f.items person, ∀ qualified ∈ qualifiedNames item.pieces,
      qualified.1 ∈ introducedNames item.pieces ∨ qualified.1 = "bugs" ∨ f.Offers qualified := by
  have hall : ∀ f : Field, ∀ item ∈ f.items .login ++ f.items .real,
      ∀ qualified ∈ qualifiedNames item.pieces,
        qualified.1 ∈ introducedNames item.pieces ∨ qualified.1 = "bugs" ∨ f.Offers qualified := by
    decide +kernel
  intro item hitem
  refine hall f item (List.mem_append.mpr ?_)
  cases person with
  | login => exact .inl hitem
  | real => exact .inr hitem

/-- What ties the joins of a field belongs to these joins or to the bugs. -/
theorem offers_conditions : ∀ f : Field, ∀ o ∈ f.outlines,
    ∀ qualified ∈ qualifiedNames o.condition, qualified.1 = "bugs" ∨ f.Offers qualified := by
  decide +kernel

theorem isVetted_conditions : ∀ f : Field, ∀ o ∈ f.outlines, ∀ piece ∈ o.condition,
    piece.isVetted = true := by
  decide +kernel

end Field

theorem JoinPlan.outlines_ofFields (store : Store) (bound : Nat) (fields : List Field) :
    (ofFields store bound fields).joins.map Join.outline = fields.flatMap Field.outlines := by
  induction fields generalizing bound with
  | nil => rfl
  | cons f fields ih =>
      rw [ofFields, List.map_append, Field.outlines_joins, ih, List.flatMap_cons]

/-! ## Required fields -/

namespace FieldSet

variable {required : FieldSet} {f : Field} {qualified : String × String}

/-- Whether a qualified name belongs to the bugs or to a field that is joined. -/
def Reaches (required : FieldSet) (qualified : String × String) : Prop :=
  qualified.1 = "bugs" ∨ ∃ f, required.joinsField f = true ∧ f.Offers qualified

/-- The short form of the flags is the only field whose joins depend on other fields. -/
theorem joinsField_of_contains (h : required.contains f = true) (hne : f ≠ .quickflag) :
    required.joinsField f = true := by
  simp [joinsField, h, hne]

/-- A field that is selected is joined, if it joins anything. -/
theorem joinsField_of_selects (h : required.selects f = true) (hjoins : f.outlines ≠ []) :
    required.joinsField f = true := by
  cases f with
  | priority | severity => exact absurd rfl hjoins
  | quickflag => simpa [selects, joinsField] using h
  | _ => exact joinsField_of_contains h (by decide)

end FieldSet

/-! ## Statements -/

namespace Draft

variable {d d' : Draft} {qualified : String × String}

theorem outlines_assemble (d : Draft) : d.assemble.2.joins.map Join.outline =
    (Field.joinOrder.filter d.required.joinsField).flatMap Field.outlines :=
  JoinPlan.outlines_ofFields _ _ _

/-- A source is the table of the bugs or belongs to a join. -/
theorem exists_outline_of_mem_sources {source : Source} (h : source ∈ d.assemble.2.sources) :
    source = .table .bugs "bugs" ∨ ∃ o ∈ Field.joinOrder.flatMap Field.outlines,
      o.correlation = source.correlation ∧ o.labels? = source.labels? := by
  refine (List.mem_cons.mp h).imp id fun hjoin => ?_
  obtain ⟨join, hmem, rfl⟩ := List.mem_map.mp hjoin
  have houtline : join.outline ∈ d.assemble.2.joins.map Join.outline := List.mem_map_of_mem hmem
  rw [outlines_assemble] at houtline
  obtain ⟨f, hf, ho⟩ := List.mem_flatMap.mp houtline
  exact ⟨_, List.mem_flatMap.mpr ⟨f, (List.mem_filter.mp hf).1, ho⟩, rfl, rfl⟩

/-- What required fields reach is introduced by the statement. -/
theorem introduces_assemble (h : d.required.Reaches qualified) :
    d.assemble.2.Introduces qualified := by
  obtain ⟨hbugs, hnodup⟩ := List.nodup_cons.mp Field.nodup_correlations
  rcases h with howner | ⟨f, hf, o, ho, howner, hlabels⟩
  · refine ⟨⟨_, List.mem_cons_self, howner.symm⟩, ?_⟩
    intro source hsource hcorrelation
    rcases exists_outline_of_mem_sources hsource with rfl | ⟨o, ho, hsame, -⟩
    · simp [Source.labels?]
    · -- No join is called like the bugs.
      have hmem := List.mem_map_of_mem (f := Outline.correlation) ho
      rw [hsame, hcorrelation, howner] at hmem
      exact absurd hmem hbugs
  · have hne : f.outlines ≠ [] := List.ne_nil_of_mem ho
    have horder : f ∈ Field.joinOrder := Field.mem_joinOrder_of_outlines hne
    refine ⟨?_, ?_⟩
    · have hmem : o ∈ d.assemble.2.joins.map Join.outline := by
        rw [outlines_assemble]
        exact List.mem_flatMap.mpr ⟨f, List.mem_filter.mpr ⟨horder, hf⟩, ho⟩
      obtain ⟨join, hjoin, rfl⟩ := List.mem_map.mp hmem
      exact ⟨join.source, List.mem_cons_of_mem _ (List.mem_map_of_mem hjoin), howner⟩
    · intro source hsource hcorrelation labels hsome
      have ho' : o ∈ Field.joinOrder.flatMap Field.outlines := List.mem_flatMap.mpr ⟨f, horder, ho⟩
      rcases exists_outline_of_mem_sources hsource with rfl | ⟨other, hother, hsame, hsame'⟩
      · cases hsome
      · -- Two joins of one name are the same.
        have heq : other = o := List.inj_on_of_nodup_map hnodup hother ho'
          (by rw [hsame, hcorrelation, howner])
        rw [← hsame', heq] at hsome
        exact hlabels labels hsome

/-! ## Filters -/

/-- Whether the column of a clause belongs to the bugs or to a required field. The clause on keywords has
sources of its own. -/
def Located (required : FieldSet) : Clause → Prop
  | .column place _ => ∀ qualified ∈ (Piece.column place).qualified?,
      qualified.1 = "bugs" ∨
        ∃ f, required.contains f = true ∧ f ≠ .quickflag ∧ f.Offers qualified
  | .keyword _ => True

/-- The invariant of compiling. -/
def WellPlaced (d : Draft) : Prop :=
  ∀ clause ∈ d.clauses, Located d.required clause

theorem Located.of_growsTo {clause : Clause} (h : Located d.required clause) (hgrows : d.GrowsTo d') :
    Located d'.required clause := by
  cases clause with
  | column place condition =>
      intro qualified hqualified
      refine (h qualified hqualified).imp id ?_
      rintro ⟨f, hf, hne, hoffers⟩
      exact ⟨f, hgrows.required f hf, hne, hoffers⟩
  | keyword conditions => trivial

/-- A rule that is no filter keeps the invariant. -/
theorem WellPlaced.of_growsTo (h : d.WellPlaced) (hgrows : d.GrowsTo d')
    (hfiltered : d'.filtered = d.filtered) : d'.WellPlaced := by
  intro clause hclause
  have hclauses : d'.clauses = d.clauses := (Prod.mk.inj hfiltered).1
  rw [hclauses] at hclause
  exact (h clause hclause).of_growsTo hgrows

theorem WellPlaced.addClauses (h : d.WellPlaced) {clauses : List Clause}
    (hclauses : ∀ clause ∈ clauses, Located d.required clause) : (d.addClauses clauses).WellPlaced := by
  intro clause hclause
  rcases List.mem_append.mp hclause with hmem | hmem
  · exact h clause hmem
  · exact hclauses clause hmem

/-- The places of all fields but the keywords belong to the bugs or to the joins of the field. -/
theorem offers_places : ∀ entry ∈ Catalog.places, entry.1 ≠ "keywords" →
    ∀ qualified ∈ (Piece.column entry.2).qualified?, qualified.1 = "bugs" ∨
      ∃ f ∈ Field.ofName? entry.1, f ≠ .quickflag ∧ f.Offers qualified := by
  decide +kernel

/-- A filter that writes conditions has made its field required. -/
theorem located_place {name : String} (hname : name ≠ "keywords")
    (hrequired : ∀ f ∈ Field.ofName? name, d.required.contains f = true) (condition : Condition) :
    Located d.required (.column (Catalog.place name) condition) := by
  intro qualified hqualified
  cases hplace : Catalog.places.lookup name with
  | none =>
      rw [Catalog.place, hplace] at hqualified
      cases hqualified
  | some column =>
      rw [Catalog.place, hplace] at hqualified
      refine (offers_places _ (mem_of_lookup hplace) hname qualified hqualified).imp id ?_
      rintro ⟨f, hf, hne, hoffers⟩
      exact ⟨f, hrequired f hf, hne, hoffers⟩

theorem required_filterField {now : Int} {name value : String} {kind : Kind}
    (h : (d.filterField now name value kind).2 ≠ []) {f : Field} (hf : Field.ofName? name = some f) :
    (d.filterField now name value kind).1.required.contains f = true := by
  rcases d.filterField_cases now name value kind with ⟨-, -, hnil⟩ | ⟨r, -, -, hrequired, -⟩
  · exact absurd hnil h
  · rw [hrequired, FieldSet.insertName, hf]
    simp

theorem WellPlaced.filterField (h : d.WellPlaced) (now : Int) (name value : String) (kind : Kind) :
    (d.filterField now name value kind).1.WellPlaced := by
  obtain ⟨more, hkept, -⟩ := d.exists_filterField now name value kind
  intro clause hclause
  rw [(Prod.mk.inj hkept).1] at hclause
  exact (h clause hclause).of_growsTo (d.growsTo_filterField now name value kind)

theorem WellPlaced.addFilter (h : d.WellPlaced) (now : Int) {name : String} (value : String)
    {kind : Kind} (hname : name = "keywords" → kind = .fieldKeywords) :
    (d.addFilter now name value kind).WellPlaced := by
  refine (h.filterField now name value kind).addClauses ?_
  intro clause hclause
  obtain ⟨condition, hcondition, rfl⟩ := List.mem_map.mp hclause
  have hne : (d.filterField now name value kind).2 ≠ [] := List.ne_nil_of_mem hcondition
  refine located_place ?_ (fun f hf => required_filterField hne hf) condition
  -- The values of the keywords parameter do not restrict by themselves.
  intro hkeywords
  rw [hname hkeywords] at hne
  exact hne rfl

theorem WellPlaced.applyPair (h : d.WellPlaced) (hcustom : d.custom.holds "keywords" = false)
    (now : Int) (pair : String) : (d.applyPair now pair).WellPlaced := by
  apply applyPair_cases (motive := fun d' _ => d'.WellPlaced) d now pair
  · intro told
    exact h.of_growsTo (growsTo_warn d _) rfl
  · intro name rest _ hholds _
    have hadded : (d.addCustomField name).WellPlaced :=
      h.of_growsTo (growsTo_addCustomField d name) (filtered_addCustomField name)
    refine hadded.addFilter now _ ?_
    rintro rfl
    rw [hcustom] at hholds
    cases hholds
  · intro name rest kind _ hkind
    refine h.addFilter now _ fun heq => ?_
    rw [heq] at hkind
    exact (Option.some.inj hkind).symm

/-- One parameter keeps the invariant. -/
theorem WellPlaced.applyParameter (h : d.WellPlaced) (hcustom : d.custom.holds "keywords" = false)
    (now : Int) {name value : String} {kind : Kind} (hkind : kind? name = some kind) :
    (d.applyParameter now (name, kind, value)).WellPlaced := by
  unfold Draft.applyParameter
  dsimp only
  split
  · -- The pairs do not change what a custom field is.
    have hpairs := List.foldlRecOn (motive := fun d' : Draft => d.GrowsTo d' ∧ d'.WellPlaced)
      (Text.partsSeq "%26" value) (Draft.applyPair now) ⟨.refl d, h⟩
    refine (hpairs fun d' hd' pair _ => ⟨hd'.1.trans (growsTo_applyPair d' now pair), ?_⟩).2
    exact hd'.2.applyPair (by rw [hd'.1.custom]; exact hcustom) now pair
  · refine (h.filterField now name value .field).addClauses ?_
    intro clause hclause
    rw [List.mem_singleton.mp hclause]
    trivial
  · refine h.addFilter now value fun heq => ?_
    rw [heq] at hkind
    exact (Option.some.inj hkind).symm

theorem WellPlaced.applySearch (h : d.WellPlaced) : d.applySearch.WellPlaced := by
  unfold Draft.applySearch
  split
  next text _ =>
    have hbound : ({ d with values := d.values ++ ["%" ++ text ++ "%"] } : Draft).WellPlaced := h
    refine hbound.addClauses ?_
    intro clause hclause
    rw [List.mem_singleton.mp hclause]
    intro qualified hqualified
    cases hqualified
  · exact h

/-! ## The parts of the statement -/

/-- A part resolves when what it names is introduced by itself or reached by the required fields. -/
theorem resolves_assemble_of_reaches {part : List Piece}
    (h : ∀ qualified ∈ qualifiedNames part,
      qualified.1 ∈ introducedNames part ∨ d.required.Reaches qualified) :
    d.assemble.2.Resolves part :=
  fun qualified hqualified => (h qualified hqualified).imp id introduces_assemble

theorem resolves_items (d : Draft) : ∀ item ∈ d.items, d.assemble.2.Resolves item.pieces := by
  have hbugs (name label : String) :
      d.assemble.2.Resolves (Item.ofColumn "bugs" name label).pieces := by
    apply resolves_assemble_of_reaches
    intro qualified hqualified
    rw [List.mem_singleton.mp hqualified]
    exact .inr (.inl rfl)
  intro item hitem
  rcases List.mem_append.mp hitem with hfield | hcustom
  · rcases List.mem_cons.mp hfield with rfl | hfield
    · exact hbugs _ _
    · obtain ⟨f, hf, hitem⟩ := List.mem_flatMap.mp hfield
      apply resolves_assemble_of_reaches
      intro qualified hqualified
      refine (f.offers_items _ item hitem qualified hqualified).imp id ?_
      refine Or.imp id fun hoffers => ⟨f, ?_, hoffers⟩
      obtain ⟨o, ho, -⟩ := hoffers
      exact FieldSet.joinsField_of_selects (List.mem_filter.mp hf).2 (List.ne_nil_of_mem ho)
  · obtain ⟨i, -, rfl⟩ := List.mem_map.mp hcustom
    exact hbugs _ _

/-- The condition of a join is that of a field which is joined. -/
theorem exists_outline_of_mem_joins {join : Join} (h : join ∈ d.assemble.2.joins) :
    ∃ f, d.required.joinsField f = true ∧ join.outline ∈ f.outlines := by
  have houtline : join.outline ∈ d.assemble.2.joins.map Join.outline := List.mem_map_of_mem h
  rw [outlines_assemble] at houtline
  obtain ⟨f, hf, ho⟩ := List.mem_flatMap.mp houtline
  exact ⟨f, (List.mem_filter.mp hf).2, ho⟩

theorem resolves_conditions (d : Draft) :
    ∀ join ∈ d.assemble.2.joins, d.assemble.2.Resolves join.condition := by
  intro join hjoin
  obtain ⟨f, hf, ho⟩ := exists_outline_of_mem_joins hjoin
  apply resolves_assemble_of_reaches
  intro qualified hqualified
  refine .inr ((f.offers_conditions _ ho qualified hqualified).imp id ?_)
  exact fun hoffers => ⟨f, hf, hoffers⟩

theorem WellPlaced.resolves_clauses (h : d.WellPlaced) :
    ∀ clause ∈ d.clauses, d.assemble.2.Resolves clause.pieces := by
  intro clause hclause
  have hlocated := h clause hclause
  apply resolves_assemble_of_reaches
  rintro ⟨owner, name⟩ hqualified
  cases clause with
  | keyword conditions => exact (Clause.owner_of_mem_keyword hqualified).imp id .inl
  | column place condition =>
      have hplace := Condition.eq_of_column_mem (mem_qualifiedNames.mp hqualified)
      refine .inr ((hlocated (owner, name) (by rw [← hplace]; rfl)).imp id ?_)
      rintro ⟨f, hf, hne, hoffers⟩
      exact ⟨f, FieldSet.joinsField_of_contains hf hne, hoffers⟩

theorem resolves_summedPieces (d : Draft) :
    d.assemble.2.Resolves (Statement.summedPieces (d.required.contains .work)) := by
  apply resolves_assemble_of_reaches
  cases hwork : d.required.contains .work with
  | false => simp [Statement.summedPieces, qualifiedNames]
  | true =>
      have hoffers : ∀ qualified ∈ qualifiedNames (Statement.summedPieces true),
          qualified.1 = "bugs" ∨ Field.work.Offers qualified := by decide
      intro qualified hqualified
      refine .inr ((hoffers qualified hqualified).imp id fun h => ⟨.work, ?_, h⟩)
      exact FieldSet.joinsField_of_contains hwork (by decide)

/-- Every part resolves. -/
theorem WellPlaced.resolves_scopedParts (h : d.WellPlaced) :
    ∀ part ∈ d.assemble.2.scopedParts, d.assemble.2.Resolves part :=
  Statement.forall_mem_scopedParts d.resolves_items d.resolves_conditions h.resolves_clauses
    d.resolves_summedPieces

theorem Sound.vetted_scopedParts (h : d.Sound) :
    ∀ part ∈ d.assemble.2.scopedParts, ∀ piece ∈ part, piece.isVetted = true := by
  have hregular := h.regular_assemble
  refine Statement.forall_mem_scopedParts (fun item hitem => (hregular.items item hitem).leads.vetted)
    (fun join hjoin => ?_) (fun clause hclause => ?_) ?_
  · obtain ⟨f, -, ho⟩ := exists_outline_of_mem_joins hjoin
    exact f.isVetted_conditions _ ho
  · obtain ⟨pending, hclause⟩ := (hregular.clauses clause hclause).trailing 0 false
    exact hclause.vetted
  · obtain ⟨pending, hsummed⟩ := Statement.trailing_summedPieces d.assemble.2.summed 0 false
    exact hsummed.vetted

end Draft

/-! ## Requests -/

theorem CustomFields.holds_keywords {store : Store}
    (hstart : store.get? "customprefix" = default? "customprefix")
    (hfields : store.get? "customfields" = none) :
    (CustomFields.ofStore store).holds "keywords" = false := by
  have hcf : (store.get? "customprefix").getD "" = "cf_" := by
    rw [hstart]
    decide
  have hlisted : store.present? "customfields" = none := by
    rw [Store.present?, hfields]
    rfl
  have hheading : (Catalog.heading? "keywords").isNone = false := by decide
  have hother : Text.startsWith "cf_" "keywords" = false := by decide
  simp [holds, ofStore, hcf, hlisted, hheading, hother]

theorem wellPlaced_drafted {store : Store}
    (h : (CustomFields.ofStore store).holds "keywords" = false) (now : Int) :
    (drafted store now).WellPlaced := by
  have hstart : (Draft.start store).WellPlaced := by simp [Draft.WellPlaced, Draft.start]
  refine drafted_induction hstart .of_growsTo ?_ .applySearch
  intro d name kind value hd hgrows hkind _
  have hcustom : d.custom.holds "keywords" = false := by
    rw [hgrows.custom]
    exact h
  exact hd.applyParameter hcustom now hkind

/-- Unless a request says which fields are custom, every qualified name in the select list, in the
conditions of the joins and in the conditions on the rows has its owner introduced: by the joins of the
statement, which select the name if they are derived tables, or by the sub-select that it stands in. Only
these names are written with points in them. -/
theorem names_resolve (store : Store) (now : Int)
    (hstart : store.get? "customprefix" = default? "customprefix")
    (hfields : store.get? "customfields" = none) :
    ∀ part ∈ (compile store now).query.statement.scopedParts,
      (compile store now).query.statement.Resolves part ∧
      ∀ naming : Naming, naming.Avoids ['.'] → ∀ piece ∈ part, '.' ∈ (piece.write naming).toList →
        ∃ owner name, piece = .column (.of owner name) := by
  have hplaced := wellPlaced_drafted (CustomFields.holds_keywords hstart hfields) now
  rw [statement_compile]
  intro part hpart
  refine ⟨hplaced.resolves_scopedParts part hpart, ?_⟩
  intro naming hnaming piece hpiece hpoint
  exact Piece.qualified_of_point_mem ((sound_drafted store now).vetted_scopedParts part hpart piece hpiece)
    hnaming hpoint

/-- Filters on both sides of the keywords, inside of joins, and on a column without a heading. -/
theorem names_resolve_combined :
    ("keyworddefs", "name") ∈ (compile (Store.empty.applyLines ["keywords=a,!b", "cc=x", "flag=y",
        "depends=1", "implicitcustom=true", "filters=team%3Dz%26to%3Dw"]).1
          0).query.statement.scopedParts.flatMap qualifiedNames ∧
    ∀ part ∈ (compile (Store.empty.applyLines ["keywords=a,!b", "cc=x", "flag=y", "depends=1",
        "implicitcustom=true", "filters=team%3Dz%26to%3Dw"]).1 0).query.statement.scopedParts,
      (compile (Store.empty.applyLines ["keywords=a,!b", "cc=x", "flag=y", "depends=1",
        "implicitcustom=true", "filters=team%3Dz%26to%3Dw"]).1 0).query.statement.Resolves part :=
  ⟨by decide +kernel,
    fun part hpart => (names_resolve _ 0 (by decide +kernel) (by decide +kernel) part hpart).1⟩

end BugReport
