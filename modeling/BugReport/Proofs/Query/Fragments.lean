import BugReport.Proofs.Filter.Numbering
import BugReport.Proofs.Sql.OrderClause
import BugReport.Query.Joins
import BugReport.Query.Order
import BugReport.Query.Select

/-! # Fields as fragments

Whatever a request asks for, the items, joins and order keys of its statement are written from the
tables of this library and from checked names. Joins hold the slots of the values that are bound inside
of them, in the order of the joins.
-/

namespace BugReport

open Sql

/-! ## The catalog -/

theorem mem_of_lookup {β : Type} {entries : List (String × β)} {name : String} {value : β}
    (h : entries.lookup name = some value) : (name, value) ∈ entries := by
  obtain ⟨before, after, rfl, -⟩ := List.lookup_eq_some_iff.mp h
  exact List.mem_append_right _ List.mem_cons_self

namespace Catalog

theorem isVetted_places : ∀ entry ∈ places, (Piece.column entry.2).isVetted = true := by
  decide +kernel

/-- The place of a field is vetted when the name of the field may stand for itself. -/
theorem isVetted_place {name : String} (h : isIdentifier name.toList = true) :
    (Piece.column (place name)).isVetted = true := by
  unfold place
  cases hlookup : places.lookup name with
  | none => simpa [Piece.isVetted, Column.bare] using h
  | some column => exact isVetted_places _ (mem_of_lookup hlookup)

theorem sortable_sortExpressions : ∀ entry ∈ sortExpressions, Sortable entry.2 := by
  decide +kernel

theorem sortable_places : ∀ entry ∈ places, Sortable [.column entry.2] := by
  decide +kernel

theorem sortable_sortExpression? {column : String} {expression : List Piece}
    (h : sortExpression? column = some expression) : Sortable expression := by
  rw [sortExpression?, Option.orElse_eq_orElse, Option.orElse_eq_or] at h
  rcases Option.or_eq_some_iff.mp h with hexpression | ⟨-, hplace⟩
  · exact sortable_sortExpressions _ (mem_of_lookup hexpression)
  · obtain ⟨place, hlookup, rfl⟩ := Option.map_eq_some_iff.mp hplace
    exact sortable_places _ (mem_of_lookup hlookup)

end Catalog

/-! ## Items -/

theorem Field.fixed_items (f : Field) (person : PersonName) :
    ∀ item ∈ f.items person, Fixed item.pieces := by
  have hall : ∀ f ∈ Field.all, ∀ item ∈ f.items .login ++ f.items .real, Fixed item.pieces := by
    decide +kernel
  intro item hitem
  apply hall f f.mem_all
  cases person with
  | login => exact List.mem_append_left _ hitem
  | real => exact List.mem_append_right _ hitem

theorem FieldSet.fixed_items (required : FieldSet) (person : PersonName) :
    ∀ item ∈ required.items person, Fixed item.pieces := by
  intro item hitem
  obtain ⟨f, -, hf⟩ := List.mem_flatMap.mp hitem
  exact f.fixed_items person item hf

/-- The item of a custom field. -/
theorem fixed_customItem (i : Identifier) :
    Fixed (Item.ofColumn "bugs" i.text i.text).pieces := by
  have hbugs : isIdentifier "bugs".toList = true := by decide
  refine Item.fixed_ofColumn ?_ i.valid
  simp only [Piece.isVetted, Column.of, Option.all_some, hbugs, i.valid, Bool.and_self]

/-! ## Order keys -/

theorem SortEntry.sortable_keyOf? {column : String} {direction : Option Direction} {key : OrderKey}
    (h : keyOf? column direction = some key) : Sortable key.expression := by
  obtain ⟨i, -, rfl⟩ := Option.map_eq_some_iff.mp h
  cases hexpression : Catalog.sortExpression? column with
  | none => exact .identifier i
  | some expression => exact Catalog.sortable_sortExpression? hexpression

/-- The key of an entry is that of its first word, with the direction that its second word names. -/
theorem SortEntry.compile_fst (entry : String) :
    (SortEntry.compile entry).1 = (Text.wordsOf entry).head?.bind fun column =>
      keyOf? column ((Text.wordsOf entry)[1]?.bind Direction.ofWord?) := by
  unfold SortEntry.compile
  cases hwords : Text.wordsOf entry with
  | nil => rfl
  | cons column rest =>
      simp only [List.head?_cons, Option.bind_some, List.getElem?_cons_succ,
        ← List.head?_eq_getElem?]
      cases hkey : keyOf? column (rest.head?.bind Direction.ofWord?) with
      | none => rfl
      | some key => cases rest.head? <;> rfl

theorem SortEntry.sortable_compile {entry : String} {key : OrderKey}
    (h : (SortEntry.compile entry).1 = some key) : Sortable key.expression := by
  rw [SortEntry.compile_fst] at h
  obtain ⟨column, -, hkey⟩ := Option.bind_eq_some_iff.mp h
  exact sortable_keyOf? hkey

theorem sortable_defaultOrderKey : Sortable defaultOrderKey.expression := by
  decide

theorem sortable_compileOrder (sort : String) :
    ∀ key ∈ (compileOrder sort).1, Sortable key.expression := by
  intro key hkey
  simp only [compileOrder] at hkey
  split at hkey
  · rw [List.mem_singleton.mp hkey]
    exact sortable_defaultOrderKey
  · obtain ⟨compiled, hcompiled, hsome⟩ := List.mem_filterMap.mp hkey
    obtain ⟨entry, -, rfl⟩ := List.mem_map.mp hcompiled
    exact SortEntry.sortable_compile hsome

/-- A direction behind the expression of a key changes nothing. -/
theorem OrderKey.fixed_pieces {key : OrderKey} (h : Fixed key.expression) : Fixed key.pieces := by
  unfold OrderKey.pieces
  cases key.direction with
  | none => simpa using h
  | some direction =>
      have hdirection : Fixed [.text " ", .text direction.keyword] := by
        cases direction <;> decide
      exact ⟨h.leads.append hdirection.leads, by rw [slotsOf_append, h.slots, hdirection.slots]; rfl⟩

/-! ## Joins -/

namespace Field

/-- A join does not look at conditions when its field has no filter inside. -/
theorem joins_of_innerFilter?_none {f : Field} (h : f.innerFilter? = none) (inner : List Piece) :
    f.joins inner = f.joins [] := by
  cases f <;> first | rfl | cases h

theorem fixed_joins_nil (f : Field) : ∀ join ∈ f.joins [], Fixed join.pieces := by
  have hall : ∀ f ∈ Field.all, ∀ join ∈ f.joins [], Fixed join.pieces := by decide +kernel
  exact hall f f.mem_all

/-- The order inside of a dependency. -/
theorem trailing_dependencyOrder {other : String} (h : isIdentifier other.toList = true) :
    Trailing [.text " ORDER BY ", .column (.of other "priority")] := by
  have horder : Leads ⟨0, true⟩ [.text " ORDER BY "] ⟨0, false⟩ := by decide
  have hcolumn : (Piece.column (.of other "priority")).isVetted = true := by
    have hpriority : isIdentifier "priority".toList = true := by decide
    simp only [Piece.isVetted, Column.of, Option.all_some, h, hpriority, Bool.and_self]
  exact (horder.cons (Leads.column hcolumn 0)).trailing (List.cons_ne_nil _ _)

/-- The joins of a field are whole whatever conditions stand inside of them. -/
theorem whole_joins (f : Field) {inner : List Piece} (h : Trailing inner) :
    ∀ join ∈ f.joins inner, Whole join.pieces := by
  intro join hjoin
  have hwhere : Leads ⟨0, true⟩ [.text " WHERE 1=1"] ⟨0, false⟩ := by decide
  have hfiltered : Trailing ([.text " WHERE 1=1"] ++ inner) :=
    (hwhere.trailing (List.cons_ne_nil _ _)).append h
  cases hfilter : f.innerFilter? with
  | none =>
      rw [joins_of_innerFilter?_none hfilter] at hjoin
      exact (f.fixed_joins_nil join hjoin).whole
  | some filter =>
      cases f with
      | blocks | depends =>
          -- The conditions stand in the middle, between the sources and the order.
          rw [List.mem_singleton.mp hjoin]
          obtain ⟨pending, hinner⟩ := hfiltered 1 false
          exact Join.whole_derived (by decide) (by decide)
            (.append (q := ⟨1, false⟩) (by decide) hinner)
            (trailing_dependencyOrder (by decide)) (by decide) (by decide)
      | cc =>
          rw [List.mem_singleton.mp hjoin]
          exact Join.whole_derived (b := false) (by decide) (by decide)
            (by decide) hfiltered (by decide) (by decide)
      | flag =>
          rw [List.mem_singleton.mp hjoin]
          exact Join.whole_derived (b := true) (by decide) (by decide)
            (by decide) h (by decide) (by decide)
      | _ => cases hfilter

/-- The slots of a field's joins are those of the conditions inside. -/
theorem slotsOf_joins (f : Field) (conditions : List Condition)
    (h : f.innerFilter? = none → conditions = []) :
    slotsOf ((f.joins (f.innerPieces conditions)).flatMap Join.pieces) =
      conditions.flatMap Condition.slots := by
  cases hfilter : f.innerFilter? with
  | none =>
      rw [joins_of_innerFilter?_none hfilter, h hfilter, slotsOf_flatMap]
      exact List.flatMap_eq_nil_iff.mpr fun join hjoin => (f.fixed_joins_nil join hjoin).slots
  | some filter =>
      cases f with
      | blocks | depends =>
          simp [joins, dependencyJoin, Join.pieces, Source.pieces, Item.pieces, Item.ofColumn,
            equation, innerPieces, innerFilter?, Piece.slotNumber?]
      | cc =>
          simp [joins, copiesJoin, Join.pieces, Source.pieces, Item.pieces, Item.ofColumn,
            equation, innerPieces, innerFilter?, Piece.slotNumber?]
      | flag =>
          simp [joins, flagsJoin, Join.pieces, Source.pieces, Item.pieces, Item.ofColumn,
            equation, innerPieces, innerFilter?, Piece.slotNumber?]
      | _ => cases hfilter

theorem trailing_innerPieces (f : Field) (conditions : List Condition) :
    Trailing (f.innerPieces conditions) := by
  unfold innerPieces
  split
  next column _ hfilter =>
      have hcolumn : (Piece.column column).isVetted = true := by
        cases f <;> cases hfilter <;> decide
      exact Condition.trailing_listPieces hcolumn conditions
  · exact fun depth pending => ⟨pending, .nil _⟩

/-- The restriction inside of a join takes the slots behind the ones that were taken before. -/
theorem numbered_innerRestriction (f : Field) (store : Store) (bound : Nat) :
    (f.innerRestriction store bound).Numbered bound := by
  unfold innerRestriction
  split
  · split
    · exact Restriction.numbered_ofMatch bound _
    · exact Restriction.numbered_none bound
  · exact Restriction.numbered_none bound

theorem conditions_innerRestriction {f : Field} (h : f.innerFilter? = none) (store : Store)
    (bound : Nat) : (f.innerRestriction store bound).conditions = [] := by
  simp only [innerRestriction, h]
  rfl

end Field

/-- The joins of a plan hold one slot for each of its values, behind the ones taken before. -/
theorem JoinPlan.slotsOf_ofFields (store : Store) (bound : Nat) (fields : List Field) :
    slotsOf ((ofFields store bound fields).joins.flatMap Join.pieces) =
      List.range' (bound + 1) (ofFields store bound fields).values.length := by
  induction fields generalizing bound with
  | nil => rfl
  | cons f fields ih =>
      have hslots := f.slotsOf_joins (f.innerRestriction store bound).conditions
        fun hfilter => Field.conditions_innerRestriction hfilter store bound
      have hnumbered := f.numbered_innerRestriction store bound
      simp only [ofFields, List.flatMap_append, slotsOf_append, List.length_append]
      rw [hslots, hnumbered, ih, ← List.range'_append_1]
      congr 2
      omega

theorem JoinPlan.whole_ofFields (store : Store) (bound : Nat) (fields : List Field) :
    ∀ join ∈ (ofFields store bound fields).joins, Whole join.pieces := by
  induction fields generalizing bound with
  | nil => simp [ofFields]
  | cons f fields ih =>
      intro join hjoin
      rcases List.mem_append.mp hjoin with hmem | hmem
      · exact f.whole_joins (f.trailing_innerPieces _) join hmem
      · exact ih _ join hmem

end BugReport
