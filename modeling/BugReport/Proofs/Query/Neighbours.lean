import BugReport.Proofs.Query.Binding
import BugReport.Proofs.Sql.Neighbours

/-! # Neighbours in compiled statements

The parts of a compiled statement are sealed, each by itself: its items, its joins whatever conditions stand
inside of them, its clauses, and its order. So the whole statement is.
-/

namespace BugReport

open Sql

/-! ## Conditions -/

namespace Sql

theorem Comparison.sealed_pieces (column : Column) (c : Comparison) : Sealed (c.pieces column) := by
  have hoperator : (Piece.text c.operator.text).isQuiet = true := by
    cases c.operator <;> decide
  exact .of_quiet (by simpa [pieces, Piece.isQuiet] using hoperator)

theorem Comparison.sealed_list (column : Column) (comparisons : List Comparison) {separator : String}
    (hseparator : Sealed [.text separator]) :
    Sealed (.text " AND (" :: separated separator (comparisons.map (·.pieces column)) ++ [.text ")"]) := by
  have hopen : Sealed [.text " AND ("] := by decide
  have hclose : Sealed [.text ")"] := by decide
  have hlist : Sealed (separated separator (comparisons.map (·.pieces column))) := by
    refine .separated fun group hgroup => ?_
    obtain ⟨comparison, -, rfl⟩ := List.mem_map.mp hgroup
    have hcomparison := comparison.sealed_pieces column
    exact ⟨hcomparison, hseparator.append hcomparison⟩
  exact (hopen.append hlist).append hclose

theorem Condition.sealed_pieces (column : Column) (condition : Condition) : Sealed (condition.pieces column) := by
  have hand : Sealed [.text " AND "] := by decide
  cases condition with
  | isNull | isNotNull | isPositive => exact .of_quiet (by simp [pieces, Piece.isQuiet]; decide)
  | single c => exact hand.append (c.sealed_pieces column)
  | any cs => exact Comparison.sealed_list column cs (by decide)
  | all cs => exact Comparison.sealed_list column cs (by decide)

theorem Condition.sealed_listPieces (column : Column) (conditions : List Condition) :
    Sealed (listPieces column conditions) :=
  .flatMap fun condition _ => condition.sealed_pieces column

theorem Clause.sealed_pieces (clause : Clause) : Sealed clause.pieces := by
  cases clause with
  | column place condition => exact condition.sealed_pieces place
  | keyword conditions =>
      have hselect : Sealed
          ([.text " AND EXISTS (SELECT ", .column (.of "keywords" "keywordid"), .text " FROM ",
            .source .keywords "keywords", .text " LEFT JOIN ", .source .keyworddefs "keyworddefs",
            .text " ON "] ++ equation (.of "keywords" "keywordid") (.of "keyworddefs" "id") ++
            .text " WHERE " :: equation (.of "keywords" "bug_id") (.of "bugs" "bug_id")) := by decide +kernel
      have hconditions := Condition.sealed_listPieces (.of "keyworddefs" "name") conditions
      have hclose : Sealed [.text ")"] := by decide
      simpa [pieces] using (hselect.append hconditions).append hclose

/-! ## Statements -/

namespace Statement

/-- Whether the parts of a statement are sealed. Items stand behind each other's separator. -/
structure Settled (s : Statement) : Prop where
  items : ∀ item ∈ s.items, Sealed item.pieces ∧ Sealed (.text ", " :: item.pieces)
  joins : ∀ join ∈ s.joins, Sealed join.pieces
  order : ∀ key ∈ s.order, Sealed key.expression

variable {s : Statement}

theorem sealed_direction (direction : Direction) : Sealed [.text " ", .text direction.keyword] := by
  cases direction <;> decide

theorem Settled.sealed_orderPieces (h : s.Settled) : Sealed s.orderPieces := by
  have horder : Sealed [.text " ORDER BY "] := by decide
  have hcomma : Sealed [.text ","] := by decide
  have hkey : ∀ key ∈ s.order, Sealed key.pieces := by
    intro key hkey
    unfold OrderKey.pieces
    cases key.direction with
    | none => simpa using h.order key hkey
    | some direction => exact (h.order key hkey).append (sealed_direction direction)
  have hkeys : Sealed (separated "," (s.order.map OrderKey.pieces)) := by
    refine .separated fun group hgroup => ?_
    obtain ⟨key, hmem, rfl⟩ := List.mem_map.mp hgroup
    exact ⟨hkey key hmem, hcomma.append (hkey key hmem)⟩
  exact (horder.append hkeys).append (sealed_direction s.direction)

theorem Settled.sealed_listPieces (h : s.Settled) : Sealed s.listPieces := by
  have hselect : Sealed [.text "SELECT DISTINCT "] := by decide
  have hitems : Sealed (separated ", " (s.items.map Item.pieces)) := by
    refine .separated fun group hgroup => ?_
    obtain ⟨item, hmem, rfl⟩ := List.mem_map.mp hgroup
    exact h.items item hmem
  have hfrom : Sealed [.text " FROM ", .source .bugs "bugs"] := by decide
  have hjoins : Sealed (s.joins.flatMap Join.pieces) := .flatMap h.joins
  have hwhere : Sealed [.text " WHERE 1=1"] := by decide
  have hclauses : Sealed (s.clauses.flatMap Clause.pieces) := .flatMap fun clause _ => clause.sealed_pieces
  have hsummed : Sealed (summedPieces s.summed) := by
    cases s.summed <;> decide
  have hall := (((((hselect.append hitems).append hfrom).append hjoins).append
    (hwhere.append hclauses)).append hsummed).append h.sealed_orderPieces
  simpa [listPieces] using hall

theorem Settled.sealed_pieces (h : s.Settled) : Sealed s.pieces := by
  have hend : Sealed [.text ";"] := by decide
  unfold pieces
  split
  · have hcount : Sealed [.text "SELECT COUNT(DISTINCT(id)) AS count FROM ("] := by decide
    have hclose : Sealed [.text ") AS b", .text ";"] := by decide
    exact (hcount.append h.sealed_listPieces).append hclose
  · exact h.sealed_listPieces.append hend

end Statement

end Sql

/-! ## Fields -/

theorem Field.sealed_items (f : Field) (person : PersonName) :
    ∀ item ∈ f.items person, Sealed item.pieces ∧ Sealed (.text ", " :: item.pieces) := by
  have hall : ∀ f ∈ Field.all, ∀ item ∈ f.items .login ++ f.items .real,
      Sealed item.pieces ∧ Sealed (.text ", " :: item.pieces) := by
    decide +kernel
  intro item hitem
  apply hall f f.mem_all
  cases person with
  | login => exact List.mem_append_left _ hitem
  | real => exact List.mem_append_right _ hitem

theorem sealed_customItem (i : Identifier) :
    Sealed (Item.ofColumn "bugs" i.text i.text).pieces ∧
      Sealed (.text ", " :: (Item.ofColumn "bugs" i.text i.text).pieces) := by
  have hlabel : (Piece.text i.text).isQuiet = true := by
    have hblank : ' ' ∉ i.text.toList := not_mem_identifier i.valid (by decide)
    simp [Piece.isQuiet, canEndMark_of_blank_not_mem (ne_nil_of_isIdentifier i.valid) hblank]
  have hstart : (Piece.column (.of "bugs" i.text)).canStartTable = false := by
    have htext : (Column.of "bugs" i.text).text.toList = "bugs.".toList ++ i.text.toList := by
      simp [Column.of, Column.text]
    rw [Piece.canStartTable, htext]
    rfl
  have hrest : Sealed [.text " AS ", .text i.text] :=
    .of_quiet (by simpa using ⟨by decide, hlabel⟩)
  exact ⟨(Sealed.of_isQuiet rfl).append hrest, (Sealed.of_canStartTable rfl hstart).append hrest⟩

theorem Draft.sealed_items (d : Draft) :
    ∀ item ∈ d.items, Sealed item.pieces ∧ Sealed (.text ", " :: item.pieces) := by
  intro item hitem
  rcases List.mem_cons.mp hitem with rfl | hitem
  · decide
  rcases List.mem_append.mp hitem with hmem | hmem
  · obtain ⟨f, -, hf⟩ := List.mem_flatMap.mp hmem
    exact f.sealed_items _ item hf
  · obtain ⟨i, -, rfl⟩ := List.mem_map.mp hmem
    exact sealed_customItem i

/-! ## Joins -/

theorem Sql.Join.sealed_derived {kind : JoinKind} {items : List Item} {body condition : List Piece}
    {correlation : String} (hkind : kind ≠ .cross) (hitems : Sealed (separated ", " (items.map Item.pieces)))
    (hbody : Sealed body) (hcorrelation : Sealed [.text correlation]) (hcondition : Sealed condition) :
    Sealed (Join.pieces ⟨kind, .derived items body correlation, condition⟩) := by
  have has : Sealed [.text ") AS "] := by decide
  have hon : Sealed [.text " ON "] := by decide
  have hsource := ((hitems.append hbody).append (has.append hcorrelation)).append (hon.append hcondition)
  cases kind with
  | cross => exact absurd rfl hkind
  | left =>
      have hopen : Sealed [.text " LEFT JOIN ", .text "(SELECT "] := by decide
      simpa [pieces, Source.pieces] using hopen.append hsource
  | inner =>
      have hopen : Sealed [.text " INNER JOIN ", .text "(SELECT "] := by decide
      simpa [pieces, Source.pieces] using hopen.append hsource

theorem Field.sealed_joins_nil (f : Field) : ∀ join ∈ f.joins [], Sealed join.pieces := by
  have hall : ∀ f ∈ Field.all, ∀ join ∈ f.joins [], Sealed join.pieces := by decide +kernel
  exact hall f f.mem_all

/-- The joins of a field are sealed whatever sealed conditions stand inside of them. -/
theorem Field.sealed_joins (f : Field) {inner : List Piece} (h : Sealed inner) :
    ∀ join ∈ f.joins inner, Sealed join.pieces := by
  intro join hjoin
  have hfiltered : Sealed ([.text " WHERE 1=1"] ++ inner) := .append (by decide) h
  cases hfilter : f.innerFilter? with
  | none =>
      rw [joins_of_innerFilter?_none hfilter] at hjoin
      exact f.sealed_joins_nil join hjoin
  | some filter =>
      cases f with
      | blocks | depends =>
          rw [List.mem_singleton.mp hjoin]
          refine Join.sealed_derived ?_ ?_ (.append (.append ?_ hfiltered) ?_) ?_ ?_ <;> decide +kernel
      | cc =>
          rw [List.mem_singleton.mp hjoin]
          refine Join.sealed_derived ?_ ?_ (.append ?_ hfiltered) ?_ ?_ <;> decide +kernel
      | flag =>
          rw [List.mem_singleton.mp hjoin]
          refine Join.sealed_derived ?_ ?_ (.append ?_ h) ?_ ?_ <;> decide +kernel
      | _ => cases hfilter

theorem Field.sealed_innerPieces (f : Field) (conditions : List Condition) : Sealed (f.innerPieces conditions) := by
  unfold innerPieces
  split
  next column _ _ => exact Condition.sealed_listPieces column conditions
  · exact .nil

theorem JoinPlan.sealed_ofFields (store : Store) (bound : Nat) (fields : List Field) :
    ∀ join ∈ (ofFields store bound fields).joins, Sealed join.pieces := by
  induction fields generalizing bound with
  | nil => simp [ofFields]
  | cons f fields ih =>
      intro join hjoin
      rcases List.mem_append.mp hjoin with hmem | hmem
      · exact f.sealed_joins (f.sealed_innerPieces _) join hmem
      · exact ih _ join hmem

/-! ## Order -/

theorem Catalog.sealed_sortExpressions : ∀ entry ∈ sortExpressions, Sealed entry.2 := by
  decide +kernel

theorem SortEntry.sealed_keyOf? {column : String} {direction : Option Direction} {key : OrderKey}
    (h : keyOf? column direction = some key) : Sealed key.expression := by
  obtain ⟨i, -, rfl⟩ := Option.map_eq_some_iff.mp h
  cases hexpression : Catalog.sortExpression? column with
  | none => exact .of_isQuiet rfl
  | some expression =>
      rw [Catalog.sortExpression?, Option.orElse_eq_orElse, Option.orElse_eq_or] at hexpression
      rcases Option.or_eq_some_iff.mp hexpression with hlookup | ⟨-, hplace⟩
      · exact Catalog.sealed_sortExpressions _ (mem_of_lookup hlookup)
      · obtain ⟨place, -, rfl⟩ := Option.map_eq_some_iff.mp hplace
        exact .of_isQuiet rfl

theorem sealed_compileOrder (sort : String) : ∀ key ∈ (compileOrder sort).1, Sealed key.expression := by
  intro key hkey
  simp only [compileOrder] at hkey
  split at hkey
  · rw [List.mem_singleton.mp hkey]
    exact .of_isQuiet rfl
  · obtain ⟨compiled, hcompiled, hsome⟩ := List.mem_filterMap.mp hkey
    obtain ⟨entry, -, rfl⟩ := List.mem_map.mp hcompiled
    rw [SortEntry.compile_fst] at hsome
    obtain ⟨column, -, hkeyOf⟩ := Option.bind_eq_some_iff.mp hsome
    exact SortEntry.sealed_keyOf? hkeyOf

/-! ## Requests -/

theorem Draft.settled_assemble (d : Draft) : d.assemble.2.Settled where
  items := d.sealed_items
  joins := JoinPlan.sealed_ofFields _ _ _
  order := sealed_compileOrder _

/-- Every request compiles to a sealed statement. -/
theorem sealed_compile (store : Store) (now : Int) :
    Sealed (compile store now).query.statement.pieces := by
  rw [statement_compile]
  exact (drafted store now).settled_assemble.sealed_pieces

end BugReport
