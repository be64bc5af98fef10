import BugReport.Proofs.Sql.Regular
import BugReport.Proofs.Text.Parts

/-! # The scope of qualified columns

A qualified column belongs to a source of its statement, or of a sub-select that it stands in. Of a
derived table only the labels of its own select list can be asked for; what columns a table has is not
known here. In vetted pieces a point stands in qualified columns only, so these are all qualified names of
the text.
-/

namespace BugReport.Sql

/-- The owner and the name of a qualified column. -/
def Piece.qualified? : Piece → Option (String × String)
  | column c => c.owner.map fun owner => (owner, c.name)
  | _ => none

/-- The qualified names in pieces. -/
def qualifiedNames (pieces : List Piece) : List (String × String) :=
  pieces.filterMap Piece.qualified?

theorem mem_qualifiedNames {pieces : List Piece} {owner name : String} :
    (owner, name) ∈ qualifiedNames pieces ↔ .column (.of owner name) ∈ pieces := by
  rw [qualifiedNames, List.mem_filterMap]
  constructor
  · rintro ⟨piece, hpiece, hqualified⟩
    cases piece with
    | column c =>
        obtain ⟨owner?, other⟩ := c
        obtain ⟨owner', rfl, heq⟩ := Option.map_eq_some_iff.mp hqualified
        cases heq
        exact hpiece
    | _ => cases hqualified
  · exact fun h => ⟨_, h, rfl⟩

/-- The correlation names that pieces introduce in sub-selects. -/
def introducedNames (pieces : List Piece) : List String :=
  pieces.filterMap fun
    | .source _ correlation => some correlation
    | _ => none

/-- The labels that a derived table selects. -/
def Source.labels? : Source → Option (List String)
  | table _ _ => none
  | derived items _ _ => some (items.map Item.label)

namespace Statement

/-- Whether a qualified name belongs to the sources of a statement: there is a source of its owner's name,
and if that is a derived table, it selects the name. -/
def Introduces (s : Statement) (qualified : String × String) : Prop :=
  (∃ source ∈ s.sources, source.correlation = qualified.1) ∧
    ∀ source ∈ s.sources, source.correlation = qualified.1 →
      ∀ labels ∈ source.labels?, qualified.2 ∈ labels

/-- Whether every qualified name in a part of a statement has its owner introduced: by a sub-select in
this part, or by the sources of the statement. -/
def Resolves (s : Statement) (part : List Piece) : Prop :=
  ∀ qualified ∈ qualifiedNames part, qualified.1 ∈ introducedNames part ∨ s.Introduces qualified

/-- The entries of the select list, the conditions of the joins, and the conditions on the rows. -/
def scopedParts (s : Statement) : List (List Piece) :=
  s.items.map Item.pieces ++ s.joins.map Join.condition ++
    (s.clauses.map Clause.pieces ++ [summedPieces s.summed])

theorem forall_mem_scopedParts {s : Statement} {motive : List Piece → Prop}
    (hitems : ∀ item ∈ s.items, motive item.pieces) (hjoins : ∀ join ∈ s.joins, motive join.condition)
    (hclauses : ∀ clause ∈ s.clauses, motive clause.pieces) (hsummed : motive (summedPieces s.summed)) :
    ∀ part ∈ s.scopedParts, motive part := by
  intro part hpart
  simp only [scopedParts, List.mem_append, List.mem_map, List.mem_singleton] at hpart
  rcases hpart with (⟨item, hitem, rfl⟩ | ⟨join, hjoin, rfl⟩) | ⟨clause, hclause, rfl⟩ | rfl
  · exact hitems item hitem
  · exact hjoins join hjoin
  · exact hclauses clause hclause
  · exact hsummed

end Statement

/-! ## Conditions -/

/-- A condition names its own column only. -/
theorem Condition.eq_of_column_mem {column c : Column} {condition : Condition}
    (h : .column c ∈ condition.pieces column) : c = column := by
  have hcomparison {comparison : Comparison} (hc : .column c ∈ comparison.pieces column) :
      c = column := by
    simpa [Comparison.pieces] using hc
  have hlist {separator : String} {comparisons : List Comparison}
      (hc : .column c ∈ separated separator (comparisons.map (·.pieces column))) : c = column := by
    rcases Text.mem_intercalate hc with hseparator | ⟨group, hgroup, hmem⟩
    · cases List.mem_singleton.mp hseparator
    · obtain ⟨comparison, -, rfl⟩ := List.mem_map.mp hgroup
      exact hcomparison hmem
  cases condition with
  | isNull | isNotNull | isPositive => simpa [pieces] using h
  | single comparison =>
      rw [pieces, List.mem_cons] at h
      rcases h with heq | hmem
      · cases heq
      · exact hcomparison hmem
  | any comparisons | all comparisons =>
      rw [pieces, List.cons_append, List.mem_cons, List.mem_append] at h
      rcases h with heq | hmem | hclose
      · cases heq
      · exact hlist hmem
      · cases List.mem_singleton.mp hclose

/-- The clause on keywords names the bugs and its own sources. -/
theorem Clause.owner_of_mem_keyword {conditions : List Condition} {qualified : String × String}
    (h : qualified ∈ qualifiedNames (Clause.keyword conditions).pieces) :
    qualified.1 ∈ introducedNames (Clause.keyword conditions).pieces ∨ qualified.1 = "bugs" := by
  obtain ⟨owner, name⟩ := qualified
  have hkeywords : "keywords" ∈ introducedNames (Clause.keyword conditions).pieces := by
    simp [pieces, introducedNames]
  have hkeyworddefs : "keyworddefs" ∈ introducedNames (Clause.keyword conditions).pieces := by
    simp [pieces, introducedNames]
  rw [mem_qualifiedNames] at h
  simp only [pieces, equation, Column.of, Condition.listPieces, List.mem_append, List.mem_cons,
    List.mem_flatMap, List.not_mem_nil, or_false, reduceCtorEq, false_or, Piece.column.injEq,
    Column.mk.injEq, Option.some.injEq] at h
  have howner : owner = "keywords" ∨ owner = "keyworddefs" ∨ owner = "bugs" := by
    rcases h with hfixed | ⟨condition, -, hcondition⟩
    · tauto
    · cases Condition.eq_of_column_mem hcondition
      exact .inr (.inl rfl)
  rcases howner with rfl | rfl | rfl
  · exact .inl hkeywords
  · exact .inl hkeyworddefs
  · exact .inr rfl

/-! ## Points -/

theorem point_not_mem_fixedTexts : ∀ s ∈ fixedTexts, '.' ∉ s.toList := by
  decide

theorem point_not_mem_fixedLiterals : ∀ s ∈ fixedLiterals, '.' ∉ s.toList := by
  decide

/-- A vetted piece writes a point only if it is a qualified column, or if a table has one in its name. -/
theorem Piece.qualified_of_point_mem {piece : Piece} {naming : Naming}
    (hvetted : piece.isVetted = true) (hnaming : naming.Avoids ['.'])
    (h : '.' ∈ (piece.write naming).toList) : ∃ owner name, piece = .column (.of owner name) := by
  have htable (t : Table) : '.' ∉ (naming.tableName t.name).toList :=
    fun hmem => hnaming t '.' hmem List.mem_cons_self
  have hname {s : String} (hs : isIdentifier s.toList = true) : '.' ∉ s.toList :=
    not_mem_identifier hs (by decide)
  cases piece with
  | text s =>
      simp only [isVetted, Bool.or_eq_true, List.contains_iff_mem] at hvetted
      rcases hvetted with hidentifier | hfixed
      · exact absurd h (hname hidentifier)
      · exact absurd h (point_not_mem_fixedTexts s hfixed)
  | literal s =>
      have hs := point_not_mem_fixedLiterals s (List.contains_iff_mem.mp hvetted)
      simp [write, hs] at h
  | column c =>
      obtain ⟨owner, name⟩ := c
      cases owner with
      | some owner => exact ⟨owner, name, rfl⟩
      | none =>
          simp only [isVetted, Bool.and_eq_true] at hvetted
          exact absurd h (hname hvetted.2)
  | identifier i => exact absurd h (hname i.valid)
  | table t => exact absurd h (htable t)
  | source t correlation => simp [write, htable t, hname hvetted] at h
  | slot n =>
      have hnumber : '.' ∉ (toString n).toList :=
        fun hmem => absurd (Text.isDigit_of_mem_toString hmem) (by decide)
      rw [write, String.toList_append, List.mem_append] at h
      rcases h with hmark | hdigit
      · exact absurd hmark (by decide)
      · exact absurd hdigit hnumber
  | statusField =>
      cases hstatus : naming.statusField with
      | some n =>
          have hnumber : '.' ∉ (toString n).toList :=
            not_mem_toString_int (by decide) (by decide)
          rw [write, hstatus] at h
          exact absurd h hnumber
      | none => simp [write, hstatus, htable] at h

end BugReport.Sql
