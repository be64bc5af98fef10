import BugReport.Proofs.Query.Growth
import BugReport.Proofs.Sql.Shown
import BugReport.Proofs.Sql.StatementText

/-! # What each parameter adds to the conditions

With the values in the place of the slots, the conditions of a statement are those of the parameters that are
set, one behind the other in the order of the schema, and then that of the searched text. What a parameter adds
does not depend on what is bound before it. The step is a filter that is added to a draft; the run goes over the
pairs of a parameter and over the schema.
-/

namespace BugReport

open Sql
open Parameter (Kind kind? schema)

/-! ## Restrictions behind others -/

namespace Restriction

def renumber (f : Nat → Nat) (r : Restriction) : Restriction :=
  { r with conditions := r.conditions.map (·.renumber f) }

theorem zipIdx_behind {α : Type} (xs : List α) (bound : Nat) :
    xs.zipIdx (bound + 1) = (xs.zipIdx 1).map fun (x, slot) => (x, bound + slot) := by
  rw [← List.map_snd_add_zipIdx_eq_zipIdx]
  apply List.map_congr_left
  rintro ⟨x, slot⟩ _
  exact congrArg (Prod.mk x) (Nat.add_comm slot bound)

theorem comparisons_behind (bound : Nat) (negated : Bool) (terms : List Term) :
    comparisons bound negated terms = (comparisons 0 negated terms).map (·.renumber (bound + ·)) := by
  rw [comparisons, comparisons, zipIdx_behind, List.map_map, List.map_map]
  rfl

theorem ofMatch_behind (bound : Nat) (value : String) :
    ofMatch bound value = (ofMatch 0 value).renumber (bound + ·) := by
  unfold ofMatch
  cases MatchExpr.parse value with
  | special special => cases special <;> rfl
  | single t => rfl
  | anyOf terms | noneOf terms => rw [ofMatchExpr, comparisons_behind]; rfl

theorem ofBounds_behind (bound : Nat) (bounds : List (Operator × Option String)) :
    ofBounds bound bounds = (ofBounds 0 bounds).renumber (bound + ·) := by
  simp only [ofBounds, renumber, List.map_map, zipIdx_behind _ bound]
  rfl

theorem ofDate_behind (bound : Nat) (now : Int) (column value : String) :
    ofDate bound now column value = (ofDate 0 now column value).renumber (bound + ·) := by
  unfold ofDate
  cases DateExpr.parse value with
  | range low high =>
      simp only [ofDateExpr]
      split
      · exact ofBounds_behind bound _
      · rfl
  | onOrBefore end_ | onOrAfter end_ =>
      simp only [ofDateExpr]
      split
      · exact ofBounds_behind bound _
      · rfl
  | special special => cases special <;> rfl
  | unrecognized text => rfl

end Restriction

namespace Draft

variable {d d' : Draft} {naming : Naming} {now : Int} {name value : String} {kind : Kind}

theorem restriction?_behind (bound : Nat) (now : Int) (name value : String) (kind : Kind) :
    restriction? bound now name value kind =
      (restriction? 0 now name value kind).map (·.renumber (bound + ·)) := by
  cases kind with
  | field | fieldId | fieldDepends => exact congrArg some (Restriction.ofMatch_behind bound value)
  | fieldDate => exact congrArg some (Restriction.ofDate_behind bound now _ value)
  | fieldNumber =>
      simp only [restriction?, Restriction.ofNumber, Option.map_some]
      split <;> rfl
  | _ => rfl

/-! ## What is added -/

section

variable (naming : Naming) (now : Int)

/-- The conditions that a filter adds, with its values. -/
def filterText (name value : String) (kind : Kind) : List Char :=
  match restriction? 0 now name value kind with
  | some r => shown naming r.values
      ((r.conditions.map (.column (Catalog.place name))).flatMap Clause.pieces)
  | none => []

def keywordText (value : String) : List Char :=
  shown naming (Restriction.ofMatch 0 value).values
    (Clause.keyword (Restriction.ofMatch 0 value).conditions).pieces

def pairText (custom : CustomFields) (pair : String) : List Char :=
  match Text.cutSeq "%3D" pair with
  | none => []
  | some (name, rest) =>
    let value := ((Text.cutSeq "%3D" rest).map Prod.fst).getD rest
    if custom.holds name then
      if (Identifier.ofName? name).isSome then filterText naming now name value .field else []
    else
      match kind? name with
      | some kind => if kind.isField then filterText naming now name value kind else []
      | none => []

def parameterText (custom : CustomFields) (parameter : String × Kind × String) : List Char :=
  match parameter with
  | (_, .filters, value) => (Text.partsSeq "%26" value).flatMap (pairText naming now custom)
  | (_, .fieldKeywords, value) => keywordText naming value
  | (name, kind, value) => filterText naming now name value kind

/-- What an entry of the schema adds, if its parameter is set. -/
def entryText (store : Store) (entry : String × Kind) : List Char :=
  match store.present? entry.1 with
  | some value => parameterText naming now (.ofStore store) (entry.1, entry.2, value)
  | none => []

def searchText (store : Store) : List Char :=
  match store.present? "search" with
  | some text => shown naming ["%" ++ text ++ "%"]
      (Clause.column (.bare "short_desc") (.single ⟨.like, 1⟩)).pieces
  | none => []

end

/-! ## One step -/

/-- The conditions of a draft, with its values. -/
def shownClauses (naming : Naming) (d : Draft) : List Char :=
  shown naming d.values (d.clauses.flatMap Clause.pieces)

theorem shownClauses_of_filtered_eq (h : d'.filtered = d.filtered) :
    d'.shownClauses naming = d.shownClauses naming := by
  obtain ⟨hclauses, hvalues⟩ := Prod.mk.inj h
  rw [shownClauses, shownClauses, hclauses, hvalues]

theorem slotsOf_clauses (clauses : List Clause) :
    slotsOf (clauses.flatMap Clause.pieces) = clauses.flatMap Clause.slots := by
  simp

theorem Sound.slots_bound (h : d.Sound) :
    ∀ n ∈ slotsOf (d.clauses.flatMap Clause.pieces), 0 < n ∧ n ≤ d.values.length := by
  intro n hn
  rw [slotsOf_clauses, h.slots] at hn
  obtain ⟨hpos, hlt⟩ := List.mem_range'_1.mp hn
  omega

/-- Clauses behind others add what they show by themselves. -/
theorem shownClauses_addClauses (naming : Naming) (h : d.Sound) {clauses : List Clause} {more : List String}
    (hkept : d'.filtered = (d.clauses, d.values ++ more))
    (hslots : clauses.flatMap Clause.slots = List.range' 1 more.length) :
    (d'.addClauses (clauses.map (·.renumber (d.values.length + ·)))).shownClauses naming =
      d.shownClauses naming ++ shown naming more (clauses.flatMap Clause.pieces) := by
  obtain ⟨hclauses, hvalues⟩ := Prod.mk.inj hkept
  have hbound : ∀ n ∈ slotsOf (clauses.flatMap Clause.pieces), 0 < n ∧ n ≤ more.length := by
    intro n hn
    rw [slotsOf_clauses, hslots] at hn
    obtain ⟨hpos, hlt⟩ := List.mem_range'_1.mp hn
    omega
  have hmore : shown naming (d.values ++ more ++ []) ((clauses.flatMap Clause.pieces).map
      (Piece.renumber (d.values.length + ·))) = shown naming more (clauses.flatMap Clause.pieces) :=
    shown_behind hbound d.values []
  rw [List.append_nil] at hmore
  simp only [shownClauses, addClauses, hclauses, hvalues]
  rw [List.flatMap_append, shown_append, shown_append_texts h.slots_bound, Clause.listPieces_renumber,
    hmore]

theorem filterField_behind (d : Draft) (now : Int) (name value : String) (kind : Kind) :
    (restriction? 0 now name value kind = none ∧
      (d.filterField now name value kind).1.filtered = d.filtered ∧
      (d.filterField now name value kind).2 = []) ∨
    ∃ r, restriction? 0 now name value kind = some r ∧
      (d.filterField now name value kind).1.filtered = (d.clauses, d.values ++ r.values) ∧
      (d.filterField now name value kind).2 = r.conditions.map (·.renumber (d.values.length + ·)) := by
  obtain ⟨more, hkept, -⟩ := d.exists_filterField now name value kind
  obtain ⟨hclauses, -⟩ := Prod.mk.inj hkept
  rcases d.filterField_cases now name value kind with ⟨hnone, hvalues, hconditions⟩ |
    ⟨r, hsome, hvalues, -, hconditions⟩
  · rw [restriction?_behind, Option.map_eq_none_iff] at hnone
    exact .inl ⟨hnone, Prod.ext hclauses hvalues, hconditions⟩
  · rw [restriction?_behind] at hsome
    obtain ⟨r, hr, rfl⟩ := Option.map_eq_some_iff.mp hsome
    exact .inr ⟨r, hr, Prod.ext hclauses hvalues, hconditions⟩

theorem shownClauses_addFilter (h : d.Sound) (now : Int) (name value : String) (kind : Kind) :
    (d.addFilter now name value kind).shownClauses naming =
      d.shownClauses naming ++ filterText naming now name value kind := by
  rcases d.filterField_behind now name value kind with ⟨hnone, hkept, hconditions⟩ |
    ⟨r, hsome, hkept, hconditions⟩
  · have hfiltered : (d.addFilter now name value kind).filtered = d.filtered := by
      rw [← hkept]
      simp [addFilter, hconditions, addClauses, filtered]
    rw [shownClauses_of_filtered_eq hfiltered, filterText, hnone, List.append_nil]
  · have hslots : (r.conditions.map (Clause.column (Catalog.place name))).flatMap Clause.slots =
        List.range' 1 r.values.length := by
      rw [List.flatMap_map]
      exact numbered_of_restriction? hsome
    have hadded := shownClauses_addClauses naming h hkept hslots
    rw [List.map_map] at hadded
    rw [filterText, hsome, ← hadded]
    simp only [addFilter, hconditions, List.map_map]
    rfl

theorem pairText_eq (naming : Naming) (now : Int) (custom : CustomFields) (pair : String) :
    pairText naming now custom pair =
      (pairFilter? custom pair).elim [] fun f => filterText naming now f.name f.value f.kind := by
  unfold pairText pairFilter?
  cases Text.cutSeq "%3D" pair with
  | none => rw [Option.elim_none]
  | some parts =>
      obtain ⟨name, rest⟩ := parts
      dsimp only [pairValue]
      by_cases hholds : custom.holds name = true
      · rw [if_pos hholds, if_pos hholds]
        split
        · rw [Option.elim_some]
        · rw [Option.elim_none]
      · rw [if_neg hholds, if_neg hholds]
        cases kind? name with
        | none => rw [Option.elim_none]
        | some kind =>
            dsimp only
            split
            · rw [Option.elim_some]
            · rw [Option.elim_none]

theorem shownClauses_applyPair (h : d.Sound) (now : Int) (pair : String) :
    (d.applyPair now pair).shownClauses naming =
      d.shownClauses naming ++ pairText naming now d.custom pair := by
  rw [pairText_eq]
  apply applyPair_cases (motive := fun d' filter? => d'.shownClauses naming = d.shownClauses naming ++
    filter?.elim [] fun f => filterText naming now f.name f.value f.kind) d now pair
  · intro told
    rw [Option.elim_none, List.append_nil]
    exact shownClauses_of_filtered_eq (filtered_warn _)
  · intro name rest _ _ _
    have hcustom := filtered_addCustomField (d := d) name
    rw [Option.elim_some, shownClauses_addFilter (h.of_filtered_eq hcustom), shownClauses_of_filtered_eq hcustom]
  · intro name rest kind _ _
    rw [Option.elim_some, shownClauses_addFilter h]

/-- A loop adds what its entries add, if each of its steps does. -/
theorem shownClauses_foldl {α : Type} {f : Draft → α → Draft} (text : CustomFields → α → List Char)
    {xs : List α}
    (hstep : ∀ (d : Draft), ∀ x ∈ xs, d.Sound → (f d x).Sound ∧ (f d x).custom = d.custom ∧
      (f d x).shownClauses naming = d.shownClauses naming ++ text d.custom x)
    (h : d.Sound) :
    (xs.foldl f d).shownClauses naming = d.shownClauses naming ++ xs.flatMap (text d.custom) := by
  induction xs generalizing d with
  | nil => exact (List.append_nil _).symm
  | cons x xs ih =>
      obtain ⟨hsound, hcustom, hadded⟩ := hstep d x List.mem_cons_self h
      rw [List.foldl_cons, ih (fun d y hy => hstep d y (List.mem_cons_of_mem _ hy)) hsound, hcustom,
        hadded, List.flatMap_cons, List.append_assoc]

theorem shownClauses_applyParameter (h : d.Sound) (now : Int) (parameter : String × Kind × String) :
    (d.applyParameter now parameter).shownClauses naming =
      d.shownClauses naming ++ parameterText naming now d.custom parameter := by
  obtain ⟨name, kind, value⟩ := parameter
  cases kind with
  | filters =>
      exact shownClauses_foldl (pairText naming now) (fun d pair _ hd => ⟨hd.applyPair now pair,
        (d.growsTo_applyPair now pair).custom, shownClauses_applyPair hd now pair⟩) h
  | fieldKeywords =>
      rcases d.filterField_behind now name value .field with ⟨hnone, -⟩ | ⟨r, hsome, hkept, hconditions⟩
      · cases hnone
      · have hr : Restriction.ofMatch 0 value = r := Option.some.inj hsome
        have hslots : [Clause.keyword r.conditions].flatMap Clause.slots =
            List.range' 1 r.values.length := by
          rw [List.flatMap_singleton]
          exact numbered_of_restriction? hsome
        have hadded := shownClauses_addClauses naming h hkept hslots
        rw [List.flatMap_singleton, ← hr] at hadded
        simp only [applyParameter, hconditions, ← hr]
        exact hadded
  | _ => exact shownClauses_addFilter h now name value _

theorem shownClauses_applySearch (h : d.Sound) :
    d.applySearch.shownClauses naming = d.shownClauses naming ++ searchText naming d.store := by
  unfold applySearch searchText
  cases d.store.present? "search" with
  | none => exact (List.append_nil _).symm
  | some text =>
      have hkept : ({ d with values := d.values ++ ["%" ++ text ++ "%"] } : Draft).filtered =
        (d.clauses, d.values ++ ["%" ++ text ++ "%"]) := rfl
      have hslots : [Clause.column (.bare "short_desc") (.single ⟨.like, 1⟩)].flatMap Clause.slots =
        List.range' 1 ["%" ++ text ++ "%"].length := rfl
      have hadded := shownClauses_addClauses naming h hkept hslots
      rw [List.flatMap_singleton] at hadded
      rw [← hadded]
      simp only [List.length_append, List.length_singleton]
      rfl

/-! ## The run -/

theorem shownClauses_applyParameters (h : d.Sound) (now : Int) :
    (d.applyParameters now).shownClauses naming =
      d.shownClauses naming ++
        (presentParameters d.store).flatMap (parameterText naming now d.custom) := by
  apply shownClauses_foldl (parameterText naming now) _ h
  intro d' parameter hparameter hd'
  obtain ⟨entry, hentry, hpresent⟩ := List.mem_filterMap.mp hparameter
  obtain ⟨value, -, rfl⟩ := Option.map_eq_some_iff.mp hpresent
  exact ⟨hd'.applyParameter now (isIdentifier_schema entry hentry),
    (d'.growsTo_applyParameter now _).custom, shownClauses_applyParameter hd' now _⟩

theorem searchText_of_kept {store store' : Store} (h : store.Kept store') :
    searchText naming store' = searchText naming store := by
  have hname : "search" ∉ Store.writtenNames := by decide
  rw [searchText, searchText, h.present? hname]

theorem shownClauses_conclude (h : d.Sound) :
    d.conclude.shownClauses naming = d.shownClauses naming ++ searchText naming d.store := by
  have hbefore : d.applyListFormat.applyFlag.applyLastComment.filtered = d.filtered := by simp
  have hgrows : d.GrowsTo d.applyListFormat.applyFlag.applyLastComment :=
    d.growsTo_applyListFormat_applyFlag.trans (growsTo_applyLastComment _)
  have hafter : d.conclude.filtered =
      d.applyListFormat.applyFlag.applyLastComment.applySearch.filtered := by simp [conclude]
  rw [shownClauses_of_filtered_eq hafter, shownClauses_applySearch (h.of_filtered_eq hbefore),
    shownClauses_of_filtered_eq hbefore, searchText_of_kept hgrows.store]

theorem clauses_assemble (d : Draft) : d.assemble.2.clauses = d.clauses := rfl

theorem exists_values_assemble (d : Draft) : ∃ more, d.assemble.1.values = d.values ++ more :=
  ⟨_, rfl⟩

end Draft

/-! ## Requests -/

open Draft

variable {naming : Naming} {store : Store} {now : Int}

theorem Store.kind_of_written {entry : String × Kind} (hentry : entry ∈ schema)
    (hwritten : entry.1 ∈ Store.writtenNames) :
    entry.2 = .sort ∨ entry.2 = .boolean ∨ entry.2 = .value := by
  have hkinds : ∀ entry ∈ schema, entry.1 ∈ Store.writtenNames →
      entry.2 = .sort ∨ entry.2 = .boolean ∨ entry.2 = .value := by decide
  exact hkinds entry hentry hwritten

/-- What compiling writes into its store adds no conditions. -/
theorem parameterText_of_written {entry : String × Kind} (hentry : entry ∈ schema)
    (hwritten : entry.1 ∈ Store.writtenNames) (naming : Naming) (now : Int) (custom : CustomFields)
    (value : String) : parameterText naming now custom (entry.1, entry.2, value) = [] := by
  obtain ⟨name, kind⟩ := entry
  rcases Store.kind_of_written hentry hwritten with rfl | rfl | rfl
  · rfl
  · rfl
  · rfl

/-- What compiling writes into its store makes no difference to what is taken from the other parameters. -/
theorem flatMap_presentParameters_of_kept {α : Type} {store' : Store} {g : String × Kind × String → List α}
    (h : store.Kept store')
    (hwritten : ∀ entry ∈ schema, entry.1 ∈ Store.writtenNames →
      ∀ value, g (entry.1, entry.2, value) = []) :
    (presentParameters store').flatMap g = (presentParameters store).flatMap g := by
  simp only [presentParameters, List.filterMap_eq_flatMap_toList, List.flatMap_assoc]
  apply List.flatMap_congr
  rintro ⟨name, kind⟩ hentry
  by_cases hname : name ∈ Store.writtenNames
  · have hnothing (present : Option String) :
        (present.map fun value => (name, kind, value)).toList.flatMap g = [] := by
      cases present with
      | none => rfl
      | some value => simpa using hwritten _ hentry hname value
    rw [hnothing, hnothing]
  · rw [h.present? hname]

theorem flatMap_presentParameters {store' : Store} (h : store.Kept store') :
    (presentParameters store').flatMap (parameterText naming now (.ofStore store)) =
      schema.flatMap (entryText naming now store) := by
  rw [flatMap_presentParameters_of_kept h fun entry hentry hwritten value =>
      parameterText_of_written hentry hwritten naming now (.ofStore store) value,
    presentParameters, List.filterMap_eq_flatMap_toList, List.flatMap_assoc]
  apply List.flatMap_congr
  rintro ⟨name, kind⟩ _
  dsimp only [entryText]
  cases store.present? name with
  | none => rfl
  | some value => exact List.append_nil _

/-- The conditions of a request, with its values. -/
theorem shownClauses_drafted (store : Store) (now : Int) (naming : Naming) :
    (drafted store now).shownClauses naming =
      schema.flatMap (entryText naming now store) ++ searchText naming store := by
  have hstart : (Draft.start store).Sound := ⟨by simp [Draft.start], rfl⟩
  have hprepared := hstart.of_filtered_eq Draft.filtered_prepare
  have hgrows := (Draft.start store).growsTo_prepare
  have hcustom : (Draft.start store).prepare.custom = .ofStore store := hgrows.custom
  have hkept : store.Kept (Draft.start store).prepare.store := hgrows.store
  have hsearch : store.Kept ((Draft.start store).prepare.applyParameters now).store :=
    (growsTo_filtered store now).store
  have hnone : (Draft.start store).prepare.shownClauses naming = [] :=
    shownClauses_of_filtered_eq Draft.filtered_prepare
  rw [drafted, shownClauses_of_filtered_eq filtered_arrange,
    shownClauses_conclude (hprepared.applyParameters now), shownClauses_applyParameters hprepared now, hnone,
    hcustom, List.nil_append, flatMap_presentParameters hkept, searchText_of_kept hsearch]

/-- The conditions of a statement stand behind a condition that always holds. -/
theorem Sql.Statement.exists_pieces_eq (s : Statement) : ∃ before after,
    s.pieces = before ++ [.text " WHERE 1=1"] ++ s.clauses.flatMap Clause.pieces ++ after := by
  have hlist : ∃ before after, s.listPieces =
      before ++ [.text " WHERE 1=1"] ++ s.clauses.flatMap Clause.pieces ++ after :=
    ⟨.text "SELECT DISTINCT " :: separated ", " (s.items.map Item.pieces) ++
      [.text " FROM ", .source .bugs "bugs"] ++ s.joins.flatMap Join.pieces,
      summedPieces s.summed ++ s.orderPieces, by simp [listPieces]⟩
  obtain ⟨before, after, hpieces⟩ := hlist
  rw [pieces, hpieces]
  split
  · exact ⟨.text "SELECT COUNT(DISTINCT(id)) AS count FROM (" :: before,
      after ++ [.text ") AS b", .text ";"], by simp⟩
  · exact ⟨before, after ++ [.text ";"], by simp⟩

/-- The text of the conditions, with the values in the place of the slots. -/
def Query.whereText (naming : Naming) (q : Query) : String :=
  fillSlots (write naming (q.statement.clauses.flatMap Clause.pieces)) q.params

section

variable (store : Store) (now : Int) (hnaming : naming.Avoids ['\'', '?'])

include hnaming

theorem toList_whereText_eq_shown :
    ((compile store now).query.whereText naming).toList =
      shown naming (compile store now).query.values
        ((compile store now).query.statement.clauses.flatMap Clause.pieces) := by
  have hsound := sound_drafted store now
  obtain ⟨pending, hleads⟩ := Trailing.flatMap (fun clause hclause => (hsound.vetted clause hclause).trailing)
    0 false
  rw [Query.whereText, Query.params, statement_compile, clauses_assemble,
    toList_fillSlots_write hleads hnaming]

theorem toList_whereText :
    ((compile store now).query.whereText naming).toList =
      schema.flatMap (entryText naming now store) ++ searchText naming store := by
  obtain ⟨more, hvalues⟩ := exists_values_assemble (drafted store now)
  rw [toList_whereText_eq_shown store now hnaming, statement_compile, clauses_assemble, values_compile,
    hvalues, shown_append_texts (sound_drafted store now).slots_bound, ← shownClauses_drafted, shownClauses]

/-- In the display form, the conditions stand behind a condition that always holds. -/
theorem exists_toList_displaySql :
    ∃ before after, ((compile store now).query.displaySql naming).toList =
      before ++ " WHERE 1=1".toList ++ ((compile store now).query.whereText naming).toList ++ after := by
  have hread := (regular_compile store now).lexemes?_text hnaming
  obtain ⟨htext, hlexical⟩ := lexemeText_of_lexemes? hread
  obtain ⟨before, after, hpieces⟩ := (compile store now).query.statement.exists_pieces_eq
  refine ⟨shown naming (compile store now).query.values before,
    shown naming (compile store now).query.values after, ?_⟩
  rw [Query.displaySql, Query.params, Query.sql, fillSlots, String.toList_ofList, ← htext,
    fillSlotsFrom_lexemeText hlexical, ← shown, hpieces, shown_append, shown_append, shown_append, shown_text,
    toList_whereText_eq_shown store now hnaming]

end

end BugReport
