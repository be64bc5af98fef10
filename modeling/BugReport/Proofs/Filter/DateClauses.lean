import BugReport.Proofs.Filter.Clause

/-! # The clauses of date filters

A date filter compares with each bound that it names and that is not open, or tests for null. If one of its bounds has
no date, or if it is not understood, it is refused as a whole: no comparison and no value of it is left.
-/

namespace BugReport

open Sql (Operator Column Comparison Condition)

namespace DateBound

/-- The text that a bound stands for at an instant. An open bound stands for none. -/
inductive StandsFor (now : Int) : DateBound → String → Prop where
  | absolute (text : String) : StandsFor now (.absolute text) text
  | relative {seconds : Int} {text : String} (h : Restriction.dateAt? now seconds = some text) :
      StandsFor now (.relative seconds) text

/-- Whether a bound is open or stands for a text. -/
def IsUsable (now : Int) (b : DateBound) : Prop :=
  b = unbounded ∨ ∃ text, b.StandsFor now text

end DateBound

namespace DateExpr

/-- The bounds of an expression, each with the operator that compares with it: the lower one of a range and the one of
an offset into the past from below, the others from above. -/
def bounds : DateExpr → List (Operator × DateBound)
  | range low high => [(.ge, low), (.le, high)]
  | onOrBefore b => [(.le, b)]
  | onOrAfter b => [(.ge, b)]
  | special _ | unrecognized _ => []

/-- The bounds that are not open. -/
def closedBounds (e : DateExpr) : List (Operator × DateBound) :=
  e.bounds.filter fun entry => entry.2 != .unbounded

/-- The test for null that an expression is, if it is one. -/
def test (column : Column) : DateExpr → String
  | special .notNull => " AND " ++ column.text ++ " IS NOT NULL"
  | special .null => " AND " ++ column.text ++ " IS NULL"
  | _ => ""

/-- The comparisons of a column with the bounds that are not open, with one new slot for each. -/
def comparisons (bound : Nat) (column : Column) (e : DateExpr) : List String :=
  ((e.closedBounds.map Prod.fst).zipIdx (bound + 1)).map fun (operator, slot) =>
    " AND " ++ column.text ++ operator.text ++ "?" ++ toString slot

/-- Whether an expression is recognized and each of its bounds is open or has a date. -/
def IsUsable (now : Int) (e : DateExpr) : Prop :=
  (∀ text, e ≠ unrecognized text) ∧ ∀ entry ∈ e.bounds, entry.2.IsUsable now

section Usable

variable {now : Int} {low high b : DateBound} {text : String}

theorem isUsable_range_iff : (range low high).IsUsable now ↔ low.IsUsable now ∧ high.IsUsable now := by
  simp [IsUsable, bounds]

theorem isUsable_onOrBefore_iff : (onOrBefore b).IsUsable now ↔ b.IsUsable now := by
  simp [IsUsable, bounds]

theorem isUsable_onOrAfter_iff : (onOrAfter b).IsUsable now ↔ b.IsUsable now := by
  simp [IsUsable, bounds]

theorem isUsable_special (s : Special) : (special s).IsUsable now := by
  simp [IsUsable, bounds]

theorem not_isUsable_unrecognized : ¬ (unrecognized text).IsUsable now :=
  fun h => h.1 text rfl

end Usable

end DateExpr

namespace Restriction

variable {bound : Nat} {now : Int} {name : String} {column : Column} {b : DateBound} {text : String}

/-- The bounds that have a text, each with its text. -/
def closedTexts (shown : List (Operator × Option String)) : List (Operator × String) :=
  shown.filterMap fun entry => entry.2.map fun text => (entry.1, text)

theorem ofBounds_eq (bound : Nat) (shown : List (Operator × Option String)) : ofBounds bound shown =
    { conditions := ((closedTexts shown).zipIdx (bound + 1)).map fun entry => .single ⟨entry.1.1, entry.2⟩
      values := (closedTexts shown).map Prod.snd } :=
  rfl

/-- The text that a restriction adds to the conditions of a statement. -/
def clauseText (column : Column) (r : Restriction) : String :=
  Sql.write .plain (Condition.listPieces column r.conditions)

/-! ## Bounds -/

theorem boundText?_cases (now : Int) (name : String) (b : DateBound) :
    (b = .unbounded ∧ boundText? now name b = .ok Option.none) ∨
      (∃ text, b.StandsFor now text ∧ boundText? now name b = .ok (some text)) ∨
      (¬ b.IsUsable now ∧ ∃ d, boundText? now name b = .error d) := by
  cases b with
  | unbounded => exact .inl ⟨rfl, rfl⟩
  | absolute text => exact .inr (.inl ⟨text, .absolute text, rfl⟩)
  | relative seconds =>
      rw [boundText?]
      cases hdate : dateAt? now seconds with
      | some text => exact .inr (.inl ⟨text, .relative hdate, rfl⟩)
      | none =>
          refine .inr (.inr ⟨?_, _, rfl⟩)
          rintro (hopen | ⟨text, hstands⟩)
          · cases hopen
          · cases hstands with
            | relative h => rw [hdate] at h; cases h

theorem boundText?_usable (now : Int) (name : String) (b : DateBound) :
    (b.IsUsable now ∧ ∃ text, boundText? now name b = .ok text) ∨
      (¬ b.IsUsable now ∧ ∃ d, boundText? now name b = .error d) := by
  rcases boundText?_cases now name b with ⟨hopen, hok⟩ | ⟨text, hstands, hok⟩ | hrefused
  · exact .inl ⟨.inl hopen, _, hok⟩
  · exact .inl ⟨.inr ⟨text, hstands⟩, _, hok⟩
  · exact .inr hrefused

/-- The texts of bounds, each with its operator. -/
def Shows (now : Int) (name : String) : List (Operator × DateBound) → List (Operator × Option String) → Prop :=
  List.Forall₂ fun entry shown => shown.1 = entry.1 ∧ boundText? now name entry.2 = .ok shown.2

/-- What is left of bounds that all are usable are the texts of those that are not open. -/
theorem standsFor_of_texts {bounds : List (Operator × DateBound)} {shown : List (Operator × Option String)}
    (h : Shows now name bounds shown) :
    List.Forall₂ (fun entry value => value.1 = entry.1 ∧ entry.2.StandsFor now value.2)
      (bounds.filter fun entry => entry.2 != .unbounded) (closedTexts shown) := by
  induction h with
  | nil => exact .nil
  | @cons entry text bounds shown hentry _ ih =>
      obtain ⟨operator, b⟩ := entry
      obtain ⟨_, text⟩ := text
      obtain ⟨rfl, htext⟩ := hentry
      rcases boundText?_cases now name b with ⟨rfl, hopen⟩ | ⟨t, hstands, hok⟩ | ⟨-, d, herror⟩
      · obtain rfl : Option.none = text := Except.ok.inj (hopen.symm.trans htext)
        exact ih
      · obtain rfl : some t = text := Except.ok.inj (hok.symm.trans htext)
        have hclosed : (b != .unbounded) = true := by cases hstands <;> rfl
        rw [List.filter_cons, if_pos hclosed]
        exact .cons ⟨rfl, hstands⟩ ih
      · rw [herror] at htext
        cases htext

theorem clauseText_singles (column : Column) (cs : List Comparison) (r : Restriction)
    (h : r.conditions = cs.map .single) :
    r.clauseText column = String.join (cs.map fun c =>
      " AND " ++ column.text ++ c.operator.text ++ "?" ++ toString c.slot) := by
  rw [clauseText, h]
  apply String.toList_inj.mp
  rw [Sql.toList_write]
  simp [Condition.listPieces, Condition.pieces, Comparison.pieces, Sql.Piece.write, List.flatMap_map,
    List.flatMap_assoc]

/-- Bounds that are all usable give a comparison and a value for each of them that is not open. -/
theorem ofBounds_of_texts (bound : Nat) (column : Column) {e : DateExpr} {shown : List (Operator × Option String)}
    (h : Shows now name e.bounds shown) :
    (ofBounds bound shown).clauseText column = String.join (e.comparisons bound column) ∧
      List.Forall₂ (fun entry text => entry.2.StandsFor now text) e.closedBounds (ofBounds bound shown).values := by
  have hclosed := standsFor_of_texts h
  rw [← DateExpr.closedBounds] at hclosed
  rw [DateExpr.comparisons, ofBounds_eq]
  generalize closedTexts shown = values at hclosed
  have hoperators : e.closedBounds.map Prod.fst = values.map Prod.fst := by
    rw [← List.forall₂_eq_eq_eq, List.forall₂_map_left_iff, List.forall₂_map_right_iff]
    exact hclosed.imp fun _ _ hvalue => hvalue.1.symm
  constructor
  · rw [clauseText_singles column ((values.zipIdx (bound + 1)).map fun entry => ⟨entry.1.1, entry.2⟩) _
      (List.map_map).symm, hoperators, List.zipIdx_map, List.map_map, List.map_map]
    rfl
  · rw [List.forall₂_map_right_iff]
    exact hclosed.imp fun _ _ => And.right

/-! ## Expressions -/

theorem ofDateExpr_cases (bound : Nat) (now : Int) (name : String) (column : Column) (e : DateExpr) :
    (∃ s, e = .special s) ∨
      (e.IsUsable now ∧ e.test column = "" ∧ ∃ shown, Shows now name e.bounds shown ∧
        ofDateExpr bound now name e = ofBounds bound shown) ∨
      (¬ e.IsUsable now ∧ ∃ ds, ds ≠ [] ∧ ofDateExpr bound now name e = refused ds) := by
  cases e with
  | special s => exact .inl ⟨s, rfl⟩
  | unrecognized text =>
      exact .inr (.inr ⟨DateExpr.not_isUsable_unrecognized, _, List.cons_ne_nil _ _, rfl⟩)
  | onOrBefore b | onOrAfter b =>
      simp only [ofDateExpr, DateExpr.isUsable_onOrBefore_iff, DateExpr.isUsable_onOrAfter_iff]
      rcases boundText?_usable now name b with ⟨husable, text, htext⟩ | ⟨hunusable, d, hd⟩
      · rw [htext]
        exact .inr (.inl ⟨husable, rfl, _, .cons ⟨rfl, htext⟩ .nil, rfl⟩)
      · rw [hd]
        exact .inr (.inr ⟨hunusable, _, List.cons_ne_nil _ _, rfl⟩)
  | range low high =>
      rw [ofDateExpr, DateExpr.isUsable_range_iff]
      rcases boundText?_usable now name low with ⟨hlow, lowText, hlowText⟩ | ⟨hlow, d, hd⟩
      · rw [hlowText]
        rcases boundText?_usable now name high with ⟨hhigh, highText, hhighText⟩ | ⟨hhigh, d, hd⟩
        · rw [hhighText]
          exact .inr (.inl ⟨⟨hlow, hhigh⟩, rfl, _, .cons ⟨rfl, hlowText⟩ (.cons ⟨rfl, hhighText⟩ .nil), rfl⟩)
        · rw [hd]
          exact .inr (.inr ⟨fun h => hhigh h.2, _, List.cons_ne_nil _ _, rfl⟩)
      · rw [hd]
        refine .inr (.inr ⟨fun h => hlow h.1, d :: problemsOf (boundText? now name high), List.cons_ne_nil _ _, ?_⟩)
        cases boundText? now name high <;> rfl

end Restriction

/-! ## Values without a clause -/

theorem DateBound.ofList_eq_unbounded_iff {cs : List Char} : ofList cs = .unbounded ↔ cs = ['*'] := by
  unfold ofList
  split <;> simp_all

namespace DateExpr

variable {bound : Nat} {now : Int} {column : Column} {e : DateExpr}

theorem isUsable_of_closedBounds_eq_nil (hrecognized : ∀ text, e ≠ unrecognized text) (h : e.closedBounds = []) :
    e.IsUsable now := by
  refine ⟨hrecognized, fun entry hentry => .inl ?_⟩
  simpa using List.filter_eq_nil_iff.mp h entry hentry

theorem clause_eq_empty_iff (e : DateExpr) :
    e.test column ++ String.join (e.comparisons bound column) = "" ↔
      e.test column = "" ∧ e.closedBounds = [] := by
  have hnil : String.join (e.comparisons bound column) = "" ↔ e.closedBounds = [] := by
    rw [comparisons]
    cases e.closedBounds with
    | nil => simp
    | cons entry closed => simp [← String.toList_inj]
  rw [← hnil, String.append_eq_empty_iff]

/-- The trimmed values that say nothing: a star, and a range between two of them. -/
theorem says_nothing_iff (column : Column) (cs : List Char) :
    ((∀ text, ofTrimmed cs ≠ unrecognized text) ∧ (ofTrimmed cs).test column = "" ∧
        (ofTrimmed cs).closedBounds = []) ↔
      cs = ['*'] ∨ ∃ rest, cs.splitOn ':' = ['*'] :: ['*'] :: rest := by
  unfold ofTrimmed
  split
  next low high rest hsplit =>
      have hstar : cs ≠ ['*'] := by
        rintro rfl
        cases hsplit
      have hopen : (range (.ofList low) (.ofList high)).closedBounds = [] ↔ low = ['*'] ∧ high = ['*'] := by
        simp only [closedBounds, bounds, List.filter_eq_nil_iff, List.forall_mem_cons, List.not_mem_nil,
          bne_iff_ne, not_not, DateBound.ofList_eq_unbounded_iff]
        simp
      rw [hopen, hsplit]
      simp [hstar, test]
  next hsplit =>
      have hrange : ¬ ∃ rest, cs.splitOn ':' = ['*'] :: ['*'] :: rest := fun ⟨rest, h⟩ => hsplit _ _ _ h
      rw [or_iff_left hrange]
      split
      · simp [closedBounds, bounds, DateBound.ofList]
      · simp [closedBounds, bounds, DateBound.ofList]
      · split
        next special hspecial =>
            unfold Special.ofList? at hspecial
            split at hspecial <;> cases hspecial <;> simp [test, closedBounds, bounds]
        next hnone =>
            refine iff_of_false (fun h => h.1 _ rfl) ?_
            rintro rfl
            cases hnone

end DateExpr

namespace Restriction

variable {bound : Nat} {now : Int} {name : String} {column : Column}

/-- What a date filter adds to a statement with some slots. -/
structure AllOrNothing (bound : Nat) (now : Int) (column : Column) (value : String) (r : Restriction) : Prop where
  /-- A value is refused if it is not recognized, or if one of its bounds has no date. -/
  refused_iff : r.diagnostics ≠ [] ↔ ¬ (DateExpr.parse value).IsUsable now
  nothing_left : r.diagnostics ≠ [] → r.clauseText column = "" ∧ r.values = []
  /-- Nothing is added and nothing is told only for a star, and for a range between two of them. -/
  silent_iff : r.clauseText column = "" ∧ r.diagnostics = [] ↔
    Text.trim value.toList = ['*'] ∨ ∃ rest, (Text.trim value.toList).splitOn ':' = ['*'] :: ['*'] :: rest
  clause : r.diagnostics = [] → r.clauseText column =
    (DateExpr.parse value).test column ++ String.join ((DateExpr.parse value).comparisons bound column)
  values : r.diagnostics = [] →
    List.Forall₂ (fun entry text => entry.2.StandsFor now text) (DateExpr.parse value).closedBounds r.values

/-- A usable expression adds all that it says. -/
theorem ofDateExpr_of_usable (bound : Nat) (name : String) (column : Column) {e : DateExpr} (h : e.IsUsable now) :
    (ofDateExpr bound now name e).diagnostics = [] ∧
      (ofDateExpr bound now name e).clauseText column =
        e.test column ++ String.join (e.comparisons bound column) ∧
      List.Forall₂ (fun entry text => entry.2.StandsFor now text) e.closedBounds
        (ofDateExpr bound now name e).values := by
  rcases ofDateExpr_cases bound now name column e with
    ⟨special, rfl⟩ | ⟨-, htest, shown, hshown, heq⟩ | ⟨hunusable, -⟩
  · cases special with
    | any => exact ⟨rfl, rfl, .nil⟩
    | notNull | null =>
        refine ⟨rfl, ?_, .nil⟩
        simp [ofDateExpr, ofSpecial, clauseText, Condition.listPieces, Condition.pieces, Sql.write, Sql.Piece.write,
          DateExpr.test, DateExpr.comparisons, DateExpr.closedBounds, DateExpr.bounds, String.append_assoc]
  · obtain ⟨hclause, hvalues⟩ := ofBounds_of_texts bound column hshown
    rw [heq, htest, String.empty_append]
    exact ⟨rfl, hclause, hvalues⟩
  · exact absurd h hunusable

/-- An expression that is not usable adds nothing. -/
theorem ofDateExpr_of_not_usable (bound : Nat) (name : String) {e : DateExpr} (h : ¬ e.IsUsable now) :
    ∃ ds, ds ≠ [] ∧ ofDateExpr bound now name e = refused ds := by
  rcases ofDateExpr_cases bound now name (.bare name) e with ⟨special, rfl⟩ | ⟨husable, -⟩ | ⟨-, hrefused⟩
  · exact absurd (DateExpr.isUsable_special special) h
  · exact absurd husable h
  · exact hrefused

/-- A date filter adds all that it says, or nothing. -/
theorem ofDate_all_or_nothing (bound : Nat) (now : Int) (name value : String) (column : Column) :
    AllOrNothing bound now column value (ofDate bound now name value) := by
  have hsilent := DateExpr.says_nothing_iff column (Text.trim value.toList)
  rw [← DateExpr.parse] at hsilent
  unfold ofDate
  by_cases husable : (DateExpr.parse value).IsUsable now
  · obtain ⟨hdiagnostics, hclause, hvalues⟩ := ofDateExpr_of_usable bound name column husable
    refine ⟨iff_of_false (not_not.mpr hdiagnostics) (not_not.mpr husable), fun h => absurd hdiagnostics h, ?_,
      fun _ => hclause, fun _ => hvalues⟩
    rw [← hsilent, hclause, DateExpr.clause_eq_empty_iff]
    exact ⟨fun h => ⟨husable.1, h.1⟩, fun h => ⟨h.2, hdiagnostics⟩⟩
  · obtain ⟨ds, hne, hrefused⟩ := ofDateExpr_of_not_usable bound name husable
    rw [hrefused]
    refine ⟨iff_of_true hne husable, fun _ => ⟨rfl, rfl⟩, ?_, fun h => absurd h hne, fun h => absurd h hne⟩
    refine iff_of_false (fun h => hne h.2) fun h => husable ?_
    obtain ⟨hrecognized, -, hclosed⟩ := hsilent.mpr h
    exact DateExpr.isUsable_of_closedBounds_eq_nil hrecognized hclosed

end Restriction

end BugReport
