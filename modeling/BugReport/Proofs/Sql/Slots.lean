import BugReport.Proofs.Sql.Reading

/-! # The slots of fragments

Which slots a fragment holds, in the order of its text. Conditions hold the slots of their comparisons
and nothing else does, so the slots of a statement are those of its conditions, wherever these stand.
-/

namespace BugReport.Sql

/-- The number of a slot. -/
def Piece.slotNumber? : Piece → Option Nat
  | slot n => some n
  | _ => none

/-- The numbers of the slots in a fragment. -/
def slotsOf (pieces : List Piece) : List Nat :=
  pieces.filterMap Piece.slotNumber?

/-- The digits of a slot. -/
def Lexeme.slot? : Lexeme → Option (List Char)
  | slot digits => some digits
  | _ => none

section

variable {naming : Naming} {pieces more : List Piece}

@[simp] theorem slotsOf_nil : slotsOf [] = [] := rfl

@[simp] theorem slotsOf_cons (piece : Piece) (pieces : List Piece) :
    slotsOf (piece :: pieces) = piece.slotNumber?.toList ++ slotsOf pieces := by
  cases piece <;> rfl

@[simp] theorem slotsOf_append : slotsOf (pieces ++ more) = slotsOf pieces ++ slotsOf more :=
  List.filterMap_append

@[simp] theorem slotsOf_flatMap {α : Type} (f : α → List Piece) (xs : List α) :
    slotsOf (xs.flatMap f) = xs.flatMap fun x => slotsOf (f x) := by
  induction xs with
  | nil => rfl
  | cons x xs ih => rw [List.flatMap_cons, slotsOf_append, ih, List.flatMap_cons]

@[simp] theorem slotsOf_separated (separator : String) (groups : List (List Piece)) :
    slotsOf (separated separator groups) = groups.flatMap slotsOf := by
  unfold separated
  induction groups with
  | nil => rfl
  | cons group groups ih =>
      cases groups with
      | nil => simp
      | cons next groups =>
          rw [List.intercalate_cons_cons, slotsOf_append, slotsOf_append, ih]
          simp [Piece.slotNumber?]

/-- The slots that are read in the text of a fragment are those of its pieces. -/
theorem filterMap_slot?_lexemesOf (naming : Naming) (pieces : List Piece) :
    (lexemesOf naming pieces).filterMap Lexeme.slot? =
      (slotsOf pieces).map fun n => (toString n).toList := by
  have hchars (s : String) : (chars s).filterMap Lexeme.slot? = [] := by
    simp [chars, List.filterMap_eq_nil_iff, Lexeme.slot?]
  induction pieces with
  | nil => rfl
  | cons piece pieces ih =>
      rw [lexemesOf, List.flatMap_cons, List.filterMap_append, slotsOf_cons, List.map_append]
      refine congrArg₂ _ ?_ ih
      cases piece with
      | statusField =>
          cases hstatus : naming.statusField with
          | some n => simp [Piece.lexemes, hstatus, hchars, Piece.slotNumber?]
          | none => simp [Piece.lexemes, hstatus, hchars, Piece.slotNumber?, Lexeme.slot?]
      | _ => simp [Piece.lexemes, hchars, Piece.slotNumber?, Lexeme.slot?]

end

/-! ## Fixed fragments -/

/-- A whole fragment without slots. -/
structure Fixed (pieces : List Piece) : Prop where
  leads : Leads ⟨0, false⟩ pieces ⟨0, false⟩
  slots : slotsOf pieces = []

instance (pieces : List Piece) : Decidable (Fixed pieces) :=
  decidable_of_iff (Leads ⟨0, false⟩ pieces ⟨0, false⟩ ∧ slotsOf pieces = [])
    ⟨fun h => ⟨h.1, h.2⟩, fun h => ⟨h.leads, h.slots⟩⟩

theorem Fixed.whole {pieces : List Piece} (h : Fixed pieces) : Whole pieces :=
  h.leads.whole

theorem Item.fixed_ofColumn {owner name label : String}
    (hcolumn : (Piece.column (.of owner name)).isVetted = true)
    (hlabel : isIdentifier label.toList = true) : Fixed (Item.ofColumn owner name label).pieces := by
  have has : Leads ⟨0, false⟩ [.text " AS "] ⟨0, false⟩ := by decide
  exact ⟨(Leads.column hcolumn 0).cons (has.cons (Leads.name hlabel 0)), rfl⟩

/-! ## Conditions -/

/-- The slots of a condition. -/
def Condition.slots : Condition → List Nat
  | isNull | isNotNull | isPositive => []
  | single c => [c.slot]
  | any cs => cs.map Comparison.slot
  | all cs => cs.map Comparison.slot

/-- The slots of a clause. -/
def Clause.slots : Clause → List Nat
  | column _ condition => condition.slots
  | keyword conditions => conditions.flatMap Condition.slots

theorem slotsOf_comparisons (column : Column) (cs : List Comparison) :
    (cs.map (·.pieces column)).flatMap slotsOf = cs.map Comparison.slot := by
  induction cs with
  | nil => rfl
  | cons c cs ih => simpa [Comparison.pieces, Piece.slotNumber?] using ih

@[simp] theorem Condition.slotsOf_pieces (column : Column) (condition : Condition) :
    slotsOf (condition.pieces column) = condition.slots := by
  cases condition with
  | isNull => rfl
  | isNotNull => rfl
  | isPositive => rfl
  | single c => rfl
  | any cs =>
      simp only [pieces, List.cons_append, slotsOf_cons, slotsOf_append, slotsOf_separated,
        slotsOf_comparisons, slots]
      simp [Piece.slotNumber?]
  | all cs =>
      simp only [pieces, List.cons_append, slotsOf_cons, slotsOf_append, slotsOf_separated,
        slotsOf_comparisons, slots]
      simp [Piece.slotNumber?]

@[simp] theorem Condition.slotsOf_listPieces (column : Column) (conditions : List Condition) :
    slotsOf (Condition.listPieces column conditions) = conditions.flatMap Condition.slots := by
  simp [Condition.listPieces]

@[simp] theorem Clause.slotsOf_pieces (clause : Clause) : slotsOf clause.pieces = clause.slots := by
  cases clause with
  | column place condition => exact Condition.slotsOf_pieces place condition
  | keyword conditions => simp [pieces, slots, Piece.slotNumber?, equation]

end BugReport.Sql
