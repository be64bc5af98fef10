import BugReport.Proofs.Sql.Display
import BugReport.Proofs.Sql.Meaning
import BugReport.Proofs.Sql.Slots

/-! # Fragments with their texts

What a fragment shows when texts take the place of its slots. The numbers of the slots do not matter, only the
texts that are found at them: a fragment that is numbered behind other texts shows what it shows when it is
numbered from one.
-/

namespace BugReport.Sql

def shown (naming : Naming) (texts : List String) (pieces : List Piece) : List Char :=
  lexemeText ((lexemesOf naming pieces).map (Lexeme.fill texts))

variable {naming : Naming} {texts texts' : List String} {piece : Piece} {pieces more : List Piece}
  {f : Nat → Nat}

@[simp] theorem shown_append :
    shown naming texts (pieces ++ more) = shown naming texts pieces ++ shown naming texts more := by
  simp [shown, lexemesOf]

theorem shown_cons :
    shown naming texts (piece :: pieces) =
      lexemeText ((piece.lexemes naming).map (Lexeme.fill texts)) ++ shown naming texts pieces := by
  simp [shown, lexemesOf]

@[simp] theorem map_fill_chars (texts : List String) (s : String) :
    (chars s).map (Lexeme.fill texts) = chars s := by
  rw [chars, List.map_map]
  rfl

theorem shown_text (s : String) : shown naming texts [.text s] = s.toList := by
  rw [shown, lexemesOf, List.flatMap_singleton, Piece.lexemes, map_fill_chars, lexemeText_chars]

/-- The display form of the text of a fragment is what the fragment shows. -/
theorem toList_fillSlots_write {p q : Position} (h : Leads p pieces q)
    (hnaming : naming.Avoids ['\'', '?']) :
    (fillSlots (write naming pieces) (texts.map .text)).toList = shown naming texts pieces := by
  rw [fillSlots, String.toList_ofList, ← lexemeText_lexemesOf h.vetted,
    fillSlotsFrom_lexemeText (h.lexical hnaming), shown]

theorem textAt?_toString (texts : List String) (n : Nat) :
    textAt? texts (toString n).toList = textOfSlot? texts n := by
  rw [textAt?, String.ofList_toList, Text.natural?_toString]
  cases n with
  | zero => rfl
  | succ n => rfl

/-! ## Other numbers -/

def Piece.renumber (f : Nat → Nat) : Piece → Piece
  | slot n => slot (f n)
  | piece => piece

def Comparison.renumber (f : Nat → Nat) (c : Comparison) : Comparison :=
  { c with slot := f c.slot }

def Condition.renumber (f : Nat → Nat) : Condition → Condition
  | single c => single (c.renumber f)
  | any cs => any (cs.map (·.renumber f))
  | all cs => all (cs.map (·.renumber f))
  | condition => condition

def Clause.renumber (f : Nat → Nat) : Clause → Clause
  | column place condition => column place (condition.renumber f)
  | keyword conditions => keyword (conditions.map (·.renumber f))

theorem separated_renumber (separator : String) (groups : List (List Piece)) :
    separated separator (groups.map (·.map (Piece.renumber f))) =
      (separated separator groups).map (Piece.renumber f) := by
  unfold separated
  induction groups with
  | nil => rfl
  | cons group groups ih =>
      cases groups with
      | nil => simp
      | cons next groups =>
          simp only [List.map_cons, List.intercalate_cons_cons, List.map_append] at ih ⊢
          rw [ih]
          rfl

theorem Comparison.pieces_renumber (column : Column) (cs : List Comparison) :
    (cs.map (·.renumber f)).map (·.pieces column) =
      (cs.map (·.pieces column)).map (·.map (Piece.renumber f)) := by
  rw [List.map_map, List.map_map]
  rfl

theorem Condition.pieces_renumber (column : Column) (condition : Condition) :
    (condition.renumber f).pieces column = (condition.pieces column).map (Piece.renumber f) := by
  cases condition with
  | isNull | isNotNull | isPositive | single c => rfl
  | any cs | all cs =>
      simp only [renumber, pieces, Comparison.pieces_renumber, separated_renumber, List.map_cons,
        List.map_append]
      rfl

theorem Condition.listPieces_renumber (column : Column) (conditions : List Condition) :
    listPieces column (conditions.map (·.renumber f)) =
      (listPieces column conditions).map (Piece.renumber f) := by
  induction conditions with
  | nil => rfl
  | cons condition conditions ih =>
      simp only [listPieces, List.map_cons, List.flatMap_cons, List.map_append] at ih ⊢
      rw [ih, pieces_renumber]

theorem Clause.pieces_renumber (clause : Clause) :
    (clause.renumber f).pieces = clause.pieces.map (Piece.renumber f) := by
  cases clause with
  | column place condition => exact Condition.pieces_renumber place condition
  | keyword conditions =>
      simp only [renumber, pieces, Condition.listPieces_renumber, List.map_append, List.map_cons]
      rfl

theorem Clause.listPieces_renumber (clauses : List Clause) :
    (clauses.map (·.renumber f)).flatMap Clause.pieces =
      (clauses.flatMap Clause.pieces).map (Piece.renumber f) := by
  induction clauses with
  | nil => rfl
  | cons clause clauses ih =>
      rw [List.map_cons, List.flatMap_cons, List.flatMap_cons, List.map_append, ih, pieces_renumber]

theorem shown_renumber
    (h : ∀ n ∈ slotsOf pieces, ∃ text, textOfSlot? texts n = some text ∧
      textOfSlot? texts' (f n) = some text) :
    shown naming texts' (pieces.map (Piece.renumber f)) = shown naming texts pieces := by
  induction pieces with
  | nil => rfl
  | cons piece pieces ih =>
      rw [slotsOf_cons] at h
      rw [List.map_cons, shown_cons, shown_cons, ih fun n hn => h n (List.mem_append_right _ hn)]
      refine congrArg (· ++ _) ?_
      cases piece with
      | slot n =>
          obtain ⟨text, htext, htext'⟩ := h n List.mem_cons_self
          rw [← textAt?_toString] at htext htext'
          simp only [Piece.renumber, Piece.lexemes, List.map_cons, List.map_nil,
            Lexeme.fill_slot_of_some htext, Lexeme.fill_slot_of_some htext']
      | literal s => rfl
      | statusField =>
          cases hstatus : naming.statusField with
          | some n => simp [Piece.renumber, Piece.lexemes, hstatus]
          | none => simp [Piece.renumber, Piece.lexemes, hstatus, Lexeme.fill]
      | _ => simp [Piece.renumber, Piece.lexemes]

theorem shown_behind (h : ∀ n ∈ slotsOf pieces, 0 < n ∧ n ≤ texts.length) (before after : List String) :
    shown naming (before ++ texts ++ after) (pieces.map (Piece.renumber (before.length + ·))) =
      shown naming texts pieces := by
  apply shown_renumber
  intro n hn
  obtain ⟨hpos, hle⟩ := h n hn
  obtain ⟨i, rfl⟩ : ∃ i, n = i + 1 := ⟨n - 1, by omega⟩
  have htext : textOfSlot? texts (i + 1) = some texts[i] := List.getElem?_eq_getElem hle
  exact ⟨_, htext, (textOfSlot?_behind hpos hle before after).trans htext⟩

/-- Texts that are bound later change nothing. -/
theorem shown_append_texts (h : ∀ n ∈ slotsOf pieces, 0 < n ∧ n ≤ texts.length) (after : List String) :
    shown naming (texts ++ after) pieces = shown naming texts pieces := by
  have hid : pieces.map (Piece.renumber (([] : List String).length + ·)) = pieces := by
    rw [List.length_nil]
    refine List.map_id'' (fun piece => ?_) pieces
    cases piece with
    | slot n => exact congrArg Piece.slot (Nat.zero_add n)
    | _ => rfl
  rw [← shown_behind h [] after, hid, List.nil_append]

end BugReport.Sql
