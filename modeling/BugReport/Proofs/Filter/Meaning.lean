import BugReport.Proofs.Expression.Words
import BugReport.Proofs.Filter.Clean
import BugReport.Proofs.Sql.Meaning
import BugReport.Proofs.Text.Percent

/-! # What restrictions keep

A restriction binds its texts behind those that were bound before, and others follow. Its comparisons find
their own texts, so that each term says something about the text in the column alone, wherever in the
statement it stands. Words of plain characters are such texts as they are written.
-/

namespace BugReport

open Sql (Tuple Column Comparison Condition textOfSlot? textOfSlot?_behind)

/-- The text that a term compares with. -/
def Term.text (t : Term) : String :=
  (Filter.decode t.literal).1

namespace Restriction

/-- Whether a row is kept by a restriction whose texts are bound between other ones. -/
def Keeps (row : Tuple) (earlier later : List String) (column : Column) (r : Restriction) : Prop :=
  Condition.AllHold row (earlier ++ r.values ++ later) column r.conditions

variable {earlier later : List String} {negated : Bool} {terms : List Term} {t : Term}

theorem textOfSlot?_between {α : Type} {entries : List α} {entry : α} {f : α → String} {slot : Nat}
    (h : (entry, slot) ∈ entries.zipIdx (earlier.length + 1)) :
    textOfSlot? (earlier ++ entries.map f ++ later) slot = some (f entry) := by
  obtain ⟨hslot, hget⟩ := List.mk_mem_zipIdx_iff_le_and_getElem?_sub.mp h
  obtain ⟨i, rfl⟩ := Nat.exists_eq_add_of_le hslot
  rw [Nat.add_sub_cancel_left] at hget
  have hi : i < entries.length := (List.getElem?_eq_some_iff.mp hget).1
  have hlength : 1 + i ≤ (entries.map f).length := by
    rw [List.length_map]
    omega
  rw [Nat.add_assoc, textOfSlot?_behind (by omega) hlength, Nat.add_comm 1 i, textOfSlot?,
    List.getElem?_map, hget]
  rfl

/-- The terms of a list are those of its comparisons. -/
theorem exists_slot (h : t ∈ terms) (bound : Nat) : ∃ slot, (t, slot) ∈ terms.zipIdx bound := by
  rw [← List.zipIdx_map_fst bound terms] at h
  obtain ⟨⟨t, slot⟩, hmem, rfl⟩ := List.mem_map.mp h
  exact ⟨slot, hmem⟩

/-- Comparisons say of the columns what their terms say, if each of them does so at its slot. -/
theorem exists_mem_comparisons_iff {bound : Nat} {P : Comparison → Prop} {Q : Term → Prop}
    (h : ∀ t slot, (t, slot) ∈ terms.zipIdx (bound + 1) → (P ⟨operatorOf negated t, slot⟩ ↔ Q t)) :
    (∃ c ∈ comparisons bound negated terms, P c) ↔ ∃ t ∈ terms, Q t := by
  constructor
  · rintro ⟨c, hc, hholds⟩
    obtain ⟨⟨t, slot⟩, hmem, rfl⟩ := List.mem_map.mp hc
    exact ⟨t, List.fst_mem_of_mem_zipIdx hmem, (h t slot hmem).mp hholds⟩
  · rintro ⟨t, ht, hsays⟩
    obtain ⟨slot, hmem⟩ := exists_slot ht (bound + 1)
    exact ⟨_, List.mem_map_of_mem hmem, (h t slot hmem).mpr hsays⟩

theorem forall_mem_comparisons_iff {bound : Nat} {P : Comparison → Prop} {Q : Term → Prop}
    (h : ∀ t slot, (t, slot) ∈ terms.zipIdx (bound + 1) → (P ⟨operatorOf negated t, slot⟩ ↔ Q t)) :
    (∀ c ∈ comparisons bound negated terms, P c) ↔ ∀ t ∈ terms, Q t := by
  have hnot := exists_mem_comparisons_iff (P := fun c => ¬ P c) (Q := fun t => ¬ Q t)
    fun t slot hmem => not_congr (h t slot hmem)
  simpa only [not_exists, not_and, not_not] using not_congr hnot

end Restriction

/-! ## Words -/

/-- Safe text without signs of encoding stands for itself. -/
theorem Filter.decode_of_plain {raw : String} (hsafe : isSafe raw = true) (hpercent : '%' ∉ raw.toList)
    (hplus : '+' ∉ raw.toList) : decode raw = (raw, []) := by
  have hsubstitute : Text.substitute '+' " " raw = raw := by
    have hkept : ∀ c ∈ raw.toList, (if c == '+' then " ".toList else [c]) = [c] := by
      intro c hc
      have hne : c ≠ '+' := fun heq => hplus (heq ▸ hc)
      simp [hne]
    rw [Text.substitute, List.flatMap_congr hkept]
    simp
  apply decode_of_isSafe _ hsafe
  rw [plainText?, hsubstitute, Text.percentDecode?_of_not_mem hpercent]

section Words

variable {c : Char} {w : String}

theorem isSafeChar_of_isPlainChar (h : isPlainChar c = true) : Filter.isSafeChar c = true := by
  simp only [isPlainChar, Bool.or_eq_true, beq_iff_eq] at h
  rcases h with (hword | rfl) | rfl
  · simp [Filter.isSafeChar, hword]
  · decide
  · decide

theorem decode_word (h : IsPlainWord w) : Filter.decode w = (w, []) := by
  apply Filter.decode_of_plain
  · exact List.all_eq_true.mpr fun c hc => isSafeChar_of_isPlainChar (h c hc)
  · exact not_mem_of_plain h (by decide)
  · exact not_mem_of_plain h (by decide)

theorem text_ofWord (h : IsPlainWord w) : (Term.ofWord w).text = w :=
  congrArg Prod.fst (decode_word h)

end Words

end BugReport
