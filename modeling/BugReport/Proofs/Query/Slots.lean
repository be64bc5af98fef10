import BugReport.Proofs.Query.Binding
import BugReport.Proofs.Sql.Display
import BugReport.Proofs.Sql.StatementText

/-! # The slots of compiled statements

The slots that are read in the text of a compiled statement are the numbers of its values, each once, so
the display form shows every value and no slot. Only the fixed literal for requested flags holds a
question mark.
-/

namespace BugReport

open Sql

theorem mark_of_mem_fixedLiterals {s : String} (h : s ∈ fixedLiterals) (hmark : '?' ∈ s.toList) :
    s.toList = ['?'] := by
  revert s
  decide +kernel

/-- The digits of the slots in a compiled statement. -/
theorem slots_lexemes_compile (store : Store) (now : Int) (naming : Naming) :
    ((lexemesOf naming (compile store now).query.statement.pieces).filterMap Lexeme.slot?).Perm
      ((List.range' 1 (compile store now).query.values.length).map fun n => (toString n).toList) := by
  rw [filterMap_slot?_lexemesOf]
  exact (slotsOf_compile store now).map _

/-- Every slot is filled by the display form. -/
theorem textAt?_of_slot_mem {store : Store} {now : Int} {naming : Naming} {digits : List Char}
    (h : Lexeme.slot digits ∈ lexemesOf naming (compile store now).query.statement.pieces) :
    ∃ n text, digits = (toString (n + 1)).toList ∧
      (compile store now).query.values[n]? = some text ∧
      textAt? (compile store now).query.values digits = some text := by
  have hslot : digits ∈
      (lexemesOf naming (compile store now).query.statement.pieces).filterMap Lexeme.slot? :=
    List.mem_filterMap.mpr ⟨_, h, rfl⟩
  rw [(slots_lexemes_compile store now naming).mem_iff] at hslot
  obtain ⟨m, hm, rfl⟩ := List.mem_map.mp hslot
  obtain ⟨hpos, hlt⟩ := List.mem_range'_1.mp hm
  obtain ⟨n, rfl⟩ : ∃ n, m = n + 1 := ⟨m - 1, by omega⟩
  have hn : n < (compile store now).query.values.length := by omega
  refine ⟨n, _, rfl, List.getElem?_eq_getElem hn, ?_⟩
  rw [textAt?, String.ofList_toList, Text.natural?_toString]
  exact List.getElem?_eq_getElem hn

/-- Slots without a number, with the number zero and with one past the end have no text. -/
theorem textAt?_eq_none {texts : List String} {digits : List Char}
    (h : digits = [] ∨ Text.digitsValue digits = 0 ∨ texts.length < Text.digitsValue digits) :
    textAt? texts digits = none := by
  unfold textAt?
  split
  next n hn =>
      simp only [Text.natural?, String.toList_ofList] at hn
      split at hn
      · cases hn
      next hdigits =>
          -- The digits are a number that counts from one, so only one past the end is left.
          simp only [Bool.or_eq_true, not_or, List.isEmpty_iff] at hdigits
          have hvalue : Text.digitsValue digits = n + 1 := Option.some.inj hn
          rcases h with hempty | hzero | hlarge
          · exact absurd hempty hdigits.1
          · omega
          · exact List.getElem?_eq_none (by omega)
  · rfl

/-- Where literals and slots are set apart, no two literals come together. -/
theorem Sql.Lexeme.SetApart.keptApart {texts : List String} {l next : Lexeme}
    (h : SetApart l next) : KeptApart texts l next := by
  rintro ⟨hl, hnext⟩
  cases next with
  | char c => exact hnext
  | literal content =>
      cases l with
      | char c => exact hl
      | _ => exact h
  | slot digits =>
      cases l with
      | char c => exact hl
      | _ => exact h

/-- Each value has exactly one slot, each slot has a value, and of the literals only the one for
requested flags holds a question mark. -/
theorem slots_are_params (store : Store) (now : Int) (naming : Naming)
    (hnaming : naming.Avoids ['\'', '?']) :
    ∃ ls, lexemes? ((compile store now).query.sql naming).toList = some ls ∧
      (ls.filterMap Lexeme.slot?).Perm
        ((List.range' 1 (compile store now).query.params.length).map fun n => (toString n).toList) ∧
      ∀ content, Lexeme.literal content ∈ ls → '?' ∈ content → content = ['?'] := by
  have hregular := regular_compile store now
  refine ⟨_, hregular.lexemes?_text hnaming, ?_, ?_⟩
  · rw [Query.params, List.length_map]
    exact slots_lexemes_compile store now naming
  · intro content hmem hmark
    obtain ⟨s, hs, rfl⟩ := hregular.fixedLiterals_lexemes naming content hmem
    exact mark_of_mem_fixedLiterals hs hmark

/-- Filters, pairs, joins with filters inside and a search at once. -/
theorem slots_are_params_combined :
    ∃ ls, lexemes? ((compile (Store.empty.applyLines
        ["cc=a,b", "flag=x", "blocks=1", "filters=os%3Dlinux", "search=y"]).1 0).query.sql
          .plain).toList = some ls ∧
      (ls.filterMap Lexeme.slot?).Perm
        ((List.range' 1 (compile (Store.empty.applyLines
          ["cc=a,b", "flag=x", "blocks=1", "filters=os%3Dlinux", "search=y"]).1 0).query.params.length).map
            fun n => (toString n).toList) ∧
      ∀ content, Lexeme.literal content ∈ ls → '?' ∈ content → content = ['?'] :=
  slots_are_params _ 0 .plain (Naming.avoids_of_all (by intro t; cases t <;> decide))

/-! ## The display form -/

/-- The display form of a compiled statement reads as the statement with every slot replaced by one
literal, which holds the value of that number. So does any text that can be read, with texts of any kind
for its slots, if no slot that has a text touches a literal or another such slot; slots without a text
stay. -/
theorem displaySql_fills_slots :
    (∀ (store : Store) (now : Int) (naming : Naming), naming.Avoids ['\'', '?'] →
      ∃ ls, lexemes? ((compile store now).query.sql naming).toList = some ls ∧
        lexemes? ((compile store now).query.displaySql naming).toList =
          some (ls.map (Lexeme.fill (compile store now).query.values)) ∧
        ∀ digits, Lexeme.slot digits ∈ ls → ∃ n text, digits = (toString (n + 1)).toList ∧
          (compile store now).query.values[n]? = some text ∧
          (Lexeme.slot digits).fill (compile store now).query.values = .literal text.toList) ∧
    (∀ (sql : String) (texts : List String) (ls : List Lexeme), lexemes? sql.toList = some ls →
      ls.IsChain (Lexeme.KeptApart texts) →
      lexemes? (fillSlots sql (texts.map .text)).toList = some (ls.map (Lexeme.fill texts))) ∧
    ∀ (texts : List String) (digits : List Char),
      digits = [] ∨ Text.digitsValue digits = 0 ∨ texts.length < Text.digitsValue digits →
      (Lexeme.slot digits).fill texts = .slot digits := by
  refine ⟨?_, fun sql texts ls hread hapart => lexemes?_fillSlots hread hapart, ?_⟩
  · intro store now naming hnaming
    have hregular := regular_compile store now
    have hread := hregular.lexemes?_text hnaming
    have hapart : (lexemesOf naming (compile store now).query.statement.pieces).IsChain
        (Lexeme.KeptApart (compile store now).query.values) :=
      (hregular.isChain_lexemes naming).imp fun _ _ h => h.keptApart
    refine ⟨_, hread, lexemes?_fillSlots hread hapart, ?_⟩
    intro digits hdigits
    obtain ⟨n, text, hnumber, hvalue, htext⟩ := textAt?_of_slot_mem hdigits
    exact ⟨n, text, hnumber, hvalue, Lexeme.fill_slot_of_some htext⟩
  · intro texts digits hnone
    exact Lexeme.fill_slot_of_none (textAt?_eq_none hnone)

/-- A search that is accepted and bound with all its signs. Then texts with quotes, question marks and digits, a
literal with a question mark, and a slot that has no text. -/
theorem displaySql_fills_slots_hostile :
    let lines := ["search=%27; OR 1=1 --"]
    let query := (compile (Store.empty.applyLines lines).1 0).query
    (Store.empty.applyLines lines).2 = [] ∧ "%%27; OR 1=1 --%" ∈ query.values ∧
    (∃ ls, lexemes? (query.sql .plain).toList = some ls ∧
      lexemes? (query.displaySql .plain).toList = some (ls.map (Lexeme.fill query.values))) ∧
    lexemes? (fillSlots "a=?1 AND b='?1' AND c=?12?0" (["it's ?2", "?1"].map .text)).toList =
      some ((chars "a=" ++ Lexeme.slot ['1'] :: chars " AND b=" ++
        Lexeme.literal ['?', '1'] :: chars " AND c=" ++ [Lexeme.slot ['1', '2'], Lexeme.slot ['0']]).map
          (Lexeme.fill ["it's ?2", "?1"])) ∧
    (Lexeme.slot ['1', '2']).fill ["it's ?2", "?1"] = .slot ['1', '2'] := by
  refine ⟨by decide +kernel, by decide +kernel, ?_,
    displaySql_fills_slots.2.1 _ _ _ (by decide +kernel) (by decide +kernel),
    displaySql_fills_slots.2.2 _ _ (by decide)⟩
  obtain ⟨ls, hread, hfilled, -⟩ := displaySql_fills_slots.1
    (Store.empty.applyLines ["search=%27; OR 1=1 --"]).1 0 .plain
    (Naming.avoids_of_all (by intro t; cases t <;> decide))
  exact ⟨ls, hread, hfilled⟩

/-- Whether a slot and a literal are no neighbours. -/
def Sql.Lexeme.OffLiteral : Lexeme → Lexeme → Prop
  | slot _, literal _ => False
  | literal _, slot _ => False
  | _, _ => True

/-- That no slot touches a literal is not enough: two literals that take the places of neighbouring slots
are read as one literal with a quote in it. -/
theorem neighbouring_slots_run_together :
    ¬ ∀ (sql : String) (texts : List String) (ls : List Lexeme), lexemes? sql.toList = some ls →
      ls.IsChain Lexeme.OffLiteral →
      lexemes? (fillSlots sql (texts.map .text)).toList = some (ls.map (Lexeme.fill texts)) := by
  intro h
  have hread : lexemes? "?1?2".toList = some [.slot ['1'], .slot ['2']] := by decide +kernel
  have hfilled := h "?1?2" ["x", "y"] _ hread (List.isChain_pair.mpr trivial)
  revert hfilled
  decide +kernel

end BugReport
