import BugReport.Proofs.Sql.Lexeme

/-! # The display form of a statement

Filling the slots of a text is done in one pass over its characters. Seen through its lexemes it
replaces every slot that has a text by one literal and keeps all other lexemes, whatever quotes,
question marks and digits the texts hold, as long as no literal comes to stand next to another one.
-/

namespace BugReport.Sql

/-- The text for a slot with these digits. Texts are counted from one. -/
def textAt? (texts : List String) (digits : List Char) : Option String :=
  match Text.natural? (String.ofList digits) with
  | some (n + 1) => texts[n]?
  | _ => none

namespace Lexeme

/-- The literal that takes the place of a slot, if there is a text for it. -/
def fill (texts : List String) : Lexeme → Lexeme
  | slot digits =>
    match textAt? texts digits with
    | some s => literal s.toList
    | none => slot digits
  | l => l

variable {texts : List String}

/-- Whether a lexeme is a literal once the slots are filled. -/
def Quoted (texts : List String) : Lexeme → Prop
  | char _ => False
  | literal _ => True
  | slot digits => (textAt? texts digits).isSome

instance : DecidablePred (Quoted texts) := fun l =>
  match l with
  | char _ => inferInstanceAs (Decidable False)
  | literal _ => inferInstanceAs (Decidable True)
  | slot digits => inferInstanceAs (Decidable ((textAt? texts digits).isSome = true))

/-- Whether two neighbours are not both literals once the slots are filled: a slot that has a text
touches neither a literal nor another such slot. -/
def KeptApart (texts : List String) (l next : Lexeme) : Prop :=
  ¬ (l.Quoted texts ∧ next.Quoted texts)

instance : DecidableRel (KeptApart texts) := fun l next =>
  inferInstanceAs (Decidable (¬ (l.Quoted texts ∧ next.Quoted texts)))

end Lexeme

open Lexeme

variable {texts : List String} {ls : List Lexeme}

theorem Lexeme.fill_slot_of_some {digits : List Char} {s : String}
    (h : textAt? texts digits = some s) : (slot digits).fill texts = literal s.toList := by
  simp [fill, h]

theorem Lexeme.fill_slot_of_none {digits : List Char}
    (h : textAt? texts digits = none) : (slot digits).fill texts = slot digits := by
  simp [fill, h]

/-- A slot takes the value of the list at its number. -/
theorem slotValue?_texts {digits : List Char} (hdigits : ∀ d ∈ digits, d.isDigit) :
    slotValue? (texts.map .text) digits = (textAt? texts digits).map .text := by
  have hall : digits.all Char.isDigit = true := List.all_eq_true.mpr hdigits
  by_cases hempty : digits = []
  · simp [slotValue?, textAt?, Text.natural?, hempty]
  · simp only [slotValue?, textAt?, Text.natural?, String.toList_ofList, hall, hempty,
      List.isEmpty_iff, Bool.not_true, Bool.or_false, ↓reduceIte]
    cases Text.digitsValue digits with
    | zero => rfl
    | succ n => simp

/-! ## One pass over the characters -/

theorem fillSlotsFrom_char {values : List Value} {c : Char} (hquote : c ≠ '\'') (hmark : c ≠ '?')
    (cs : List Char) :
    fillSlotsFrom values false (c :: cs) = c :: fillSlotsFrom values false cs := by
  rw [fillSlotsFrom]
  simp [hquote, hmark]

theorem fillSlotsFrom_digits {values : List Value} {digits : List Char}
    (hdigits : ∀ d ∈ digits, d.isDigit) (cs : List Char) :
    fillSlotsFrom values false (digits ++ cs) = digits ++ fillSlotsFrom values false cs := by
  induction digits with
  | nil => rfl
  | cons d digits ih =>
      have hd : d.isDigit := hdigits d List.mem_cons_self
      have hquote : d ≠ '\'' := by rintro rfl; simp at hd
      have hmark : d ≠ '?' := by rintro rfl; simp at hd
      rw [List.cons_append, fillSlotsFrom_char hquote hmark,
        ih fun other hother => hdigits other (List.mem_cons_of_mem _ hother), List.cons_append]

/-- Inside of a literal nothing changes. A doubled quote leaves the literal and enters it again. -/
theorem fillSlotsFrom_doubled (values : List Value) (content rest : List Char) :
    fillSlotsFrom values true (doubled content ++ '\'' :: rest) =
      doubled content ++ '\'' :: fillSlotsFrom values false rest := by
  induction content with
  | nil => simp [fillSlotsFrom]
  | cons c content ih =>
      by_cases hc : c = '\''
      · subst hc
        simp [fillSlotsFrom, ih]
      · simp [fillSlotsFrom, hc, ih]

theorem fillSlotsFrom_literal (values : List Value) (content rest : List Char) :
    fillSlotsFrom values false (quote content ++ rest) =
      quote content ++ fillSlotsFrom values false rest := by
  rw [quote_append, quote_append, fillSlotsFrom]
  simp [fillSlotsFrom_doubled]

/-- Filling the slots of a written list is writing the filled list. -/
theorem fillSlotsFrom_lexemeText (h : Lexical ls) :
    fillSlotsFrom (texts.map .text) false (lexemeText ls) = lexemeText (ls.map (fill texts)) := by
  induction ls with
  | nil => simp [fillSlotsFrom]
  | cons l ls ih =>
      have htail := ih h.tail
      cases l with
      | char c =>
          obtain ⟨hquote, hmark⟩ := h.valid _ List.mem_cons_self
          simp only [lexemeText_cons, Lexeme.text, List.cons_append, List.nil_append, List.map_cons,
            fill]
          rw [fillSlotsFrom_char hquote hmark, htail]
      | literal content =>
          simp only [lexemeText_cons, Lexeme.text, List.map_cons, fill]
          rw [fillSlotsFrom_literal, htail]
      | slot digits =>
          have hdigits : ∀ d ∈ digits, d.isDigit := h.valid _ List.mem_cons_self
          have htake : (digits ++ lexemeText ls).takeWhile Char.isDigit = digits :=
            takeWhile_digits hdigits h.head?_not_digit
          have hdrop : (digits ++ lexemeText ls).dropWhile Char.isDigit = lexemeText ls :=
            dropWhile_digits hdigits h.head?_not_digit
          have hvalue : slotValue? (texts.map .text) digits = (textAt? texts digits).map .text :=
            slotValue?_texts hdigits
          simp only [lexemeText_cons, Lexeme.text, List.cons_append, List.map_cons]
          rw [fillSlotsFrom]
          simp only [htake, hdrop, hvalue]
          cases htext : textAt? texts digits with
          | none =>
              -- The pass copies the question mark only and then meets the digits one by one.
              rw [fill_slot_of_none htext]
              simp [fillSlotsFrom_digits hdigits, htail]
          | some s =>
              rw [fill_slot_of_some htext]
              simp [Value.literal, htail]

/-! ## The filled list -/

theorem Lexeme.Valid.fill {l : Lexeme} (h : l.Valid) : (l.fill texts).Valid := by
  cases l with
  | char c => exact h
  | literal content => trivial
  | slot digits =>
      cases htext : textAt? texts digits with
      | none => rwa [fill_slot_of_none htext]
      | some s =>
          rw [fill_slot_of_some htext]
          trivial

theorem Lexeme.exists_fill_eq_literal {l : Lexeme} (h : l.Quoted texts) :
    ∃ content, l.fill texts = literal content := by
  cases l with
  | char c => exact h.elim
  | literal content => exact ⟨content, rfl⟩
  | slot digits =>
      obtain ⟨s, hs⟩ := Option.isSome_iff_exists.mp h
      exact ⟨s.toList, fill_slot_of_some hs⟩

theorem Lexeme.fill_of_not_quoted {l : Lexeme} (h : ¬ l.Quoted texts) : l.fill texts = l := by
  cases l with
  | char c => rfl
  | literal content => rfl
  | slot digits => exact fill_slot_of_none (Option.not_isSome_iff_eq_none.mp h)

theorem Lexeme.Distinct.fill {l next : Lexeme} (h : Distinct l next)
    (hapart : KeptApart texts l next) : Distinct (l.fill texts) (next.fill texts) := by
  by_cases hl : l.Quoted texts
  · have hnext : ¬ next.Quoted texts := fun hnext => hapart ⟨hl, hnext⟩
    obtain ⟨content, hcontent⟩ := exists_fill_eq_literal hl
    rw [hcontent, fill_of_not_quoted hnext]
    cases next with
    | literal other => exact (hnext trivial).elim
    | char c => trivial
    | slot digits => trivial
  · rw [fill_of_not_quoted hl]
    by_cases hnext : next.Quoted texts
    · obtain ⟨content, hcontent⟩ := exists_fill_eq_literal hnext
      rw [hcontent]
      cases l with
      | literal other => exact (hl trivial).elim
      | char c => trivial
      | slot digits => trivial
    · rwa [fill_of_not_quoted hnext]

/-- The filled list can be read back when no two literals come to stand next to each other. -/
theorem Lexical.fill (h : Lexical ls) (hapart : ls.IsChain (KeptApart texts)) :
    Lexical (ls.map (Lexeme.fill texts)) := by
  induction ls with
  | nil => exact .nil
  | cons l ls ih =>
      refine .cons (h.valid l List.mem_cons_self).fill ?_ (ih h.tail hapart.tail)
      intro filled hfilled
      rw [List.head?_map] at hfilled
      obtain ⟨next, hnext, rfl⟩ := Option.map_eq_some_iff.mp hfilled
      exact (h.next next hnext).fill (hapart.rel_head? hnext)

/-- Reading the display form of a text gives the lexemes of the text with the slots filled. -/
theorem lexemes?_fillSlots {sql : String} (hread : lexemes? sql.toList = some ls)
    (hapart : ls.IsChain (KeptApart texts)) :
    lexemes? (fillSlots sql (texts.map .text)).toList = some (ls.map (Lexeme.fill texts)) := by
  obtain ⟨htext, hlexical⟩ := lexemeText_of_lexemes? hread
  rw [fillSlots, String.toList_ofList, ← htext, fillSlotsFrom_lexemeText hlexical]
  exact lexemes?_lexemeText (hlexical.fill hapart)

end BugReport.Sql
