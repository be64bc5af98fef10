import BugReport.Proofs.Sql.Fragment
import BugReport.Proofs.Text.Digits

/-! # Reading the text of fragments

What a fragment says about the text that is written for it, however tables are called: the text is read
back as the lexemes of its pieces, its parentheses are those of its pieces, and its literals are fixed.
-/

namespace BugReport.Sql

open Lexeme

/-- No table is called by a name with one of these characters. -/
def Naming.Avoids (naming : Naming) (marks : List Char) : Prop :=
  ∀ t : Table, ∀ c ∈ (naming.tableName t.name).toList, c ∉ marks

theorem Naming.Avoids.mono {naming : Naming} {marks fewer : List Char} (h : naming.Avoids marks)
    (hsub : fewer ⊆ marks) : naming.Avoids fewer :=
  fun t c hc hmem => h t c hc (hsub hmem)

/-- For given names of the tables it can be evaluated whether they avoid the marks. -/
theorem Naming.avoids_of_all {naming : Naming} {marks : List Char}
    (h : ∀ t : Table, (naming.tableName t.name).toList.all fun c => ! marks.contains c) :
    naming.Avoids marks := by
  intro t c hc
  simpa using List.all_eq_true.mp (h t) c hc

/-- The characters of a text outside of literals. -/
def chars (s : String) : List Lexeme :=
  s.toList.map .char

/-- The lexemes of a piece. -/
def Piece.lexemes (naming : Naming) : Piece → List Lexeme
  | text s => chars s
  | literal s => [.literal s.toList]
  | column c => chars c.text
  | identifier i => chars i.text
  | table t => chars (naming.tableName t.name)
  | source t correlation => chars (naming.tableName t.name ++ " AS " ++ correlation)
  | slot n => [.slot (toString n).toList]
  | statusField =>
    match naming.statusField with
    | some n => chars (toString n)
    | none =>
      chars ("(SELECT id FROM " ++ naming.tableName Table.fielddefs.name ++ " WHERE name=") ++
        [.literal "bug_status".toList, .char ')']

/-- The lexemes of a fragment. -/
def lexemesOf (naming : Naming) (pieces : List Piece) : List Lexeme :=
  pieces.flatMap (Piece.lexemes naming)

variable {naming : Naming} {piece : Piece} {pieces : List Piece}

@[simp] theorem lexemeText_chars (s : String) : lexemeText (chars s) = s.toList := by
  simp [chars, lexemeText, Lexeme.text, List.flatMap_map]

@[simp] theorem char_mem_chars {c : Char} {s : String} : Lexeme.char c ∈ chars s ↔ c ∈ s.toList := by
  simp [chars]

/-! ## Characters outside of literals -/

/-- A character that stands in no fixed text and in no name. -/
structure Foreign (c : Char) : Prop where
  not_word : (c.isAlphanum || c == '_') = false
  ne_point : c ≠ '.'
  not_mem_fixed : ∀ s ∈ fixedTexts, c ∉ s.toList

theorem foreign_quote : Foreign '\'' := ⟨by decide, by decide, by decide⟩

theorem foreign_mark : Foreign '?' := ⟨by decide, by decide, by decide⟩

theorem foreign_semicolon : Foreign ';' := ⟨by decide, by decide, by decide⟩

theorem foreign_slash : Foreign '/' := ⟨by decide, by decide, by decide⟩

theorem foreign_dash : Foreign '-' := ⟨by decide, by decide, by decide⟩

/-- The characters of a column are word characters and points. -/
theorem not_mem_columnText {column : Column} (h : (Piece.column column).isVetted = true) {c : Char}
    (hword : (c.isAlphanum || c == '_') = false) (hpoint : c ≠ '.') :
    c ∉ column.text.toList := by
  simp only [Piece.isVetted, Bool.and_eq_true] at h
  have hname := not_mem_identifier h.2 hword
  cases howner : column.owner with
  | none => simpa only [Column.text, howner] using hname
  | some owner =>
      rw [howner] at h
      have howner' := not_mem_identifier h.1 hword
      simp [Column.text, howner, howner', hname, hpoint]

theorem not_mem_toString_int {n : Int} {c : Char} (hdigit : c.isDigit = false) (hsign : c ≠ '-') :
    c ∉ (toString n).toList := by
  intro hmem
  obtain ⟨m, hm | hm⟩ := Text.toString_int_cases n
  · rw [hm] at hmem
    rw [Text.isDigit_of_mem_toString hmem] at hdigit
    cases hdigit
  · rw [hm] at hmem
    rcases List.mem_cons.mp hmem with heq | hmem
    · exact hsign heq
    · rw [Text.isDigit_of_mem_toString hmem] at hdigit
      cases hdigit

theorem Foreign.not_digit {c : Char} (h : Foreign c) : c.isDigit = false := by
  have hword := h.not_word
  simp only [Char.isAlphanum, Bool.or_eq_false_iff] at hword
  exact hword.1.2

/-- A foreign character stands in the text of a vetted piece only inside of a literal, if no table has
it in its name. Only the number of the status field can have a sign. -/
theorem Foreign.not_mem_lexemes {c : Char} (h : Foreign c) (hvetted : piece.isVetted = true)
    (hnaming : naming.Avoids [c]) (hsign : piece = .statusField → c ≠ '-') :
    Lexeme.char c ∉ piece.lexemes naming := by
  have htable (t : Table) : c ∉ (naming.tableName t.name).toList :=
    fun hmem => hnaming t c hmem List.mem_cons_self
  cases piece with
  | text s =>
      simp only [Piece.isVetted, Bool.or_eq_true, List.contains_iff_mem] at hvetted
      rw [Piece.lexemes, char_mem_chars]
      rcases hvetted with hname | hfixed
      · exact not_mem_identifier hname h.not_word
      · exact h.not_mem_fixed s hfixed
  | literal s => simp [Piece.lexemes]
  | column column =>
      rw [Piece.lexemes, char_mem_chars]
      exact not_mem_columnText hvetted h.not_word h.ne_point
  | identifier i =>
      rw [Piece.lexemes, char_mem_chars]
      exact not_mem_identifier i.valid h.not_word
  | table t =>
      rw [Piece.lexemes, char_mem_chars]
      exact htable t
  | source t correlation =>
      have hcorrelation := not_mem_identifier hvetted h.not_word
      have hword := h.not_mem_fixed " AS " (by decide)
      rw [Piece.lexemes, char_mem_chars]
      simp only [String.toList_append, List.mem_append, not_or]
      exact ⟨⟨htable t, hword⟩, hcorrelation⟩
  | slot n => simp [Piece.lexemes]
  | statusField =>
      have hselect := h.not_mem_fixed "(SELECT id FROM " (by decide)
      have hwhere := h.not_mem_fixed " WHERE name=" (by decide)
      have hclose := h.not_mem_fixed ")" (by decide)
      cases hstatus : naming.statusField with
      | some n =>
          simp only [Piece.lexemes, hstatus, char_mem_chars]
          exact not_mem_toString_int h.not_digit (hsign rfl)
      | none =>
          simp only [Piece.lexemes, hstatus, List.mem_append, char_mem_chars, String.toList_append,
            not_or]
          refine ⟨⟨⟨hselect, htable _⟩, hwhere⟩, ?_⟩
          simpa using hclose

/-! ## The text of a fragment -/

theorem quote_of_mem_fixedLiterals {s : String} (h : s ∈ fixedLiterals) :
    quote s.toList = '\'' :: s.toList ++ ['\''] := by
  revert s
  decide

theorem Piece.lexemeText_lexemes (hvetted : piece.isVetted = true) :
    lexemeText (piece.lexemes naming) = (piece.write naming).toList := by
  cases piece with
  | literal s =>
      simp only [Piece.isVetted, List.contains_iff_mem] at hvetted
      simp [Piece.lexemes, Piece.write, Lexeme.text, quote_of_mem_fixedLiterals hvetted]
  | slot n => simp [Piece.lexemes, Piece.write, Lexeme.text]
  | statusField =>
      cases hstatus : naming.statusField with
      | some n => simp [Piece.lexemes, Piece.write, hstatus]
      | none => simp [Piece.lexemes, Piece.write, hstatus, Lexeme.text, quote]
  | _ => simp [Piece.lexemes, Piece.write]

theorem lexemeText_lexemesOf (hvetted : ∀ piece ∈ pieces, piece.isVetted = true) :
    lexemeText (lexemesOf naming pieces) = (write naming pieces).toList := by
  rw [toList_write, lexemesOf]
  induction pieces with
  | nil => rfl
  | cons piece pieces ih =>
      have htail := ih fun other hother => hvetted other (List.mem_cons_of_mem _ hother)
      rw [List.flatMap_cons, List.flatMap_cons, lexemeText_append, htail,
        Piece.lexemeText_lexemes (hvetted piece List.mem_cons_self)]

/-- The literals of a vetted piece are fixed. -/
theorem Piece.exists_of_literal_mem {content : List Char} (hvetted : piece.isVetted = true)
    (h : Lexeme.literal content ∈ piece.lexemes naming) :
    ∃ s ∈ fixedLiterals, s.toList = content := by
  cases piece with
  | literal s =>
      simp only [Piece.isVetted, List.contains_iff_mem] at hvetted
      simp only [Piece.lexemes, List.mem_singleton, Lexeme.literal.injEq] at h
      exact ⟨s, hvetted, h.symm⟩
  | statusField =>
      cases hstatus : naming.statusField with
      | some n => simp [Piece.lexemes, hstatus, chars] at h
      | none =>
          simp only [Piece.lexemes, hstatus, chars, List.mem_append, List.mem_map, reduceCtorEq,
            and_false, exists_false, List.mem_cons, Lexeme.literal.injEq, List.not_mem_nil, or_false,
            false_or] at h
          exact ⟨"bug_status", by decide, h.symm⟩
  | _ => simp [Piece.lexemes, chars] at h

theorem Piece.digits_of_slot_mem {digits : List Char}
    (h : Lexeme.slot digits ∈ piece.lexemes naming) : ∃ n : Nat, (toString n).toList = digits := by
  cases piece with
  | slot n =>
      simp only [Piece.lexemes, List.mem_singleton, Lexeme.slot.injEq] at h
      exact ⟨n, h.symm⟩
  | statusField =>
      cases hstatus : naming.statusField with
      | some n => simp [Piece.lexemes, hstatus, chars] at h
      | none => simp [Piece.lexemes, hstatus, chars] at h
  | _ => simp [Piece.lexemes, chars] at h

theorem Piece.valid_of_mem_lexemes (hvetted : piece.isVetted = true)
    (hnaming : naming.Avoids ['\'', '?']) {l : Lexeme} (h : l ∈ piece.lexemes naming) :
    l.Valid := by
  cases l with
  | char c =>
      have hquote : naming.Avoids ['\''] := hnaming.mono (by simp)
      have hmark : naming.Avoids ['?'] := hnaming.mono (by simp)
      constructor
      · rintro rfl
        exact foreign_quote.not_mem_lexemes hvetted hquote (fun _ => by decide) h
      · rintro rfl
        exact foreign_mark.not_mem_lexemes hvetted hmark (fun _ => by decide) h
  | literal content => trivial
  | slot digits =>
      obtain ⟨n, rfl⟩ := Piece.digits_of_slot_mem h
      exact fun d hd => Text.isDigit_of_mem_toString hd

/-! ## Neighbours -/

/-- Whether a neighbour sets a literal or a slot apart, which it does as a character that is no digit. -/
def Lexeme.SetApart : Lexeme → Lexeme → Prop
  | char _, _ => True
  | _, char c => c.isDigit = false
  | _, _ => False

theorem Lexeme.SetApart.distinct {l next : Lexeme} (h : SetApart l next) : Distinct l next := by
  cases l <;> cases next <;> trivial

theorem isChain_chars (s : String) : (chars s).IsChain SetApart := by
  refine List.isChain_iff_forall_rel_of_append_cons_cons.mpr ?_
  intro l next before after heq
  have hmem : l ∈ chars s := by simp [heq]
  simp only [chars, List.mem_map] at hmem
  obtain ⟨c, -, rfl⟩ := hmem
  trivial

theorem getLast?_chars {s : String} {l : Lexeme} (h : l ∈ (chars s).getLast?) :
    ∃ c, l = .char c := by
  have hmem := List.mem_of_getLast? h
  simp only [chars, List.mem_map] at hmem
  obtain ⟨c, -, rfl⟩ := hmem
  exact ⟨c, rfl⟩

theorem Piece.isChain_lexemes : (piece.lexemes naming).IsChain SetApart := by
  cases piece with
  | literal s => exact .singleton _
  | slot n => exact .singleton _
  | statusField =>
      cases hstatus : naming.statusField with
      | some n =>
          simp only [Piece.lexemes, hstatus]
          exact isChain_chars _
      | none =>
          simp only [Piece.lexemes, hstatus]
          refine (isChain_chars _).append ?_ ?_
          · exact List.isChain_pair.mpr (by decide : (')').isDigit = false)
          · intro l hl next _
            obtain ⟨c, rfl⟩ := getLast?_chars hl
            trivial
  | _ => exact isChain_chars _

/-- Whatever follows a piece that is not open-ended is set apart from it. -/
theorem Piece.setApart_of_getLast? (hclosed : piece.isOpenEnded = false) {l : Lexeme}
    (hl : l ∈ (piece.lexemes naming).getLast?) (next : Lexeme) : SetApart l next := by
  have hchar : ∃ c, l = .char c := by
    cases piece with
    | literal s => cases hclosed
    | slot n => cases hclosed
    | statusField =>
        cases hstatus : naming.statusField with
        | some n =>
            simp only [Piece.lexemes, hstatus] at hl
            exact getLast?_chars hl
        | none =>
            simp only [Piece.lexemes, hstatus, List.getLast?_append_of_ne_nil _ (List.cons_ne_nil _ _),
              List.getLast?_cons_cons, List.getLast?_singleton, Option.mem_def,
              Option.some.injEq] at hl
            exact ⟨_, hl.symm⟩
    | _ => exact getLast?_chars hl
  obtain ⟨c, rfl⟩ := hchar
  trivial

/-- Whether a list starts with a character that sets apart what comes before it. -/
def StartsApart (ls : List Lexeme) : Prop :=
  ∀ l ∈ ls.head?, ∃ c : Char, l = .char c ∧ c.isDigit = false

theorem Piece.startsApart (hapart : piece.setsApart = true) (more : List Lexeme) :
    StartsApart (piece.lexemes naming ++ more) := by
  cases piece with
  | text s =>
      simp only [Piece.setsApart, Option.any_eq_true, Bool.not_eq_true'] at hapart
      obtain ⟨c, hc, hdigit⟩ := hapart
      obtain ⟨rest, hrest⟩ := List.head?_eq_some_iff.mp hc
      intro l hl
      simp only [Piece.lexemes, chars, hrest, List.map_cons, List.cons_append, List.head?_cons,
        Option.mem_def, Option.some.injEq] at hl
      exact ⟨c, hl.symm, hdigit⟩
  | _ => cases hapart

namespace Leads

variable {p q : Position}

theorem pending_startsApart (h : Leads p pieces q) (hpending : p.pending = true) :
    StartsApart (lexemesOf naming pieces) := by
  cases pieces with
  | nil => simp [StartsApart, lexemesOf]
  | cons piece pieces =>
      obtain ⟨-, middle, hmiddle, -⟩ := cons_iff.mp h
      obtain ⟨hapart, -, -⟩ := Position.behind?_eq_some.mp hmiddle
      exact Piece.startsApart (hapart hpending) _

/-- In a fragment literals and slots are set apart from what follows them. -/
theorem isChain (h : Leads p pieces q) : (lexemesOf naming pieces).IsChain SetApart := by
  induction pieces generalizing p with
  | nil => exact .nil
  | cons piece pieces ih =>
      obtain ⟨-, middle, hmiddle, hrest⟩ := cons_iff.mp h
      obtain ⟨-, -, hpending⟩ := Position.behind?_eq_some.mp hmiddle
      rw [lexemesOf, List.flatMap_cons]
      -- What is left is the seam between the piece and the fragment behind it.
      refine Piece.isChain_lexemes.append (ih hrest) ?_
      intro l hl next hnext
      cases hopen : piece.isOpenEnded with
      | false => exact Piece.setApart_of_getLast? hopen hl next
      | true =>
          obtain ⟨c, rfl, hdigit⟩ := hrest.pending_startsApart (hpending.trans hopen) next hnext
          cases l with
          | char c => trivial
          | literal content => exact hdigit
          | slot digits => exact hdigit

/-- The text of a fragment is read as the lexemes of its pieces. -/
theorem lexical (h : Leads p pieces q) (hnaming : naming.Avoids ['\'', '?']) :
    Lexical (lexemesOf naming pieces) := by
  refine ⟨?_, h.isChain.imp fun l next hapart => hapart.distinct⟩
  intro l hl
  obtain ⟨piece, hpiece, hl⟩ := List.mem_flatMap.mp hl
  exact Piece.valid_of_mem_lexemes (h.vetted piece hpiece) hnaming hl

theorem lexemes?_write (h : Leads p pieces q) (hnaming : naming.Avoids ['\'', '?']) :
    lexemes? (write naming pieces).toList = some (lexemesOf naming pieces) := by
  rw [← lexemeText_lexemesOf h.vetted]
  exact lexemes?_lexemeText (h.lexical hnaming)

end Leads

/-! ## Parentheses -/

/-- The depth behind a lexeme. Parentheses in literals do not count. -/
def Lexeme.nest? (depth : Nat) : Lexeme → Option Nat
  | char c => Sql.nest? depth c
  | _ => some depth

/-- Whether the parentheses outside of literals close what they open. -/
def Balanced (ls : List Lexeme) : Prop :=
  ls.foldlM Lexeme.nest? 0 = some 0

theorem foldlM_nest?_chars (s : String) (depth : Nat) :
    (chars s).foldlM Lexeme.nest? depth = s.toList.foldlM Sql.nest? depth := by
  rw [chars, List.foldlM_map]
  rfl

theorem Piece.foldlM_nest?_lexemes (hvetted : piece.isVetted = true)
    (hnaming : naming.Avoids ['(', ')']) (depth : Nat) :
    (piece.lexemes naming).foldlM Lexeme.nest? depth = piece.nest? depth := by
  have htable (t : Table) (depth : Nat) :
      (naming.tableName t.name).toList.foldlM Sql.nest? depth = some depth :=
    foldlM_nest?_of_not_mem (fun hmem => hnaming t _ hmem (by simp))
      (fun hmem => hnaming t _ hmem (by simp)) depth
  cases piece with
  | text s => exact foldlM_nest?_chars s depth
  | literal s => rfl
  | slot n => rfl
  | column column =>
      simp only [Piece.lexemes, foldlM_nest?_chars]
      exact foldlM_nest?_of_not_mem (not_mem_columnText hvetted (by decide) (by decide))
        (not_mem_columnText hvetted (by decide) (by decide)) depth
  | identifier i =>
      simp only [Piece.lexemes, foldlM_nest?_chars]
      exact foldlM_nest?_identifier i.valid depth
  | table t =>
      simp only [Piece.lexemes, foldlM_nest?_chars]
      exact htable t depth
  | source t correlation =>
      have hword : " AS ".toList.foldlM Sql.nest? depth = some depth :=
        foldlM_nest?_of_not_mem (by decide) (by decide) depth
      simp only [Piece.lexemes, foldlM_nest?_chars, String.toList_append, List.foldlM_append, htable,
        hword, foldlM_nest?_identifier hvetted, Option.bind_eq_bind, Option.bind_some, Piece.nest?]
  | statusField =>
      cases hstatus : naming.statusField with
      | some n =>
          simp only [Piece.lexemes, hstatus, foldlM_nest?_chars]
          exact foldlM_nest?_of_not_mem (not_mem_toString_int (by decide) (by decide))
            (not_mem_toString_int (by decide) (by decide)) depth
      | none =>
          have hopen : "(SELECT id FROM ".toList.foldlM Sql.nest? 0 = some 1 := by decide
          have hselect := foldlM_nest?_add hopen depth
          have hwhere : " WHERE name=".toList.foldlM Sql.nest? (1 + depth) = some (1 + depth) :=
            foldlM_nest?_of_not_mem (by decide) (by decide) _
          rw [Nat.zero_add] at hselect
          simp only [Piece.lexemes, hstatus, List.foldlM_append, foldlM_nest?_chars,
            String.toList_append, hselect, htable, hwhere, Option.bind_eq_bind, Option.bind_some]
          simp [Lexeme.nest?, Sql.nest?, Piece.nest?]

theorem Leads.foldlM_nest? {p q : Position} (h : Leads p pieces q)
    (hnaming : naming.Avoids ['(', ')']) :
    (lexemesOf naming pieces).foldlM Lexeme.nest? p.depth = some q.depth := by
  induction pieces generalizing p with
  | nil =>
      obtain rfl : p = q := Option.some.inj h.position
      rfl
  | cons piece pieces ih =>
      obtain ⟨hpiece, middle, hmiddle, hrest⟩ := Leads.cons_iff.mp h
      obtain ⟨-, hdepth, -⟩ := Position.behind?_eq_some.mp hmiddle
      rw [lexemesOf, List.flatMap_cons, List.foldlM_append,
        Piece.foldlM_nest?_lexemes hpiece hnaming, hdepth]
      exact ih hrest

/-! ## Dashes -/

/-- Two neighbours that do not open a comment. -/
def Lexeme.NotDashes (l next : Lexeme) : Prop :=
  l = .char '-' → next ≠ .char '-'

/-- Whether a list holds no two dashes in a row, even when more follows. -/
def FreeOfDashes (ls : List Lexeme) : Prop :=
  ls.IsChain NotDashes ∧ ∀ l ∈ ls.getLast?, l ≠ .char '-'

theorem FreeOfDashes.append {ls more : List Lexeme} (h : FreeOfDashes ls)
    (hmore : FreeOfDashes more) : FreeOfDashes (ls ++ more) := by
  refine ⟨h.1.append hmore.1 ?_, ?_⟩
  · intro l hl next _ hdash
    exact absurd hdash (h.2 l hl)
  · intro l hl
    rw [List.getLast?_append] at hl
    rcases Option.or_eq_some_iff.mp hl with hlast | ⟨-, hlast⟩
    · exact hmore.2 l hlast
    · exact h.2 l hlast

theorem freeOfDashes_of_not_mem {ls : List Lexeme} (h : Lexeme.char '-' ∉ ls) : FreeOfDashes ls := by
  refine ⟨List.isChain_iff_forall_rel_of_append_cons_cons.mpr ?_, ?_⟩
  · rintro l next before after heq rfl
    exact absurd (by simp [heq]) h
  · rintro l hl rfl
    exact h (List.mem_of_getLast? hl)

/-- A number starts with at most one sign, and a digit follows it. -/
theorem freeOfDashes_int (n : Int) : FreeOfDashes (chars (toString n)) := by
  have hdigits (m : Nat) : Lexeme.char '-' ∉ (toString m).toList.map Lexeme.char := by
    intro hmem
    obtain ⟨c, hc, heq⟩ := List.mem_map.mp hmem
    cases heq
    exact absurd (Text.isDigit_of_mem_toString hc) (by decide)
  obtain ⟨m, hm | hm⟩ := Text.toString_int_cases n
  · rw [chars, hm]
    exact freeOfDashes_of_not_mem (hdigits m)
  · -- A sign stands before at least one digit, so it is neither doubled nor last.
    obtain ⟨d, rest, hrest⟩ := List.exists_cons_of_ne_nil (Text.toString_ne_nil m)
    have hfree := freeOfDashes_of_not_mem (hdigits m)
    have hnot := hdigits m
    rw [hrest, List.map_cons] at hfree hnot
    rw [chars, hm, hrest, List.map_cons, List.map_cons]
    refine ⟨hfree.1.cons ?_, ?_⟩
    · intro next hnext _ hdash
      rw [hdash] at hnext
      exact hnot (List.mem_of_head? hnext)
    · rw [List.getLast?_cons_cons]
      exact hfree.2

theorem Piece.freeOfDashes (hvetted : piece.isVetted = true) (hnaming : naming.Avoids ['-']) :
    FreeOfDashes (piece.lexemes naming) := by
  by_cases hfield : piece = .statusField
  · -- The number of the status field may be negative, so its dashes have to be looked at.
    subst hfield
    cases hstatus : naming.statusField with
    | some n =>
        simp only [Piece.lexemes, hstatus]
        exact freeOfDashes_int n
    | none =>
        have htable : '-' ∉ (naming.tableName Table.fielddefs.name).toList :=
          fun hmem => hnaming _ _ hmem List.mem_cons_self
        apply freeOfDashes_of_not_mem
        simp [Piece.lexemes, hstatus, htable]
  · exact freeOfDashes_of_not_mem
      (foreign_dash.not_mem_lexemes hvetted hnaming fun heq => absurd heq hfield)

theorem freeOfDashes_lexemesOf (hvetted : ∀ piece ∈ pieces, piece.isVetted = true)
    (hnaming : naming.Avoids ['-']) : FreeOfDashes (lexemesOf naming pieces) := by
  induction pieces with
  | nil => exact ⟨.nil, by simp [lexemesOf]⟩
  | cons piece pieces ih =>
      rw [lexemesOf, List.flatMap_cons]
      exact (Piece.freeOfDashes (hvetted piece List.mem_cons_self) hnaming).append
        (ih fun other hother => hvetted other (List.mem_cons_of_mem _ hother))

/-- No comment starts with two dashes. -/
theorem FreeOfDashes.no_comment {ls : List Lexeme} (h : FreeOfDashes ls) :
    ¬ [Lexeme.char '-', .char '-'] <:+: ls := by
  rintro ⟨before, after, rfl⟩
  have hdashes := h.1.left_of_append.right_of_append
  exact List.isChain_pair.mp hdashes rfl rfl

/-! ## Signs that fragments do not hold -/

theorem Foreign.not_mem_lexemesOf {c : Char} (h : Foreign c)
    (hvetted : ∀ piece ∈ pieces, piece.isVetted = true) (hnaming : naming.Avoids [c])
    (hsign : c ≠ '-') : Lexeme.char c ∉ lexemesOf naming pieces := by
  intro hmem
  obtain ⟨piece, hpiece, hmem⟩ := List.mem_flatMap.mp hmem
  exact h.not_mem_lexemes (hvetted piece hpiece) hnaming (fun _ => hsign) hmem

theorem semicolon_not_mem_literal {s : String} (h : s ∈ fixedLiterals) : ';' ∉ quote s.toList := by
  revert s
  decide

/-- Only the end of a statement is a semicolon. -/
theorem semicolon_not_mem_write (hvetted : ∀ piece ∈ pieces, piece.isVetted = true)
    (hnaming : naming.Avoids [';']) : ';' ∉ (write naming pieces).toList := by
  rw [← lexemeText_lexemesOf hvetted]
  intro hmem
  obtain ⟨l, hl, hmem⟩ := List.mem_flatMap.mp hmem
  obtain ⟨piece, hpiece, hpl⟩ := List.mem_flatMap.mp hl
  cases l with
  | char c =>
      rw [Lexeme.text, List.mem_singleton] at hmem
      subst hmem
      exact foreign_semicolon.not_mem_lexemesOf hvetted hnaming (by decide) hl
  | literal content =>
      obtain ⟨s, hs, rfl⟩ := Piece.exists_of_literal_mem (hvetted piece hpiece) hpl
      exact semicolon_not_mem_literal hs hmem
  | slot digits =>
      obtain ⟨n, rfl⟩ := Piece.digits_of_slot_mem hpl
      rcases List.mem_cons.mp hmem with heq | hmem
      · cases heq
      · exact absurd (Text.isDigit_of_mem_toString hmem) (by decide)

end BugReport.Sql
