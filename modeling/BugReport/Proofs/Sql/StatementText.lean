import BugReport.Proofs.Sql.Regular
import Mathlib.Algebra.Group.Nat.Even

/-! # The text of a regular statement

The text of a regular statement is read back as the lexemes of its pieces. From this follows what makes
the text safe to hand to a database: it ends where it is meant to end, nothing in it opens a comment, and
only fixed texts stand in quotes.
-/

namespace BugReport.Sql

/-- What is quoted in a list of lexemes is one of the fixed texts. -/
def FixedLiterals (ls : List Lexeme) : Prop :=
  ∀ content, Lexeme.literal content ∈ ls → ∃ s ∈ fixedLiterals, s.toList = content

/-- A text that no value of a request can change the meaning of. -/
structure SafeText (text : String) : Prop where
  /-- Every quote that opens a literal has one that closes it. -/
  quotes : Even (text.toList.count '\'')
  /-- Outside of literals the parentheses are balanced and no comment starts. -/
  reading : ∃ ls, lexemes? text.toList = some ls ∧ FixedLiterals ls ∧ Balanced ls ∧
    ¬ [Lexeme.char '-', .char '-'] <:+: ls ∧ ¬ [Lexeme.char '/', .char '*'] <:+: ls
  /-- The only semicolon is the last character. -/
  ending : ∃ body, text.toList = body ++ [';'] ∧ ';' ∉ body

/-! ## Quotes -/

theorem even_count_quote (content : List Char) : Even ((quote content).count '\'') := by
  have hdoubled : Even ((doubled content).count '\'') := by
    induction content with
    | nil => exact ⟨0, rfl⟩
    | cons c content ih =>
        by_cases hc : c = '\''
        · subst hc
          rw [doubled_cons, if_pos rfl, List.count_append]
          have hpair : Even (['\'', '\''].count '\'') := ⟨1, rfl⟩
          exact hpair.add ih
        · rw [doubled_cons, if_neg hc, List.count_append, List.count_singleton]
          simpa [hc] using ih
  have hquote := quote_append content []
  rw [List.append_nil] at hquote
  rw [hquote, List.count_cons, List.count_append]
  have hlast : ['\''].count '\'' = 1 := rfl
  rw [hlast]
  -- The quotes around the content are two more.
  obtain ⟨n, hn⟩ := hdoubled
  exact ⟨n + 1, by simp [hn]; omega⟩

/-- Text that can be read holds an even number of quotes. -/
theorem even_count_lexemeText {ls : List Lexeme} (h : ∀ l ∈ ls, l.Valid) :
    Even ((lexemeText ls).count '\'') := by
  induction ls with
  | nil => exact ⟨0, rfl⟩
  | cons l ls ih =>
      have htail := ih fun other hother => h other (List.mem_cons_of_mem _ hother)
      rw [lexemeText_cons, List.count_append]
      refine Even.add ?_ htail
      have hvalid := h l List.mem_cons_self
      cases l with
      | char c => simp [Lexeme.text, hvalid.1]
      | literal content => exact even_count_quote content
      | slot digits =>
          have hdigits : '\'' ∉ '?' :: digits := by
            intro hmem
            rcases List.mem_cons.mp hmem with heq | hmem
            · cases heq
            · exact absurd (hvalid _ hmem) (by decide)
          rw [Lexeme.text, List.count_eq_zero_of_not_mem hdigits]
          exact ⟨0, rfl⟩

/-! ## Reading a statement -/

theorem fixedLiterals_lexemesOf {pieces : List Piece} (naming : Naming)
    (hvetted : ∀ piece ∈ pieces, piece.isVetted = true) : FixedLiterals (lexemesOf naming pieces) := by
  intro content hmem
  obtain ⟨piece, hpiece, hmem⟩ := List.mem_flatMap.mp hmem
  exact Piece.exists_of_literal_mem (hvetted piece hpiece) hmem

namespace Statement.Regular

variable {s : Statement} {naming : Naming}

theorem vetted_body (h : s.Regular) : ∀ piece ∈ s.body, piece.isVetted = true :=
  (h.whole_body 0).vetted

theorem lexemesOf_pieces (s : Statement) (naming : Naming) :
    lexemesOf naming s.pieces = lexemesOf naming s.body ++ [.char ';'] := by
  rw [pieces_eq_body, lexemesOf, List.flatMap_append]
  rfl

theorem toList_text (s : Statement) (naming : Naming) :
    (s.text naming).toList = (write naming s.body).toList ++ [';'] := by
  rw [text, pieces_eq_body, toList_write, toList_write, List.flatMap_append]
  simp [Piece.write]

/-- In a statement literals and slots are set apart from what follows them. -/
theorem isChain_lexemes (h : s.Regular) (naming : Naming) :
    (lexemesOf naming s.pieces).IsChain Lexeme.SetApart := by
  rw [lexemesOf_pieces]
  refine (h.whole_body 0).isChain.append (.singleton _) ?_
  intro l _ next hnext
  obtain rfl : Lexeme.char ';' = next := by simpa using hnext
  have hdigit : (';').isDigit = false := by decide
  cases l with
  | char c => trivial
  | literal content => exact hdigit
  | slot digits => exact hdigit

theorem lexical_lexemes (h : s.Regular) (hnaming : naming.Avoids ['\'', '?']) :
    Lexical (lexemesOf naming s.pieces) := by
  refine ⟨?_, (h.isChain_lexemes naming).imp fun l next hapart => hapart.distinct⟩
  rw [lexemesOf_pieces]
  intro l hl
  rcases List.mem_append.mp hl with hmem | hmem
  · exact ((h.whole_body 0).lexical hnaming).valid l hmem
  · rw [List.mem_singleton.mp hmem]
    exact ⟨by decide, by decide⟩

/-- The text of a regular statement is read as the lexemes of its pieces. -/
theorem lexemes?_text (h : s.Regular) (hnaming : naming.Avoids ['\'', '?']) :
    lexemes? (s.text naming).toList = some (lexemesOf naming s.pieces) := by
  have hread := lexemes?_lexemeText (h.lexical_lexemes hnaming)
  rw [lexemesOf_pieces, lexemeText_append] at hread
  rw [toList_text, ← lexemeText_lexemesOf h.vetted_body, lexemesOf_pieces]
  exact hread

theorem fixedLiterals_lexemes (h : s.Regular) (naming : Naming) :
    FixedLiterals (lexemesOf naming s.pieces) := by
  intro content hmem
  rw [lexemesOf_pieces] at hmem
  rcases List.mem_append.mp hmem with hbody | hlast
  · exact fixedLiterals_lexemesOf naming h.vetted_body content hbody
  · simp at hlast

theorem balanced_lexemes (h : s.Regular) (hnaming : naming.Avoids ['(', ')']) :
    Balanced (lexemesOf naming s.pieces) := by
  have hbody : (lexemesOf naming s.body).foldlM Lexeme.nest? 0 = some 0 :=
    (h.whole_body 0).foldlM_nest? hnaming
  rw [Balanced, lexemesOf_pieces, List.foldlM_append, hbody]
  rfl

theorem freeOfDashes_lexemes (h : s.Regular) (hnaming : naming.Avoids ['-']) :
    FreeOfDashes (lexemesOf naming s.pieces) := by
  rw [lexemesOf_pieces]
  exact (freeOfDashes_lexemesOf h.vetted_body hnaming).append (freeOfDashes_of_not_mem (by simp))

theorem slash_not_mem_lexemes (h : s.Regular) (hnaming : naming.Avoids ['/']) :
    Lexeme.char '/' ∉ lexemesOf naming s.pieces := by
  have hbody := foreign_slash.not_mem_lexemesOf h.vetted_body hnaming (by decide)
  rw [lexemesOf_pieces]
  simp [hbody]

/-- The text of a regular statement is safe as far as the names of the tables are. -/
theorem safeText (h : s.Regular) (hnaming : naming.Avoids ['\'', '?', '(', ')', ';', '-', '/']) :
    SafeText (s.text naming) := by
  have hplain : naming.Avoids ['\'', '?'] := hnaming.mono (by simp)
  have hread := h.lexemes?_text hplain
  refine ⟨?_, ⟨_, hread, h.fixedLiterals_lexemes naming, h.balanced_lexemes (hnaming.mono (by simp)),
    (h.freeOfDashes_lexemes (hnaming.mono (by simp))).no_comment, ?_⟩, ?_⟩
  · rw [← (lexemeText_of_lexemes? hread).1]
    exact even_count_lexemeText (h.lexical_lexemes hplain).valid
  · intro hcomment
    exact h.slash_not_mem_lexemes (hnaming.mono (by simp)) (hcomment.subset List.mem_cons_self)
  · exact ⟨_, toList_text s naming,
      semicolon_not_mem_write h.vetted_body (hnaming.mono (by simp))⟩

end Statement.Regular

end BugReport.Sql
