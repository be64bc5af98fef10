import BugReport.Sql.Value
import Mathlib.Data.List.Chain

/-! # Lexemes of SQL text

What a database sees in the text of a statement: quoted literals, in which a quote is written twice,
slots, and all other characters one by one. Reading is the inverse of writing: it succeeds on exactly
the texts of those lists in which no two neighbours would run into each other.
-/

namespace BugReport.Sql

/-- A lexeme of SQL text. -/
inductive Lexeme where
  /-- A character outside of literals. -/
  | char (c : Char)
  /-- A quoted literal by its content. -/
  | literal (content : List Char)
  /-- A question mark outside of literals with the digits behind it. -/
  | slot (digits : List Char)
  deriving DecidableEq, Repr

namespace Lexeme

/-- Writes a lexeme. -/
def text : Lexeme → List Char
  | char c => [c]
  | literal content => quote content
  | slot digits => '?' :: digits

/-- Whether a lexeme is one by itself: its characters are of its own kind. -/
def Valid : Lexeme → Prop
  | char c => c ≠ '\'' ∧ c ≠ '?'
  | literal _ => True
  | slot digits => ∀ d ∈ digits, d.isDigit

/-- Whether two neighbours stay apart. Two literals in a row would be one with a quote in it, and
digits behind a slot would belong to its number. -/
def Distinct : Lexeme → Lexeme → Prop
  | literal _, literal _ => False
  | slot _, char c => c.isDigit = false
  | _, _ => True

/-- Splits what follows an opening quote into the content of the literal and the rest behind it. -/
def closeLiteral? : List Char → Option (List Char × List Char)
  | [] => none
  | '\'' :: '\'' :: cs => (closeLiteral? cs).map fun (content, rest) => ('\'' :: content, rest)
  | '\'' :: cs => some ([], cs)
  | c :: cs => (closeLiteral? cs).map fun (content, rest) => (c :: content, rest)

end Lexeme

open Lexeme

/-- Writes lexemes one after the other. -/
def lexemeText (ls : List Lexeme) : List Char :=
  ls.flatMap text

/-- Whether a list of lexemes can be read back from its text. -/
structure Lexical (ls : List Lexeme) : Prop where
  valid : ∀ l ∈ ls, l.Valid
  distinct : ls.IsChain Distinct

/-- The characters of a literal between its quotes. -/
def doubled (content : List Char) : List Char :=
  content.flatMap fun c => if c == '\'' then ['\'', '\''] else [c]

@[simp] theorem doubled_nil : doubled [] = [] := rfl

@[simp] theorem doubled_cons (c : Char) (content : List Char) :
    doubled (c :: content) = (if c = '\'' then ['\'', '\''] else [c]) ++ doubled content := by
  simp [doubled]

theorem quote_append (content rest : List Char) :
    quote content ++ rest = '\'' :: (doubled content ++ '\'' :: rest) := by
  simp [quote, doubled]

/-- A literal ends at the first quote that is not doubled. -/
theorem closeLiteral?_doubled (content : List Char) {rest : List Char}
    (hrest : rest.head? ≠ some '\'') :
    closeLiteral? (doubled content ++ '\'' :: rest) = some (content, rest) := by
  induction content with
  | nil =>
      cases rest with
      | nil => simp [closeLiteral?]
      | cons c rest =>
          have hc : c ≠ '\'' := by simpa using hrest
          simp [closeLiteral?, hc]
  | cons c content ih =>
      by_cases hc : c = '\''
      · subst hc
        -- The two quotes that stand for one are read as content, and the literal goes on.
        simp [closeLiteral?, ih]
      · simp [closeLiteral?, hc, ih]

/-- What a literal was split into is its content and the rest. -/
theorem eq_of_closeLiteral? {cs content rest : List Char}
    (h : closeLiteral? cs = some (content, rest)) :
    cs = doubled content ++ '\'' :: rest ∧ rest.head? ≠ some '\'' := by
  induction cs using closeLiteral?.induct generalizing content rest with
  | case1 => simp [closeLiteral?] at h
  | case2 tail ih =>
      simp only [closeLiteral?, Option.map_eq_some_iff, Prod.mk.injEq] at h
      obtain ⟨⟨inner, _⟩, hclose, rfl, rfl⟩ := h
      obtain ⟨htail, hhead⟩ := ih hclose
      exact ⟨by simp [htail], hhead⟩
  | case3 tail hnot =>
      simp only [closeLiteral?, Option.some.injEq, Prod.mk.injEq] at h
      obtain ⟨rfl, rfl⟩ := h
      refine ⟨rfl, ?_⟩
      -- A second quote would have been the case before.
      intro hhead
      obtain ⟨more, rfl⟩ := List.head?_eq_some_iff.mp hhead
      exact hnot more rfl
  | case4 c tail _ hnot ih =>
      simp only [closeLiteral?, Option.map_eq_some_iff, Prod.mk.injEq] at h
      obtain ⟨⟨inner, _⟩, hclose, rfl, rfl⟩ := h
      obtain ⟨htail, hhead⟩ := ih hclose
      have hc : c ≠ '\'' := fun heq => hnot heq
      exact ⟨by simp [htail, hc], hhead⟩

/-- Reads SQL text. A text that ends inside of a literal is not SQL. -/
def lexemes? : List Char → Option (List Lexeme)
  | [] => some []
  | '\'' :: cs =>
    match _hclose : closeLiteral? cs with
    | none => none
    | some (content, rest) => (lexemes? rest).map (.literal content :: ·)
  | '?' :: cs =>
    (lexemes? (cs.dropWhile Char.isDigit)).map (.slot (cs.takeWhile Char.isDigit) :: ·)
  | c :: cs => (lexemes? cs).map (.char c :: ·)
termination_by cs => cs.length
decreasing_by
  · rw [(eq_of_closeLiteral? _hclose).1]
    simp only [List.length_cons, List.length_append]
    omega
  · have := (List.dropWhile_sublist Char.isDigit (l := cs)).length_le
    simp only [List.length_cons]
    omega
  · simp

/-! ## Reading what was written -/

@[simp] theorem lexemeText_nil : lexemeText [] = [] := rfl

@[simp] theorem lexemeText_cons (l : Lexeme) (ls : List Lexeme) :
    lexemeText (l :: ls) = l.text ++ lexemeText ls := rfl

@[simp] theorem lexemeText_append (ls more : List Lexeme) :
    lexemeText (ls ++ more) = lexemeText ls ++ lexemeText more := by
  simp [lexemeText]

theorem lexemes?_char {c : Char} (hquote : c ≠ '\'') (hmark : c ≠ '?') (cs : List Char) :
    lexemes? (c :: cs) = (lexemes? cs).map (.char c :: ·) := by
  rw [lexemes?]
  · exact fun heq => hquote heq
  · exact fun heq => hmark heq

theorem lexemes?_literal (content : List Char) {rest : List Char}
    (hrest : rest.head? ≠ some '\'') :
    lexemes? (quote content ++ rest) = (lexemes? rest).map (.literal content :: ·) := by
  rw [quote_append, lexemes?]
  have hclose := closeLiteral?_doubled content hrest
  split
  next hnone => simp [hclose] at hnone
  next hsome =>
      rw [hclose] at hsome
      cases hsome
      rfl

theorem takeWhile_digits {digits rest : List Char} (hdigits : ∀ d ∈ digits, d.isDigit)
    (hrest : ∀ c, rest.head? = some c → c.isDigit = false) :
    (digits ++ rest).takeWhile Char.isDigit = digits := by
  rw [List.takeWhile_append_of_pos hdigits]
  cases rest with
  | nil => simp
  | cons c rest => simp [hrest c rfl]

theorem dropWhile_digits {digits rest : List Char} (hdigits : ∀ d ∈ digits, d.isDigit)
    (hrest : ∀ c, rest.head? = some c → c.isDigit = false) :
    (digits ++ rest).dropWhile Char.isDigit = rest := by
  rw [List.dropWhile_append_of_pos hdigits]
  cases rest with
  | nil => simp
  | cons c rest => simp [hrest c rfl]

theorem lexemes?_slot {digits rest : List Char} (hdigits : ∀ d ∈ digits, d.isDigit)
    (hrest : ∀ c, rest.head? = some c → c.isDigit = false) :
    lexemes? ('?' :: (digits ++ rest)) = (lexemes? rest).map (.slot digits :: ·) := by
  rw [lexemes?, takeWhile_digits hdigits hrest, dropWhile_digits hdigits hrest]

namespace Lexical

variable {l : Lexeme} {ls : List Lexeme}

theorem nil : Lexical [] := ⟨by simp, .nil⟩

theorem cons (hvalid : l.Valid) (hnext : ∀ next ∈ ls.head?, Distinct l next) (hls : Lexical ls) :
    Lexical (l :: ls) := by
  refine ⟨?_, hls.distinct.cons hnext⟩
  intro other hother
  rcases List.mem_cons.mp hother with rfl | hmem
  · exact hvalid
  · exact hls.valid other hmem

theorem tail (h : Lexical (l :: ls)) : Lexical ls :=
  ⟨fun other hother => h.valid other (List.mem_cons_of_mem _ hother), h.distinct.of_cons⟩

theorem next (h : Lexical (l :: ls)) : ∀ next ∈ ls.head?, Distinct l next := by
  intro next hnext
  obtain ⟨rest, rfl⟩ := List.head?_eq_some_iff.mp hnext
  exact h.distinct.rel

/-- Behind a literal no quote follows. -/
theorem head?_ne_quote {content : List Char} (h : Lexical (.literal content :: ls)) :
    (lexemeText ls).head? ≠ some '\'' := by
  cases ls with
  | nil => simp
  | cons next rest =>
      have hdistinct := h.next next rfl
      have hvalid := h.tail.valid next List.mem_cons_self
      cases next with
      | char c => simpa [Lexeme.text] using hvalid.1
      | literal other => exact hdistinct.elim
      | slot digits => simp [Lexeme.text]

/-- Behind a slot no digit follows. -/
theorem head?_not_digit {digits : List Char} (h : Lexical (.slot digits :: ls)) (c : Char)
    (hc : (lexemeText ls).head? = some c) : c.isDigit = false := by
  cases ls with
  | nil => simp at hc
  | cons next rest =>
      have hdistinct := h.next next rfl
      cases next with
      | char other =>
          simp only [lexemeText_cons, Lexeme.text, List.cons_append, List.head?_cons,
            Option.some.injEq] at hc
          exact hc ▸ hdistinct
      | literal other =>
          simp only [lexemeText_cons, Lexeme.text, quote_append, List.head?_cons,
            Option.some.injEq] at hc
          subst hc
          decide
      | slot other =>
          simp only [lexemeText_cons, Lexeme.text, List.cons_append, List.head?_cons,
            Option.some.injEq] at hc
          subst hc
          decide

end Lexical

/-- Reading gives back the lexemes that were written. -/
theorem lexemes?_lexemeText {ls : List Lexeme} (h : Lexical ls) :
    lexemes? (lexemeText ls) = some ls := by
  induction ls with
  | nil => simp [lexemes?]
  | cons l ls ih =>
      have htail := ih h.tail
      cases l with
      | char c =>
          obtain ⟨hquote, hmark⟩ := h.valid _ List.mem_cons_self
          simp only [lexemeText_cons, Lexeme.text, List.cons_append, List.nil_append]
          rw [lexemes?_char hquote hmark, htail, Option.map_some]
      | literal content =>
          simp only [lexemeText_cons, Lexeme.text]
          rw [lexemes?_literal content h.head?_ne_quote, htail, Option.map_some]
      | slot digits =>
          simp only [lexemeText_cons, Lexeme.text, List.cons_append]
          rw [lexemes?_slot (h.valid _ List.mem_cons_self) h.head?_not_digit, htail,
            Option.map_some]

/-- What was read is the text, cut into lexemes that stay apart. -/
theorem lexemeText_of_lexemes? {cs : List Char} {ls : List Lexeme} (h : lexemes? cs = some ls) :
    lexemeText ls = cs ∧ Lexical ls := by
  fun_induction lexemes? cs generalizing ls with
  | case1 =>
      cases h
      exact ⟨rfl, .nil⟩
  | case2 => cases h
  | case3 cs content rest hclose ih =>
      obtain ⟨tail, htail, rfl⟩ := Option.map_eq_some_iff.mp h
      obtain ⟨rfl, hlexical⟩ := ih htail
      obtain ⟨rfl, hhead⟩ := eq_of_closeLiteral? hclose
      refine ⟨by simp [Lexeme.text, quote_append], .cons trivial ?_ hlexical⟩
      intro next hnext
      obtain ⟨more, rfl⟩ := List.head?_eq_some_iff.mp hnext
      cases next with
      | char c => trivial
      | literal other => simp [Lexeme.text, quote_append] at hhead
      | slot digits => trivial
  | case4 cs ih =>
      obtain ⟨tail, htail, rfl⟩ := Option.map_eq_some_iff.mp h
      obtain ⟨htext, hlexical⟩ := ih htail
      refine ⟨by simp [Lexeme.text, htext, List.takeWhile_append_dropWhile], .cons ?_ ?_ hlexical⟩
      · exact List.all_eq_true.mp List.all_takeWhile
      · intro next hnext
        obtain ⟨more, rfl⟩ := List.head?_eq_some_iff.mp hnext
        cases next with
        | char c =>
            -- The slot took all digits that follow, so what is left starts with none.
            have hhead := List.head?_dropWhile_not Char.isDigit cs
            rw [← htext] at hhead
            simpa [Lexeme.text, Distinct] using hhead
        | literal other => trivial
        | slot digits => trivial
  | case5 c cs hquote hmark ih =>
      obtain ⟨tail, htail, rfl⟩ := Option.map_eq_some_iff.mp h
      obtain ⟨rfl, hlexical⟩ := ih htail
      exact ⟨rfl, .cons ⟨fun heq => hquote heq, fun heq => hmark heq⟩ (fun _ _ => trivial) hlexical⟩

/-- Reading accepts exactly the texts of lexemes that stay apart. -/
theorem lexemes?_eq_some_iff {cs : List Char} {ls : List Lexeme} :
    lexemes? cs = some ls ↔ lexemeText ls = cs ∧ Lexical ls := by
  constructor
  · exact lexemeText_of_lexemes?
  · rintro ⟨rfl, h⟩
    exact lexemes?_lexemeText h

end BugReport.Sql
