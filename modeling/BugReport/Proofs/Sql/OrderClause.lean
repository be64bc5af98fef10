import BugReport.Proofs.Sql.Regular

/-! # Reading the order of a statement

How a database reads the text behind ORDER BY: entries between commas, each an expression with the words
behind it, where commas and blanks in parentheses belong to the expression. What is read is compared with
the order keys that were written.
-/

namespace BugReport.Sql

open Lexeme

/-! ## Splitting outside of parentheses -/

/-- Splits a list at a character outside of parentheses, at a depth to start with. -/
def splitTop (sep : Char) : Nat → List Lexeme → List (List Lexeme)
  | _, [] => [[]]
  | depth, l :: ls =>
    if depth = 0 ∧ l = .char sep then [] :: splitTop sep 0 ls
    else (splitTop sep ((l.nest? depth).getD 0) ls).modifyHead (l :: ·)

/-- Whether a list closes its parentheses and holds a character in parentheses only. -/
def ClosedTo (sep : Char) : Nat → List Lexeme → Prop
  | depth, [] => depth = 0
  | depth, l :: ls =>
    ¬ (depth = 0 ∧ l = .char sep) ∧ ∃ next ∈ l.nest? depth, ClosedTo sep next ls

instance decidableClosedTo (sep : Char) : (depth : Nat) → (ls : List Lexeme) →
    Decidable (ClosedTo sep depth ls)
  | depth, [] => inferInstanceAs (Decidable (depth = 0))
  | depth, l :: ls =>
    have : DecidablePred fun next => ClosedTo sep next ls := fun next => decidableClosedTo sep next ls
    inferInstanceAs (Decidable (_ ∧ ∃ next ∈ l.nest? depth, ClosedTo sep next ls))

namespace ClosedTo

variable {sep : Char} {depth : Nat} {ls more : List Lexeme}

theorem append (h : ClosedTo sep depth ls) (hmore : ClosedTo sep 0 more) :
    ClosedTo sep depth (ls ++ more) := by
  induction ls generalizing depth with
  | nil =>
      obtain rfl : depth = 0 := h
      exact hmore
  | cons l ls ih =>
      obtain ⟨hsep, next, hnext, hls⟩ := h
      exact ⟨hsep, next, hnext, ih hls⟩

theorem splitTop_append (h : ClosedTo sep depth ls) (more : List Lexeme) :
    splitTop sep depth (ls ++ more) = (splitTop sep 0 more).modifyHead (ls ++ ·) := by
  induction ls generalizing depth with
  | nil =>
      obtain rfl : depth = 0 := h
      rw [List.nil_append]
      cases splitTop sep 0 more <;> rfl
  | cons l ls ih =>
      obtain ⟨hsep, next, hnext, hls⟩ := h
      have hnest : (l.nest? depth).getD 0 = next := by rw [Option.mem_def.mp hnext]; rfl
      rw [List.cons_append, splitTop, if_neg hsep, hnest, ih hls]
      cases splitTop sep 0 more <;> rfl

theorem splitTop_eq (h : ClosedTo sep 0 ls) : splitTop sep 0 ls = [ls] := by
  have hsplit := h.splitTop_append []
  rw [List.append_nil] at hsplit
  simpa [splitTop] using hsplit

theorem splitTop_sep (h : ClosedTo sep 0 ls) (more : List Lexeme) :
    splitTop sep 0 (ls ++ .char sep :: more) = ls :: splitTop sep 0 more := by
  rw [h.splitTop_append, splitTop, if_pos ⟨rfl, rfl⟩, List.modifyHead_cons, List.append_nil]

/-- Texts without parentheses and without the character. -/
theorem of_not_mem {s : String} (hopen : '(' ∉ s.toList) (hclose : ')' ∉ s.toList)
    (hsep : sep ∉ s.toList) : ClosedTo sep 0 (chars s) := by
  unfold chars
  generalize s.toList = cs at hopen hclose hsep
  induction cs with
  | nil => rfl
  | cons c cs ih =>
      simp only [List.mem_cons, not_or] at hopen hclose hsep
      refine ⟨?_, 0, ?_, ih hopen.2 hclose.2 hsep.2⟩
      · rintro ⟨-, heq⟩
        exact hsep.1 (Lexeme.char.inj heq).symm
      · simp [Lexeme.nest?, Sql.nest?, Ne.symm hopen.1, Ne.symm hclose.1]

end ClosedTo

/-! ## Entries -/

/-- An entry of an order as it is read. -/
structure OrderEntry where
  expression : List Lexeme
  /-- The directions behind the expression. -/
  directions : List Direction
  deriving DecidableEq

/-- The direction that a word is. -/
def directionOf? (word : List Lexeme) : Option Direction :=
  if word = chars Direction.asc.keyword then some .asc
  else if word = chars Direction.desc.keyword then some .desc
  else none

namespace OrderEntry

/-- The direction in which an entry sorts: ascending if it names none. Two directions have no meaning. -/
def direction? (e : OrderEntry) : Option Direction :=
  match e.directions with
  | [] => some .asc
  | [direction] => some direction
  | _ :: _ :: _ => none

/-- Reads an entry: an expression that is not empty, and words of which each is a direction. -/
def ofLexemes? (ls : List Lexeme) : Option OrderEntry :=
  match splitTop ' ' 0 ls with
  | [] => none
  | expression :: words =>
    if expression = [] then none
    else (words.mapM directionOf?).map fun directions => ⟨expression, directions⟩

/-- Writes an entry. -/
def lexemes (e : OrderEntry) : List Lexeme :=
  e.expression ++ e.directions.flatMap fun d => .char ' ' :: chars d.keyword

/-- Whether the expression of an entry can be told from what follows it. -/
structure Readable (e : OrderEntry) : Prop where
  ne_nil : e.expression ≠ []
  blanks : ClosedTo ' ' 0 e.expression
  commas : ClosedTo ',' 0 e.expression

variable {e : OrderEntry}

theorem splitTop_directions (directions : List Direction) {expression : List Lexeme}
    (h : ClosedTo ' ' 0 expression) :
    splitTop ' ' 0 (lexemes ⟨expression, directions⟩) =
      expression :: directions.map fun d => chars d.keyword := by
  induction directions generalizing expression with
  | nil =>
      rw [lexemes, List.flatMap_nil, List.append_nil]
      exact h.splitTop_eq
  | cons d directions ih =>
      have hkeyword : ClosedTo ' ' 0 (chars d.keyword) := by cases d <;> decide
      have htail := ih hkeyword
      simp only [lexemes] at htail
      simp only [lexemes, List.flatMap_cons, List.cons_append, List.map_cons]
      rw [h.splitTop_sep, htail]

/-- An entry is read back from its lexemes. -/
theorem ofLexemes?_lexemes (h : e.Readable) : ofLexemes? e.lexemes = some e := by
  have hwords : (e.directions.map fun d => chars d.keyword).mapM directionOf? =
      some e.directions := by
    induction e.directions with
    | nil => rfl
    | cons d directions ih =>
        have hd : directionOf? (chars d.keyword) = some d := by cases d <;> decide
        simp [hd, ih]
  rw [ofLexemes?, splitTop_directions e.directions h.blanks]
  simp only [h.ne_nil, ↓reduceIte, hwords, Option.map_some]

theorem Readable.closed_lexemes (h : e.Readable) : ClosedTo ',' 0 e.lexemes := by
  refine h.commas.append ?_
  induction e.directions with
  | nil => rfl
  | cons d directions ih =>
      have hd : ClosedTo ',' 0 (.char ' ' :: chars d.keyword) := by cases d <;> decide
      rw [List.flatMap_cons]
      exact hd.append ih

end OrderEntry

/-- Reads an order: entries between commas. -/
def orderEntries? (text : String) : Option (List OrderEntry) :=
  (lexemes? text.toList).bind fun ls => (splitTop ',' 0 ls).mapM OrderEntry.ofLexemes?

/-! ## Keys -/

/-- Whether a piece is written with the name of a table. -/
def Piece.namesTable : Piece → Bool
  | table _ | source _ _ | statusField => true
  | _ => false

/-- The expressions that rows can be sorted by: fixed ones that name no table and can be told from the
directions and entries behind them. -/
structure Sortable (expression : List Piece) : Prop where
  fixed : Fixed expression
  readable : OrderEntry.Readable ⟨lexemesOf .plain expression, []⟩
  tables : ∀ piece ∈ expression, piece.namesTable = false

instance (e : OrderEntry) : Decidable e.Readable :=
  decidable_of_iff (e.expression ≠ [] ∧ ClosedTo ' ' 0 e.expression ∧ ClosedTo ',' 0 e.expression)
    ⟨fun h => ⟨h.1, h.2.1, h.2.2⟩, fun h => ⟨h.ne_nil, h.blanks, h.commas⟩⟩

instance (expression : List Piece) : Decidable (Sortable expression) :=
  decidable_of_iff (Fixed expression ∧ OrderEntry.Readable ⟨lexemesOf .plain expression, []⟩ ∧
      ∀ piece ∈ expression, piece.namesTable = false)
    ⟨fun h => ⟨h.1, h.2.1, h.2.2⟩, fun h => ⟨h.fixed, h.readable, h.tables⟩⟩

/-- The name of a column is an expression to sort by. -/
theorem Sortable.identifier (i : Identifier) : Sortable [.identifier i] := by
  have hlexemes : lexemesOf .plain [.identifier i] = chars i.text := by
    simp [lexemesOf, Piece.lexemes]
  have hclosed {sep : Char} (hsep : (sep.isAlphanum || sep == '_') = false) :
      ClosedTo sep 0 (chars i.text) :=
    .of_not_mem (not_mem_identifier i.valid (by decide)) (not_mem_identifier i.valid (by decide))
      (not_mem_identifier i.valid hsep)
  have hne : chars i.text ≠ [] := mt List.map_eq_nil_iff.mp (ne_nil_of_isIdentifier i.valid)
  refine ⟨⟨⟨by simp [Piece.isVetted], rfl⟩, rfl⟩, ?_, by simp [Piece.namesTable]⟩
  rw [hlexemes]
  exact ⟨hne, hclosed (by decide), hclosed (by decide)⟩

/-- The entry that a key is read as, with more directions behind its own. -/
def OrderKey.entry (more : List Direction) (k : OrderKey) : OrderEntry :=
  ⟨lexemesOf .plain k.expression, k.direction.toList ++ more⟩

/-- The entries that keys are read as, with a direction behind the last one. -/
def entriesOf (direction : Direction) : List OrderKey → List OrderEntry
  | [] => []
  | [k] => [k.entry [direction]]
  | k :: ks => k.entry [] :: entriesOf direction ks

theorem entriesOf_cons (direction : Direction) (k : OrderKey) (ks : List OrderKey) :
    entriesOf direction (k :: ks) =
      k.entry (if ks = [] then [direction] else []) :: entriesOf direction ks := by
  cases ks <;> rfl

theorem lexemesOf_key (k : OrderKey) (more : List Direction) :
    lexemesOf .plain k.pieces ++ more.flatMap (fun d => .char ' ' :: chars d.keyword) =
      (k.entry more).lexemes := by
  unfold OrderKey.pieces
  cases hdirection : k.direction with
  | none => simp [OrderKey.entry, OrderEntry.lexemes, hdirection]
  | some d => simp [OrderKey.entry, OrderEntry.lexemes, hdirection, lexemesOf, Piece.lexemes, chars]

theorem Sortable.readable_entry {k : OrderKey} (h : Sortable k.expression) (more : List Direction) :
    (k.entry more).Readable :=
  ⟨h.readable.ne_nil, h.readable.blanks, h.readable.commas⟩

/-- The lexemes of an order split into those of its entries. -/
theorem splitTop_keys (direction : Direction) {keys : List OrderKey} (hne : keys ≠ [])
    (h : ∀ k ∈ keys, Sortable k.expression) :
    splitTop ',' 0 (lexemesOf .plain (separated "," (keys.map OrderKey.pieces) ++
        [.text " ", .text direction.keyword])) =
      (entriesOf direction keys).map OrderEntry.lexemes := by
  induction keys with
  | nil => exact absurd rfl hne
  | cons k keys ih =>
      have hk := h k List.mem_cons_self
      cases keys with
      | nil =>
          -- The direction of the request belongs to the last entry, behind its own direction.
          have hlast : lexemesOf .plain (k.pieces ++ [.text " ", .text direction.keyword]) =
              (k.entry [direction]).lexemes := by
            rw [← lexemesOf_key k [direction], lexemesOf, List.flatMap_append]
            simp [lexemesOf, Piece.lexemes, chars]
          simp only [separated, List.map_cons, List.map_nil, List.intercalate_singleton, entriesOf]
          rw [hlast, (hk.readable_entry [direction]).closed_lexemes.splitTop_eq]
      | cons next keys =>
          have htail := ih (List.cons_ne_nil _ _) fun other hother =>
            h other (List.mem_cons_of_mem _ hother)
          have hfirst : lexemesOf .plain k.pieces = (k.entry []).lexemes := by
            rw [← lexemesOf_key k [], List.flatMap_nil, List.append_nil]
          have hcomma : lexemesOf .plain [.text ","] = [.char ','] := by decide
          rw [List.map_cons, List.map_cons, separated, List.intercalate_cons_cons]
          rw [List.map_cons, separated] at htail
          simp only [lexemesOf, List.flatMap_append, List.append_assoc] at htail hfirst hcomma ⊢
          rw [hfirst, hcomma, List.singleton_append,
            (hk.readable_entry []).closed_lexemes.splitTop_sep, htail]
          rfl

theorem mapM_ofLexemes? (direction : Direction) {keys : List OrderKey}
    (h : ∀ k ∈ keys, Sortable k.expression) :
    ((entriesOf direction keys).map OrderEntry.lexemes).mapM OrderEntry.ofLexemes? =
      some (entriesOf direction keys) := by
  induction keys with
  | nil => rfl
  | cons k keys ih =>
      have hk := h k List.mem_cons_self
      have htail := ih fun other hother => h other (List.mem_cons_of_mem _ hother)
      cases keys with
      | nil => simp [entriesOf, OrderEntry.ofLexemes?_lexemes (hk.readable_entry [direction])]
      | cons next keys =>
          simp only [entriesOf, List.map_cons, List.mapM_cons,
            OrderEntry.ofLexemes?_lexemes (hk.readable_entry [])]
          simp [htail]

namespace Statement

variable {s : Statement}

/-- The order of a statement reads as its keys, with the direction behind the last one. -/
theorem Regular.orderEntries?_orderBody (h : s.Regular) (hne : s.order ≠ [])
    (hsortable : ∀ k ∈ s.order, Sortable k.expression) :
    orderEntries? (write .plain s.orderBody) = some (entriesOf s.direction s.order) := by
  have hplain : Naming.plain.Avoids ['\'', '?'] :=
    Naming.avoids_of_all (by intro t; cases t <;> decide)
  rw [orderEntries?, h.leads_orderBody.lexemes?_write hplain, Option.bind_some, orderBody,
    splitTop_keys s.direction hne hsortable, mapM_ofLexemes? s.direction hsortable]

end Statement

theorem write_append (naming : Naming) (pieces more : List Piece) :
    write naming (pieces ++ more) = write naming pieces ++ write naming more := by
  apply String.toList_injective
  rw [String.toList_append, toList_write, toList_write, toList_write, List.flatMap_append]

theorem write_eq_plain {pieces : List Piece} (naming : Naming)
    (h : ∀ piece ∈ pieces, piece.namesTable = false) : write naming pieces = write .plain pieces := by
  have hpieces : pieces.map (·.write naming) = pieces.map (·.write .plain) := by
    refine List.map_congr_left fun piece hpiece => ?_
    have hpiece := h piece hpiece
    cases piece <;> first | rfl | cases hpiece
  rw [write, write, hpieces]

theorem namesTable_separated {separator : String} {groups : List (List Piece)}
    (h : ∀ group ∈ groups, ∀ piece ∈ group, piece.namesTable = false) :
    ∀ piece ∈ separated separator groups, piece.namesTable = false := by
  unfold separated
  induction groups with
  | nil => simp
  | cons group groups ih =>
      have htail := ih fun other hother => h other (List.mem_cons_of_mem _ hother)
      cases groups with
      | nil => simpa using h group List.mem_cons_self
      | cons next groups =>
          rw [List.intercalate_cons_cons]
          intro piece hpiece
          rcases List.mem_append.mp hpiece with hmem | hmem
          · rcases List.mem_append.mp hmem with hmem | hmem
            · exact h group List.mem_cons_self piece hmem
            · rw [List.mem_singleton.mp hmem]
              rfl
          · exact htail piece hmem

/-- What stands behind the order in the text of a statement. -/
def Statement.closing (s : Statement) : String :=
  if s.counted then ") AS b;" else ";"

/-- The order is the last part of a statement. Its text names no tables. -/
theorem Statement.exists_text_eq (s : Statement) (naming : Naming)
    (h : ∀ k ∈ s.order, Sortable k.expression) :
    ∃ listing, s.text naming =
      listing ++ " ORDER BY " ++ write .plain s.orderBody ++ s.closing := by
  have hkeys : ∀ group ∈ s.order.map OrderKey.pieces, ∀ piece ∈ group, piece.namesTable = false := by
    intro group hgroup piece hpiece
    obtain ⟨k, hk, rfl⟩ := List.mem_map.mp hgroup
    rcases List.mem_append.mp hpiece with hmem | hmem
    · exact (h k hk).tables piece hmem
    · cases hdirection : k.direction with
      | none => simp [hdirection] at hmem
      | some direction =>
          simp only [hdirection, List.mem_cons, List.not_mem_nil, or_false] at hmem
          rcases hmem with rfl | rfl <;> rfl
  have hbody : write naming s.orderBody = write .plain s.orderBody := by
    apply write_eq_plain
    intro piece hpiece
    rcases List.mem_append.mp hpiece with hmem | hmem
    · exact namesTable_separated hkeys piece hmem
    · simp only [List.mem_cons, List.not_mem_nil, or_false] at hmem
      rcases hmem with rfl | rfl <;> rfl
  obtain ⟨listing, hlisting⟩ : ∃ listing,
      s.listPieces = listing ++ ([.text " ORDER BY "] ++ s.orderBody) := ⟨_, rfl⟩
  rw [text, pieces, closing]
  -- Counting puts words around the listing and changes nothing in it.
  cases s.counted with
  | true =>
      refine ⟨write naming (.text "SELECT COUNT(DISTINCT(id)) AS count FROM (" :: listing), ?_⟩
      have hcons : Piece.text "SELECT COUNT(DISTINCT(id)) AS count FROM (" :: s.listPieces =
          (.text "SELECT COUNT(DISTINCT(id)) AS count FROM (" :: listing) ++
            ([.text " ORDER BY "] ++ s.orderBody) := by
        rw [hlisting]
        rfl
      rw [if_pos rfl, if_pos rfl, hcons, write_append, write_append, write_append, hbody,
        ← String.append_assoc]
      rfl
  | false =>
      refine ⟨write naming listing, ?_⟩
      rw [if_neg Bool.false_ne_true, if_neg Bool.false_ne_true, hlisting, write_append, write_append,
        write_append, hbody, ← String.append_assoc]
      rfl

/-! ## Well-formed orders -/

/-- Whether an entry is what a key asks for: its expression with one direction at most, which is the one of
the key if it has one. -/
structure OrderKey.ReadAs (k : OrderKey) (e : OrderEntry) : Prop where
  expression : e.expression = lexemesOf .plain k.expression
  single : e.directions.length ≤ 1
  own : ∀ direction ∈ k.direction, e.directions = [direction]

/-- Whether a text is an order of at least one entry, each of which is what its key asks for. -/
def WellOrdered (keys : List OrderKey) (text : String) : Prop :=
  ∃ entries, orderEntries? text = some entries ∧ entries ≠ [] ∧
    List.Forall₂ OrderKey.ReadAs keys entries

theorem OrderKey.readAs_entry (k : OrderKey) : k.ReadAs (k.entry []) := by
  refine ⟨rfl, ?_, ?_⟩
  · cases hdirection : k.direction <;> simp [entry, hdirection]
  · intro direction hdirection
    simp [entry, Option.mem_def.mp hdirection]

/-- A direction behind an entry is well placed only when the entry has none of its own. -/
theorem OrderKey.readAs_entry_iff (k : OrderKey) (direction : Direction) :
    k.ReadAs (k.entry [direction]) ↔ k.direction = none := by
  constructor
  · intro h
    have hsingle := h.single
    cases hdirection : k.direction with
    | none => rfl
    | some own => simp [entry, hdirection] at hsingle
  · intro hdirection
    refine ⟨rfl, by simp [entry, hdirection], ?_⟩
    intro own hown
    simp [hdirection] at hown

theorem forall₂_entriesOf_iff (direction : Direction) {keys : List OrderKey} (hne : keys ≠ []) :
    List.Forall₂ OrderKey.ReadAs keys (entriesOf direction keys) ↔
      ∀ k ∈ keys.getLast?, k.direction = none := by
  induction keys with
  | nil => exact absurd rfl hne
  | cons k keys ih =>
      cases keys with
      | nil =>
          simp only [entriesOf, List.forall₂_cons, List.Forall₂.nil, and_true, k.readAs_entry_iff]
          simp
      | cons next keys =>
          rw [entriesOf, List.forall₂_cons, ih (List.cons_ne_nil _ _), List.getLast?_cons_cons]
          exact and_iff_right k.readAs_entry
          simp

namespace Statement.Regular

variable {s : Statement}

/-- The order of a statement is well-formed exactly when its last key leaves its direction open. -/
theorem wellOrdered_iff (h : s.Regular) (hne : s.order ≠ [])
    (hsortable : ∀ k ∈ s.order, Sortable k.expression) :
    WellOrdered s.order (write .plain s.orderBody) ↔ ∀ k ∈ s.order.getLast?, k.direction = none := by
  have hentries := h.orderEntries?_orderBody hne hsortable
  rw [← forall₂_entriesOf_iff s.direction hne]
  constructor
  · rintro ⟨entries, hread, -, hall⟩
    rw [hentries] at hread
    cases hread
    exact hall
  · intro hall
    refine ⟨_, hentries, ?_, hall⟩
    intro hnil
    rw [hnil] at hall
    exact hne (List.forall₂_nil_right_iff.mp hall)

end Statement.Regular

end BugReport.Sql
