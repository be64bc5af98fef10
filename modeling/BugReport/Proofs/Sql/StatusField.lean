import BugReport.Proofs.Sql.Reading
import BugReport.Proofs.Text.Parts
import BugReport.Proofs.Text.Replaced

/-! # The number of the status field

A statement holds the number of the status field in some places, or the sub-select that looks it up. Between
these places a statement is the same, and the sub-select occurs nowhere else: it quotes the name of the field,
which no other part of a statement does.
-/

namespace BugReport.Sql

/-- The sub-select for the number of the status field. -/
@[irreducible]
def statusSelect (tableName : String → String) : String :=
  "(SELECT id FROM " ++ tableName Table.fielddefs.name ++ " WHERE name='bug_status')"

theorem write_statusField_of_none {naming : Naming} (h : naming.statusField = none) :
    Piece.statusField.write naming = statusSelect naming.tableName := by
  simp only [Piece.write, h, statusSelect]

theorem write_statusField_of_some {naming : Naming} {n : Int} (h : naming.statusField = some n) :
    Piece.statusField.write naming = toString n := by
  simp only [Piece.write, h]

/-! ## Between the places of the status field -/

/-- A list is cut by an element. -/
theorem exists_groups {α : Type} [DecidableEq α] (x : α) (xs : List α) :
    ∃ groups, groups ≠ [] ∧ [x].intercalate groups = xs ∧ ∀ group ∈ groups, x ∉ group := by
  induction xs with
  | nil => exact ⟨[[]], by simp⟩
  | cons y ys ih =>
      obtain ⟨groups, hne, rfl, hgroups⟩ := ih
      obtain ⟨first, groups, rfl⟩ := List.exists_cons_of_ne_nil hne
      obtain ⟨hfirst, hrest⟩ := List.forall_mem_cons.mp hgroups
      by_cases hy : y = x
      · refine ⟨[] :: first :: groups, by simp, by simp [List.intercalate_cons_cons, hy], ?_⟩
        simpa using ⟨hfirst, hrest⟩
      · refine ⟨(y :: first) :: groups, by simp, ?_, ?_⟩
        · cases groups <;> simp [List.intercalate_cons_cons]
        · simpa using ⟨⟨Ne.symm hy, hfirst⟩, hrest⟩

variable {naming other : Naming} {pieces : List Piece}

theorem toList_write_intercalate (naming : Naming) (separator : List Piece) (groups : List (List Piece)) :
    (write naming (separator.intercalate groups)).toList =
      (write naming separator).toList.intercalate (groups.map fun group => (write naming group).toList) := by
  simp only [toList_write]
  induction groups with
  | nil => rfl
  | cons group groups ih =>
      cases groups with
      | nil => simp
      | cons next groups =>
          rw [List.intercalate_cons_cons, List.flatMap_append, List.flatMap_append, ih]
          simp [List.intercalate_cons_cons]

theorem write_eq_of_not_mem (htables : other.tableName = naming.tableName) (h : .statusField ∉ pieces) :
    write other pieces = write naming pieces := by
  have hpieces : pieces.map (·.write other) = pieces.map (·.write naming) := by
    refine List.map_congr_left fun piece hpiece => ?_
    cases piece with
    | statusField => exact absurd hpiece h
    | table t => simp [Piece.write, htables]
    | source t correlation => simp [Piece.write, htables]
    | _ => rfl
  rw [write, write, hpieces]

/-! ## Nowhere else -/

section

variable {mark : Char} {start rest a b : List Char}

/-- The first mark in a text is at one place. -/
theorem append_mark_inj (hstart : mark ∉ start) (ha : mark ∉ a) (h : start ++ mark :: rest = a ++ mark :: b) :
    start = a ∧ rest = b := by
  have hcut := congrArg (Text.cutList mark) h
  rw [Text.cutList_append hstart, Text.cutList_append ha] at hcut
  simpa using hcut

/-- What holds a mark is found behind a text without the mark, or with its first mark as the one there. -/
theorem infix_behind_mark (hstart : mark ∉ start) (ha : mark ∉ a)
    (h : start ++ mark :: rest <:+: a ++ mark :: b) :
    start <:+ a ∧ rest <+: b ∨ start ++ mark :: rest <:+: b := by
  obtain ⟨before, after, heq⟩ := h
  have heq : before ++ (start ++ mark :: (rest ++ after)) = a ++ mark :: b := by simpa using heq
  rcases List.append_eq_append_iff.mp heq with ⟨more, rfl, hmore⟩ | ⟨more, rfl, hmore⟩
  · have hmark : mark ∉ more := fun hmem => ha (List.mem_append_right _ hmem)
    obtain ⟨rfl, rfl⟩ := append_mark_inj hstart hmark hmore
    exact .inl ⟨List.suffix_append _ _, List.prefix_append _ _⟩
  · cases more with
    | nil =>
        obtain ⟨rfl, rfl⟩ := append_mark_inj hstart List.not_mem_nil hmore.symm
        exact .inl ⟨List.nil_suffix, List.prefix_append _ _⟩
    | cons c more =>
        obtain ⟨-, rfl⟩ := List.cons.inj hmore
        exact .inr ⟨more, after, by simp⟩

end

/-- What the sub-select writes before it quotes the name of the field. -/
@[irreducible]
def statusStart (tableName : String → String) : List Char :=
  "(SELECT id FROM ".toList ++ (tableName Table.fielddefs.name).toList ++ " WHERE name=".toList

theorem toList_statusSelect (tableName : String → String) :
    (statusSelect tableName).toList =
      statusStart tableName ++ '\'' :: ("bug_status".toList ++ '\'' :: [')']) := by
  have hend : " WHERE name='bug_status')".toList =
      " WHERE name=".toList ++ '\'' :: ("bug_status".toList ++ '\'' :: [')']) := by decide
  unfold statusSelect statusStart
  rw [String.toList_append, String.toList_append, hend, List.append_assoc _ " WHERE name=".toList]

theorem dropLast_statusSelect (tableName : String → String) :
    (statusSelect tableName).toList.dropLast =
      statusStart tableName ++ '\'' :: ("bug_status".toList ++ '\'' :: []) := by
  rw [toList_statusSelect]
  simp [List.dropLast_append_of_ne_nil]

/-- The texts in quotes hold neither quotes nor parentheses. -/
theorem not_mem_fixedLiterals : ∀ s ∈ fixedLiterals, '\'' ∉ s.toList ∧ '(' ∉ s.toList := by
  decide

/-- The sub-select occurs behind a literal only with this literal as its own, or later. -/
theorem statusSelect_infix_literal {tableName : String → String} (hquotes : '\'' ∉ statusStart tableName)
    {front content back : List Char} (hfront : '\'' ∉ front) (hcontent : '\'' ∉ content)
    (hopen : '(' ∉ content)
    (h : (statusSelect tableName).toList <:+: front ++ '\'' :: (content ++ '\'' :: back)) :
    "bug_status".toList = content ∧ [')'] <+: back ∨ (statusSelect tableName).toList <:+: back := by
  have hname : '\'' ∉ "bug_status".toList := by decide
  rw [toList_statusSelect] at h ⊢
  rcases infix_behind_mark hquotes hfront h with ⟨-, hstarts⟩ | hlater
  · obtain ⟨after, heq⟩ := hstarts
    rw [List.append_assoc, List.cons_append] at heq
    obtain ⟨hsame, hback⟩ := append_mark_inj hname hcontent heq
    exact .inl ⟨hsame, after, hback⟩
  · rcases infix_behind_mark hquotes hcontent hlater with ⟨hsuffix, -⟩ | hlater
    · have hstart : '(' ∈ "(SELECT id FROM ".toList := by decide
      have hmem : '(' ∈ statusStart tableName := by
        unfold statusStart
        exact List.mem_append_left _ (List.mem_append_left _ hstart)
      exact absurd (hsuffix.subset hmem) hopen
    · exact .inr hlater

/-- Whether a piece is a fixed literal or is written without quotes. -/
def Piece.QuotesFixed (naming : Naming) (piece : Piece) : Prop :=
  (∃ s ∈ fixedLiterals, piece = .literal s) ∨ '\'' ∉ (piece.write naming).toList

theorem Piece.quotesFixed {piece : Piece} (hnaming : naming.Avoids ['\'']) (hvetted : piece.isVetted = true)
    (hstatus : piece ≠ .statusField) : piece.QuotesFixed naming := by
  have hforeign := foreign_quote.not_mem_lexemes hvetted hnaming fun _ => by decide
  cases piece with
  | literal s => exact .inl ⟨s, List.contains_iff_mem.mp hvetted, rfl⟩
  | statusField => exact absurd rfl hstatus
  | slot n =>
      have hdigits : '\'' ∉ (toString n).toList :=
        fun hmem => absurd (Text.isDigit_of_mem_toString hmem) (by decide)
      exact .inr (by simpa [write] using hdigits)
  | _ => exact .inr fun hmem => hforeign (char_mem_chars.mpr hmem)

/-- Behind a text without quotes, pieces that do not quote the name of the status field do not hold the
sub-select, and do not begin it where another one follows. -/
theorem not_statusSelect_infix (hstart : '\'' ∉ statusStart naming.tableName)
    (hquotes : ∀ piece ∈ pieces, piece.QuotesFixed naming) (hunquoted : .literal "bug_status" ∉ pieces)
    {front : List Char} (hfront : '\'' ∉ front) : ¬ (statusSelect naming.tableName).toList <:+:
      front ++ ((write naming pieces).toList ++ (statusSelect naming.tableName).toList.dropLast) := by
  intro hfound
  -- Up to the next literal the text in front grows, and behind a literal it starts anew.
  induction pieces generalizing front with
  | nil =>
      have hnil : (write naming []).toList = [] := rfl
      have hlong : '\'' ∉ front ++ statusStart naming.tableName :=
        fun hmem => (List.mem_append.mp hmem).elim hfront hstart
      have hname : '\'' ∉ "bug_status".toList ∧ '(' ∉ "bug_status".toList := by decide
      rw [hnil, List.nil_append, dropLast_statusSelect, ← List.append_assoc] at hfound
      rcases statusSelect_infix_literal hstart hlong hname.1 hname.2 hfound with ⟨-, hclose⟩ | hlater
      · exact absurd hclose (by decide)
      · rw [List.infix_nil, toList_statusSelect] at hlater
        simp at hlater
  | cons piece pieces ih =>
      obtain ⟨hpiece, hpieces⟩ := List.forall_mem_cons.mp hquotes
      obtain ⟨hother, hothers⟩ := not_or.mp (mt List.mem_cons.mpr hunquoted)
      rw [toList_write, List.flatMap_cons, ← toList_write, List.append_assoc] at hfound
      rcases hpiece with ⟨s, hs, rfl⟩ | hquote
      · obtain ⟨hquote, hopen⟩ := not_mem_fixedLiterals s hs
        have hwrite : (Piece.write naming (.literal s)).toList = '\'' :: (s.toList ++ ['\'']) := by
          simp [Piece.write]
        rw [hwrite, List.cons_append, List.append_assoc, List.singleton_append] at hfound
        rcases statusSelect_infix_literal hstart hfront hquote hopen hfound with ⟨hsame, -⟩ | hlater
        · exact hother (congrArg Piece.literal (String.toList_injective hsame))
        · exact ih hpieces hothers List.not_mem_nil hlater
      · rw [← List.append_assoc] at hfound
        exact ih hpieces hothers (fun hmem => (List.mem_append.mp hmem).elim hfront hquote) hfound

/-- Pieces that do not quote the name of the status field are clear of its sub-select. -/
theorem clearOf_statusSelect (hnaming : naming.Avoids ['\''])
    (hquotes : ∀ piece ∈ pieces, piece.QuotesFixed naming) (hunquoted : .literal "bug_status" ∉ pieces) :
    Text.ClearOf (statusSelect naming.tableName).toList (write naming pieces).toList := by
  have hfixed : '\'' ∉ "(SELECT id FROM ".toList ∧ '\'' ∉ " WHERE name=".toList := by decide
  have htable : '\'' ∉ (naming.tableName Table.fielddefs.name).toList :=
    fun hmem => hnaming .fielddefs _ hmem List.mem_cons_self
  have hstart : '\'' ∉ statusStart naming.tableName := by
    unfold statusStart
    rw [List.mem_append, List.mem_append]
    exact not_or.mpr ⟨not_or.mpr ⟨hfixed.1, htable⟩, hfixed.2⟩
  exact not_statusSelect_infix hstart hquotes hunquoted List.not_mem_nil

end BugReport.Sql
