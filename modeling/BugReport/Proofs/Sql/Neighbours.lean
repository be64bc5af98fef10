import BugReport.Proofs.Sql.Reading
import BugReport.Proofs.Sql.References

/-! # Neighbours in a statement

In a statement every table stands behind a word that a table can follow, and whatever else stands behind such
a word cannot be taken for a table. This is seen from neighbouring pieces. So the references in the text are
the tables among the pieces, whatever names the request brought in, and a prefix for all references is a
prefix for all tables.
-/

namespace BugReport.Sql

/-! ## Parts of a text -/

/-- Whether a text that ends like this may end with a mark. -/
def canEndMark (u : List Char) : Bool :=
  tableMarks.any fun mark => mark.toList.isSuffixOf u || u.isSuffixOf mark.toList

/-- Whether a text that starts like this may start with a table. -/
def canStartTable (v : List Char) : Bool :=
  Table.all.any fun t => v.isPrefixOf t.name.toList || (t.name.toList.isPrefixOf v &&
    (v.drop t.name.toList.length).head?.all fun c => ! isNameChar c)

/-- Whether no table is referred to inside of a text, whatever stands around it. -/
def isSteady (a : List Char) : Bool :=
  ! a.isEmpty && (List.range a.length).all fun n =>
    n == 0 || ! (canEndMark (a.take n) && canStartTable (a.drop n))

section

variable {front a u v rest : List Char}

theorem canEndMark_of_append (h : endsWithMark (front ++ u) = true) : canEndMark u = true := by
  obtain ⟨mark, hmark, hsuffix⟩ := List.any_eq_true.mp h
  refine List.any_eq_true.mpr ⟨mark, hmark, ?_⟩
  rw [Bool.or_eq_true, List.isSuffixOf_iff_suffix, List.isSuffixOf_iff_suffix]
  exact List.suffix_or_suffix_of_suffix (List.isSuffixOf_iff_suffix.mp hsuffix) (List.suffix_append front u)

theorem canStartTable_of_append (h : startsWithTable (v ++ rest) = true) : canStartTable v = true := by
  obtain ⟨t, ht, hstart⟩ := List.any_eq_true.mp h
  rw [Bool.and_eq_true, List.isPrefixOf_iff_prefix] at hstart
  obtain ⟨hstarts, hend⟩ := hstart
  refine List.any_eq_true.mpr ⟨t, ht, ?_⟩
  rw [Bool.or_eq_true, Bool.and_eq_true, List.isPrefixOf_iff_prefix, List.isPrefixOf_iff_prefix]
  rcases List.prefix_or_prefix_of_prefix hstarts (List.prefix_append v rest) with hname | hname
  · obtain ⟨more, rfl⟩ := hname
    cases more with
    | nil => exact .inl (by rw [List.append_nil])
    | cons c more => exact .inr ⟨List.prefix_append _ _, by simpa using hend⟩
  · exact .inl hname

theorem getLast?_tableMarks : ∀ mark ∈ tableMarks, mark.toList.getLast? = some ' ' := by
  decide

/-- Marks end with a blank. -/
theorem canEndMark_of_blank_not_mem (hne : u ≠ []) (hblank : ' ' ∉ u) : canEndMark u = false := by
  refine Bool.eq_false_iff.mpr fun hmark => ?_
  obtain ⟨mark, hmark, hsuffix⟩ := List.any_eq_true.mp hmark
  have hlast : mark.toList.getLast? = u.getLast? := by
    rw [Bool.or_eq_true, List.isSuffixOf_iff_suffix, List.isSuffixOf_iff_suffix] at hsuffix
    have hmarkne : mark.toList ≠ [] := fun hnil => by
      simpa [hnil] using getLast?_tableMarks mark hmark
    rcases hsuffix with ⟨before, rfl⟩ | ⟨before, hbefore⟩
    · rw [List.getLast?_append_of_ne_nil _ hmarkne]
    · rw [← hbefore, List.getLast?_append_of_ne_nil _ hne]
  rw [getLast?_tableMarks mark hmark] at hlast
  exact hblank (List.mem_of_getLast? hlast.symm)

theorem isSteady_of_blank_not_mem (hne : a ≠ []) (hblank : ' ' ∉ a) : isSteady a = true := by
  simp only [isSteady, Bool.and_eq_true, Bool.not_eq_true', List.isEmpty_eq_false_iff, List.all_eq_true,
    List.mem_range, Bool.or_eq_true, beq_iff_eq]
  refine ⟨hne, fun n hn => ?_⟩
  rw [or_iff_not_imp_left]
  intro hpos
  have htake : a.take n ≠ [] := by
    rw [ne_eq, List.take_eq_nil_iff]
    exact not_or.mpr ⟨hpos, hne⟩
  rw [canEndMark_of_blank_not_mem htake fun hmem => hblank (List.mem_of_mem_take hmem), Bool.false_and]

/-- Tables have plain names, without blanks and points. -/
theorem Table.plain_name (t : Table) : t.name.toList ≠ [] ∧ (∀ c ∈ t.name.toList, isNameChar c = true) ∧
    ' ' ∉ t.name.toList ∧ '.' ∉ t.name.toList := by
  have hname : t.name.toList ≠ [] ∧ t.name.toList.all isNameChar = true ∧ ' ' ∉ t.name.toList ∧
      '.' ∉ t.name.toList := by
    cases t <;> decide
  rwa [List.all_eq_true] at hname

/-- A qualified name is not the name of a table, and does not start with one. -/
theorem canStartTable_qualified (hname : ∀ c ∈ v, isNameChar c = true) (hpoint : '.' ∈ v) :
    canStartTable v = false := by
  refine Bool.eq_false_iff.mpr fun hstart => ?_
  obtain ⟨t, ht, hstart⟩ := List.any_eq_true.mp hstart
  obtain ⟨-, -, -, htable⟩ := t.plain_name
  rw [Bool.or_eq_true, Bool.and_eq_true, List.isPrefixOf_iff_prefix, List.isPrefixOf_iff_prefix] at hstart
  rcases hstart with hstarts | ⟨⟨more, rfl⟩, hend⟩
  · exact htable (hstarts.subset hpoint)
  · cases more with
    | nil => exact htable (by simpa using hpoint)
    | cons c more => simp [hname c (by simp)] at hend

/-- Inside of a name no table is referred to. -/
theorem prefixFrom_name {pre : List Char} (hne : a ≠ []) (hblank : ' ' ∉ a) :
    prefixFrom pre front (a ++ rest) =
      (if isReference front (a ++ rest) then pre else []) ++ a ++ prefixFrom pre (front ++ a) rest := by
  obtain ⟨c, cs, rfl⟩ := List.exists_cons_of_ne_nil hne
  have hquiet (u w : List Char) (hsplit : cs = u ++ w) (_ : w ≠ []) :
      isReference (front ++ [c] ++ u) (w ++ rest) = false := by
    refine Bool.eq_false_iff.mpr fun href => ?_
    rw [isReference, Bool.and_eq_true, List.append_assoc] at href
    have hcan := canEndMark_of_append href.1
    have hnot : ' ' ∉ [c] ++ u := fun hmem => hblank (by
      rw [hsplit, ← List.singleton_append, ← List.append_assoc]
      exact List.mem_append_left _ hmem)
    rw [canEndMark_of_blank_not_mem (by simp) hnot] at hcan
    cases hcan
  rw [List.cons_append, prefixFrom, prefixFrom_append hquiet]
  simp

/-- Inside of a steady text a prefix changes nothing, and in front of it only if a table may start there. -/
theorem prefixFrom_steady {pre : List Char} (h : isSteady a = true)
    (hfront : endsWithMark front = true → canStartTable a = false) :
    prefixFrom pre front (a ++ rest) = a ++ prefixFrom pre (front ++ a) rest := by
  simp only [isSteady, Bool.and_eq_true, List.all_eq_true, List.mem_range, Bool.or_eq_true, beq_iff_eq] at h
  refine prefixFrom_append fun u v hsplit hv => Bool.eq_false_iff.mpr fun href => ?_
  rw [isReference, Bool.and_eq_true] at href
  have hstart := canStartTable_of_append href.2
  have hlength : u.length < a.length := by
    have hpos := List.length_pos_iff.mpr hv
    rw [hsplit, List.length_append]
    omega
  rcases h.2 u.length hlength with hzero | hinside
  · obtain rfl := List.eq_nil_of_length_eq_zero hzero
    rw [List.append_nil, List.nil_append] at *
    rw [hsplit, hstart] at hfront
    exact absurd (hfront href.1) (by decide)
  · rw [hsplit, List.take_left, List.drop_left, canEndMark_of_append href.1, hstart] at hinside
    exact absurd hinside (by decide)

end

theorem isSteady_fixedTexts : ∀ s ∈ fixedTexts, isSteady s.toList = true := by
  decide +kernel

/-! ## Pieces -/

namespace Piece

/-- The pieces that a piece is spelled with. A source is a table with a correlation name behind it, and
the status field is looked up by a sub-select unless its number is known. -/
def spelled (known : Bool) : Piece → List Piece
  | source t correlation => [.table t, .text " AS ", .text correlation]
  | statusField =>
    if known then [.statusField]
    else [.text "(SELECT id FROM ", .table .fielddefs, .text " WHERE name=", .literal "bug_status", .text ")"]
  | p => [p]

/-- Whether a mark may end with a piece. -/
def canEndMark : Piece → Bool
  | text s => Sql.canEndMark s.toList
  | _ => false

/-- Whether a piece ends with a mark, whatever stands before it. -/
def endsWithMark : Piece → Bool
  | text s => Sql.endsWithMark s.toList
  | _ => false

/-- Whether a piece that is no table may be taken for one. -/
def canStartTable : Piece → Bool
  | text s => Sql.canStartTable s.toList
  | column c => Sql.canStartTable c.text.toList
  | identifier i => Sql.canStartTable i.text.toList
  | _ => false

def isTable : Piece → Bool
  | table _ => true
  | _ => false

/-- Whether a piece ends the name before it. -/
def endsName : Piece → Bool
  | text s => s.toList.head?.any fun c => ! isNameChar c
  | _ => false

/-- Whether a piece may stand behind another one. -/
def Suits (a b : Piece) : Prop :=
  (a.canEndMark = true → b.canStartTable = false) ∧ (b.isTable = true → a.endsWithMark = true) ∧
    (a.isTable = true → b.endsName = true)

instance (a b : Piece) : Decidable (a.Suits b) :=
  inferInstanceAs (Decidable (_ ∧ _))

variable {naming : Naming} {piece part : Piece} {known : Bool}

theorem isVetted_of_mem_spelled (hvetted : piece.isVetted = true) (h : part ∈ piece.spelled known) :
    part.isVetted = true ∧ (∀ t correlation, part ≠ .source t correlation) ∧
      (part = .statusField → known = true) := by
  cases piece with
  | source t correlation =>
      have has : (Piece.text " AS ").isVetted = true := by decide
      have hname : (Piece.text correlation).isVetted = true := by
        rw [isVetted, Bool.or_eq_true]
        exact .inl hvetted
      simp only [spelled, List.mem_cons, List.not_mem_nil, or_false] at h
      rcases h with rfl | rfl | rfl
      · exact ⟨rfl, by simp, by simp⟩
      · exact ⟨has, by simp, by simp⟩
      · exact ⟨hname, by simp, by simp⟩
  | statusField =>
      cases known with
      | true =>
          obtain rfl := List.mem_singleton.mp h
          exact ⟨rfl, by simp, by simp⟩
      | false =>
          have hparts : ∀ part ∈ spelled false .statusField, part.isVetted = true := by decide
          refine ⟨hparts part h, ?_, ?_⟩
          · rintro t correlation rfl
            simp [spelled] at h
          · rintro rfl
            simp [spelled] at h
  | _ =>
      obtain rfl := List.mem_singleton.mp h
      exact ⟨hvetted, by simp, by simp⟩

/-- A piece is written as it is spelled. -/
theorem toList_write_spelled (h : naming.statusField.isSome = known) (piece : Piece) :
    (Sql.write naming (piece.spelled known)).toList = (piece.write naming).toList := by
  subst h
  cases piece with
  | source t correlation => simp [spelled, toList_write, write]
  | statusField =>
      cases hstatus : naming.statusField with
      | some n => simp [spelled, toList_write, write, hstatus]
      | none => simp [spelled, toList_write, write, hstatus]
  | _ => simp [spelled, toList_write]

end Piece

theorem toList_write_spelled {naming : Naming} {known : Bool} (h : naming.statusField.isSome = known)
    (pieces : List Piece) :
    (write naming (pieces.flatMap (Piece.spelled known))).toList = (write naming pieces).toList := by
  simp only [toList_write, List.flatMap_assoc]
  refine congrArg (fun f => pieces.flatMap f) (funext fun piece => ?_)
  rw [← toList_write, Piece.toList_write_spelled h]

/-! ## The text of neighbours -/

/-- A text that starts with no small letter starts with no table. -/
theorem canStartTable_cons {c : Char} (hc : c.isLower = false) (cs : List Char) :
    canStartTable (c :: cs) = false := by
  have hlower : ∀ t ∈ Table.all, t.name.toList.head?.any Char.isLower = true := by decide
  refine Bool.eq_false_iff.mpr fun hstart => ?_
  obtain ⟨t, ht, hstart⟩ := List.any_eq_true.mp hstart
  obtain ⟨d, hd, hdlower⟩ : ∃ d, t.name.toList.head? = some d ∧ d.isLower = true := by
    simpa [Option.any_eq_true] using hlower t ht
  obtain ⟨ds, hname⟩ := List.head?_eq_some_iff.mp hd
  have hne : c ≠ d := fun heq => by simp [heq, hdlower] at hc
  rw [hname] at hstart
  simp [hne, Ne.symm hne] at hstart

/-- What the text of a piece that is no table has to do with the piece. -/
structure Piece.Faithful (naming : Naming) (piece : Piece) : Prop where
  steady : isSteady (piece.write naming).toList = true
  canStartTable : piece.canStartTable = false → Sql.canStartTable (piece.write naming).toList = false
  canEndMark : piece.canEndMark = false → Sql.canEndMark (piece.write naming).toList = false
  /-- Only the number of the status field is left open, apart from tables. -/
  write : ∀ other : Naming, other.statusField = naming.statusField → piece.write other = piece.write naming

theorem Piece.Faithful.of_blank_not_mem {naming : Naming} {piece : Piece}
    (hne : (piece.write naming).toList ≠ []) (hblank : ' ' ∉ (piece.write naming).toList)
    (hstart : piece.canStartTable = false → Sql.canStartTable (piece.write naming).toList = false)
    (hwrite : ∀ other : Naming, other.statusField = naming.statusField → piece.write other = piece.write naming) :
    piece.Faithful naming :=
  ⟨isSteady_of_blank_not_mem hne hblank, hstart, fun _ => canEndMark_of_blank_not_mem hne hblank, hwrite⟩

theorem isLower_of_isDigit {c : Char} (h : c.isDigit = true) : c.isLower = false := by
  have hdigit : c.val ≤ '9'.val := of_decide_eq_true ((Bool.and_eq_true _ _).mp h).2
  refine Bool.eq_false_iff.mpr fun hlower => ?_
  have hletter : 'a'.val ≤ c.val := of_decide_eq_true ((Bool.and_eq_true _ _).mp hlower).1
  exact absurd (UInt32.le_trans hletter hdigit) (by decide)

/-- A number starts with a digit or a sign, and holds no blank. -/
theorem faithful_number {naming : Naming} {n : Int} (h : naming.statusField = some n) :
    Piece.statusField.Faithful naming := by
  have hwrite : Piece.statusField.write naming = toString n := by rw [Piece.write, h]
  have hne : (toString n).toList ≠ [] := by
    obtain ⟨m, hm | hm⟩ := Text.toString_int_cases n
    · exact hm ▸ Text.toString_ne_nil m
    · exact hm ▸ List.cons_ne_nil _ _
  have hstart : canStartTable (toString n).toList = false := by
    obtain ⟨m, hm | hm⟩ := Text.toString_int_cases n
    · obtain ⟨c, cs, hdigits⟩ := List.exists_cons_of_ne_nil (Text.toString_ne_nil m)
      have hc : c.isDigit = true := Text.isDigit_of_mem_toString (hdigits ▸ List.mem_cons_self)
      rw [hm, hdigits]
      exact canStartTable_cons (isLower_of_isDigit hc) cs
    · rw [hm]
      exact canStartTable_cons (by decide) _
  refine .of_blank_not_mem (by rwa [hwrite]) ?_ (fun _ => by rwa [hwrite]) ?_
  · rw [hwrite]
    exact not_mem_toString_int (by decide) (by decide)
  · intro other hstatus
    rw [hwrite, Piece.write, hstatus, h]

theorem blank_not_mem_fixedLiterals : ∀ s ∈ fixedLiterals, ' ' ∉ s.toList := by
  decide

/-- What is spelled with vetted pieces is faithful to them. -/
theorem Piece.faithful {naming : Naming} {piece : Piece} (hvetted : piece.isVetted = true)
    (hsource : ∀ t correlation, piece ≠ .source t correlation) (htable : piece.isTable = false)
    (hstatus : piece = .statusField → naming.statusField.isSome = true) : piece.Faithful naming := by
  cases piece with
  | text s =>
      refine ⟨?_, id, id, fun _ _ => rfl⟩
      rw [isVetted, Bool.or_eq_true, List.contains_iff_mem] at hvetted
      rcases hvetted with hname | hfixed
      · exact isSteady_of_blank_not_mem (ne_nil_of_isIdentifier hname) (not_mem_identifier hname (by decide))
      · exact isSteady_fixedTexts s hfixed
  | literal s =>
      have hs := blank_not_mem_fixedLiterals s (List.contains_iff_mem.mp hvetted)
      have hquoted : (Piece.write naming (.literal s)).toList = '\'' :: (s.toList ++ ['\'']) := by
        simp [Piece.write]
      refine .of_blank_not_mem (by simp [hquoted]) (by simp [hquoted, hs]) ?_ fun _ _ => rfl
      rw [hquoted]
      exact fun _ => canStartTable_cons (by decide) _
  | column c =>
      have hblank := not_mem_columnText hvetted (c := ' ') (by decide) (by decide)
      refine .of_blank_not_mem ?_ hblank id fun _ _ => rfl
      rw [isVetted, Bool.and_eq_true] at hvetted
      have hname := ne_nil_of_isIdentifier hvetted.2
      rw [Piece.write, Column.text]
      cases c.owner with
      | none => exact hname
      | some owner => simp
  | identifier i =>
      exact .of_blank_not_mem (ne_nil_of_isIdentifier i.valid) (not_mem_identifier i.valid (by decide)) id
        fun _ _ => rfl
  | slot n =>
      have hdigits : ' ' ∉ (toString n).toList :=
        fun hmem => absurd (Text.isDigit_of_mem_toString hmem) (by decide)
      have hmark : (Piece.write naming (.slot n)).toList = '?' :: (toString n).toList := by
        simp [Piece.write]
      refine .of_blank_not_mem (by simp [hmark]) (by simpa [hmark] using hdigits) ?_ fun _ _ => rfl
      rw [hmark]
      exact fun _ => canStartTable_cons (by decide) _
  | table t => cases htable
  | source t correlation => exact absurd rfl (hsource t correlation)
  | statusField =>
      obtain ⟨n, hn⟩ := Option.isSome_iff_exists.mp (hstatus rfl)
      exact faithful_number hn

/-! ## Prefixes for tables -/

/-- One naming calls tables as another one does, with a prefix in front of every reference. -/
structure Naming.PrefixedBy (pre : List Char) (naming prefixed : Naming) : Prop where
  status : prefixed.statusField = naming.statusField
  ne_nil : ∀ t : Table, (naming.tableName t.name).toList ≠ []
  blank : ∀ t : Table, ' ' ∉ (naming.tableName t.name).toList
  table : ∀ (t : Table) (front rest : List Char), endsWithMark front = true →
    (∀ c ∈ rest.head?, isNameChar c = false) →
    prefixFrom pre front ((naming.tableName t.name).toList ++ rest) =
      (prefixed.tableName t.name).toList ++ prefixFrom pre (front ++ (naming.tableName t.name).toList) rest

/-- A text and the piece behind it fit. -/
def Fits (front : List Char) (piece : Piece) : Prop :=
  (endsWithMark front = true → piece.canStartTable = false) ∧ (piece.isTable = true → endsWithMark front = true)

section

variable {pre front : List Char} {naming prefixed : Naming} {pieces : List Piece}

/-- Behind a piece fits what suits the piece. -/
theorem Piece.Suits.fits {piece next : Piece} (h : piece.Suits next)
    (hend : piece.canEndMark = false → Sql.canEndMark (piece.write naming).toList = false) :
    Fits (front ++ (piece.write naming).toList) next := by
  obtain ⟨hstart, hmark, -⟩ := h
  refine ⟨fun hfront => hstart ?_, fun htable => ?_⟩
  · by_contra hnot
    have hcan := canEndMark_of_append hfront
    rw [hend (Bool.eq_false_iff.mpr hnot)] at hcan
    cases hcan
  · have hends := hmark htable
    cases piece with
    | text s =>
        obtain ⟨mark, hmem, hsuffix⟩ := List.any_eq_true.mp hends
        refine List.any_eq_true.mpr ⟨mark, hmem, List.isSuffixOf_iff_suffix.mpr ?_⟩
        exact (List.isSuffixOf_iff_suffix.mp hsuffix).trans (List.suffix_append _ _)
    | _ => cases hends

theorem toList_write_cons (naming : Naming) (piece : Piece) (pieces : List Piece) :
    (write naming (piece :: pieces)).toList = (piece.write naming).toList ++ (write naming pieces).toList := by
  rw [toList_write, List.flatMap_cons, ← toList_write]

/-- Behind a table stands something that ends its name. -/
theorem head?_write_of_suits {piece : Piece} (htable : piece.isTable = true)
    (hnext : ∀ next ∈ pieces.head?, piece.Suits next) :
    ∀ c ∈ (write naming pieces).toList.head?, isNameChar c = false := by
  cases pieces with
  | nil => simp [write]
  | cons next pieces =>
      have hends := (hnext next rfl).2.2 htable
      cases next with
      | text s =>
          obtain ⟨c, hc, hname⟩ : ∃ c, s.toList.head? = some c ∧ isNameChar c = false := by
            simpa [Piece.endsName, Option.any_eq_true] using hends
          obtain ⟨cs, hs⟩ := List.head?_eq_some_iff.mp hc
          rw [toList_write_cons, Piece.write, hs]
          simpa using hname
      | _ => cases hends

/-- A prefix for the references in the text of neighbours is a prefix for the tables among them. -/
theorem prefixFrom_write (h : naming.PrefixedBy pre prefixed) (hchain : pieces.IsChain Piece.Suits)
    (hfaithful : ∀ piece ∈ pieces, piece.isTable = false → piece.Faithful naming)
    (hfirst : ∀ piece ∈ pieces.head?, Fits front piece) :
    prefixFrom pre front (write naming pieces).toList = (write prefixed pieces).toList := by
  induction pieces generalizing front with
  | nil => rfl
  | cons piece pieces ih =>
      obtain ⟨hnext, hrest⟩ := List.isChain_cons.mp hchain
      obtain ⟨hpiece, hothers⟩ := List.forall_mem_cons.mp hfaithful
      have hfits : Fits front piece := hfirst piece rfl
      rw [toList_write_cons, toList_write_cons]
      cases htable : piece.isTable with
      | true =>
          have hend : ∀ c ∈ (write naming pieces).toList.head?, isNameChar c = false :=
            head?_write_of_suits htable hnext
          cases piece with
          | table t =>
              have hblank := canEndMark_of_blank_not_mem (h.ne_nil t) (h.blank t)
              have hfollow : ∀ next ∈ pieces.head?, Fits (front ++ (naming.tableName t.name).toList) next :=
                fun next hmem => (hnext next hmem).fits fun _ => hblank
              have htail := ih hrest hothers hfollow
              rw [Piece.write, Piece.write, h.table t front _ (hfits.2 rfl) hend]
              exact congrArg _ htail
          | _ => cases htable
      | false =>
          have hpiece := hpiece htable
          rw [prefixFrom_steady hpiece.steady fun hmark => hpiece.canStartTable (hfits.1 hmark),
            hpiece.write prefixed h.status,
            ih hrest hothers fun next hmem => (hnext next hmem).fits hpiece.canEndMark]

end

/-! ## Lists of neighbours -/

/-- Pieces, as they are spelled, that suit each other and may stand anywhere: they neither start with a table
nor wait for one. -/
structure Linked (parts : List Piece) : Prop where
  chain : parts.IsChain Piece.Suits
  first : ∀ part ∈ parts.head?, part.isTable = false
  last : ∀ part ∈ parts.getLast?, part.canEndMark = false ∧ part.isTable = false

theorem Linked.append {parts more : List Piece} (h : Linked parts) (hmore : Linked more) :
    Linked (parts ++ more) := by
  refine ⟨h.chain.append hmore.chain ?_, ?_, ?_⟩
  · intro part hpart next hnext
    obtain ⟨hend, htable⟩ := h.last part hpart
    exact ⟨fun hcan => by simp [hend] at hcan, fun hnexttable => by simp [hmore.first next hnext] at hnexttable,
      fun hparttable => by simp [htable] at hparttable⟩
  · intro part hpart
    rw [List.head?_append, Option.mem_def, Option.or_eq_some_iff] at hpart
    rcases hpart with hpart | ⟨-, hpart⟩
    · exact h.first part hpart
    · exact hmore.first part hpart
  · intro part hpart
    rw [List.getLast?_append, Option.mem_def, Option.or_eq_some_iff] at hpart
    rcases hpart with hpart | ⟨-, hpart⟩
    · exact hmore.last part hpart
    · exact h.last part hpart

instance (parts : List Piece) : Decidable (Linked parts) :=
  decidable_of_iff (parts.IsChain Piece.Suits ∧ (∀ part ∈ parts.head?, part.isTable = false) ∧
      ∀ part ∈ parts.getLast?, part.canEndMark = false ∧ part.isTable = false)
    ⟨fun h => ⟨h.1, h.2.1, h.2.2⟩, fun h => ⟨h.chain, h.first, h.last⟩⟩

/-- Pieces of a statement that are linked however the status field is spelled. The name of this field is quoted
by its own sub-select only. -/
structure Sealed (pieces : List Piece) : Prop where
  linked : ∀ known, Linked (pieces.flatMap (Piece.spelled known))
  unquoted : .literal "bug_status" ∉ pieces

/-- Whether a piece neither is a table nor may end like a mark. -/
def Piece.isQuiet : Piece → Bool
  | text s => ! Sql.canEndMark s.toList
  | literal s => s != "bug_status"
  | column _ | identifier _ | slot _ => true
  | table _ | source _ _ | statusField => false

section

variable {piece : Piece}

theorem Piece.spelled_of_isQuiet (h : piece.isQuiet = true) (known : Bool) : piece.spelled known = [piece] := by
  cases piece with
  | table | source | statusField => cases h
  | _ => rfl

theorem Piece.isTable_of_isQuiet (h : piece.isQuiet = true) : piece.isTable = false := by
  cases piece with
  | table | source | statusField => cases h
  | _ => rfl

theorem Piece.canEndMark_of_isQuiet (h : piece.isQuiet = true) : piece.canEndMark = false := by
  cases piece with
  | text s => exact (Bool.not_eq_true' _).mp h
  | _ => rfl

end

namespace Sealed

instance (pieces : List Piece) : Decidable (Sealed pieces) :=
  decidable_of_iff ((∀ known, Linked (pieces.flatMap (Piece.spelled known))) ∧ .literal "bug_status" ∉ pieces)
    ⟨fun h => ⟨h.1, h.2⟩, fun h => ⟨h.linked, h.unquoted⟩⟩

variable {pieces more : List Piece}

theorem nil : Sealed [] := by
  decide

theorem append (h : Sealed pieces) (hmore : Sealed more) : Sealed (pieces ++ more) := by
  refine ⟨fun known => ?_, ?_⟩
  · rw [List.flatMap_append]
    exact (h.linked known).append (hmore.linked known)
  · rw [List.mem_append]
    exact not_or.mpr ⟨h.unquoted, hmore.unquoted⟩

theorem flatMap {α : Type} {f : α → List Piece} {xs : List α} (h : ∀ x ∈ xs, Sealed (f x)) :
    Sealed (xs.flatMap f) := by
  induction xs with
  | nil => exact nil
  | cons x xs ih =>
      rw [List.flatMap_cons]
      exact (h x List.mem_cons_self).append (ih fun y hy => h y (List.mem_cons_of_mem _ hy))

/-- Groups that may stand by themselves and behind the separator. -/
theorem separated {separator : String} {groups : List (List Piece)}
    (h : ∀ group ∈ groups, Sealed group ∧ Sealed (.text separator :: group)) :
    Sealed (separated separator groups) := by
  -- What follows the first group starts with the separator.
  have hcons (group : List Piece) (groups : List (List Piece))
      (h : ∀ group' ∈ group :: groups, Sealed group' ∧ Sealed (.text separator :: group')) :
      Sealed (Sql.separated separator (group :: groups)) ∧
        Sealed (.text separator :: Sql.separated separator (group :: groups)) := by
    induction groups generalizing group with
    | nil => simpa [Sql.separated] using h
    | cons next groups ih =>
        obtain ⟨hgroup, hrest⟩ := List.forall_mem_cons.mp h
        obtain ⟨-, htail⟩ := ih next hrest
        have heq : Sql.separated separator (group :: next :: groups) =
            group ++ .text separator :: Sql.separated separator (next :: groups) := by
          simp [Sql.separated, List.intercalate_cons_cons]
        rw [heq]
        exact ⟨hgroup.1.append htail, hgroup.2.append htail⟩
  cases groups with
  | nil => exact nil
  | cons group groups => exact (hcons group groups h).1

theorem of_isQuiet {piece : Piece} (h : piece.isQuiet = true) : Sealed [piece] := by
  refine ⟨fun known => ?_, ?_⟩
  · rw [List.flatMap_singleton, Piece.spelled_of_isQuiet h]
    refine ⟨.singleton _, ?_, ?_⟩
    · simpa using Piece.isTable_of_isQuiet h
    · simpa using ⟨Piece.canEndMark_of_isQuiet h, Piece.isTable_of_isQuiet h⟩
  · intro hmem
    obtain rfl := List.mem_singleton.mp hmem
    cases h

theorem of_quiet (h : ∀ piece ∈ pieces, piece.isQuiet = true) : Sealed pieces := by
  induction pieces with
  | nil => exact nil
  | cons piece pieces ih =>
      obtain ⟨hpiece, hrest⟩ := List.forall_mem_cons.mp h
      exact (of_isQuiet hpiece).append (ih hrest)

/-- Behind any text may stand what cannot be taken for a table. -/
theorem of_canStartTable {s : String} {piece : Piece} (hquiet : piece.isQuiet = true)
    (hstart : piece.canStartTable = false) : Sealed [.text s, piece] := by
  have htable := Piece.isTable_of_isQuiet hquiet
  refine ⟨fun known => ?_, by simpa using (of_isQuiet hquiet).unquoted⟩
  have hpair : [Piece.text s, piece].flatMap (Piece.spelled known) = [.text s, piece] := by
    rw [List.flatMap_cons, List.flatMap_singleton, Piece.spelled_of_isQuiet hquiet]
    rfl
  rw [hpair]
  refine ⟨List.isChain_pair.mpr ⟨fun _ => hstart, ?_, ?_⟩, ?_, ?_⟩
  · simp [htable]
  · simp [Piece.isTable]
  · simp [Piece.isTable]
  · simpa using ⟨Piece.canEndMark_of_isQuiet hquiet, htable⟩

end Sealed

end BugReport.Sql
