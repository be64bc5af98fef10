import BugReport.Proofs.Sql.Lexeme
import BugReport.Sql.Statement

/-! # Fragments of a statement

Which pieces a statement may be written from, and when such pieces may stand in a row: every piece is
fixed or a checked name, parentheses close what they open, and behind a literal or a slot comes text
that sets it apart. A fragment is looked at without its text and without knowing how tables are called;
what this says about the text is said in `BugReport.Proofs.Sql.Reading`.
-/

namespace BugReport.Sql

/-- The words and signs that statements are written with, apart from the sign at the end and from words
that are identifiers. -/
def fixedTexts : List String :=
  [" AS ", "=", ", ", " ON ", " AND ", " FROM ", " WHERE ", " LEFT JOIN ", " INNER JOIN ",
    "(SELECT ", ") AS ", ")", ",", " ", " GROUP BY ", " WHERE 1=1", " ORDER BY ", "MAX(", "COUNT(",
    "SUM(", "COALESCE(", "COALESCE(NULLIF(", "),", "(SELECT GROUP_CONCAT(", ") FROM ",
    " IN (SELECT ", "))", "<>", " < ", " > ", " <= ", " >= ", " LIKE ", " NOT LIKE ", " IS NULL",
    " IS NOT NULL", " > 0", " OR ", " AND (", " AND EXISTS (SELECT ", "SELECT DISTINCT ",
    "SELECT COUNT(DISTINCT(id)) AS count FROM (", ") AS b", "(SELECT id FROM ", " WHERE name="]

/-- The texts that statements hold in quotes. -/
def fixedLiterals : List String :=
  ["?", "bug_status", "ASSIGNED", "CLOSED", "REOPENED", "RESOLVED", "VERIFIED", "2100-01-01", "---",
    "XXXXX"]

/-- The depth behind a character, unless it closes a parenthesis that was not opened. -/
def nest? (depth : Nat) (c : Char) : Option Nat :=
  if c = '(' then some (depth + 1)
  else if c = ')' then if depth = 0 then none else some (depth - 1)
  else some depth

namespace Piece

/-- Whether a piece is fixed text or a name that was checked. -/
def isVetted : Piece → Bool
  | text s => isIdentifier s.toList || fixedTexts.contains s
  | literal s => fixedLiterals.contains s
  | column c => c.owner.all (fun owner => isIdentifier owner.toList) && isIdentifier c.name.toList
  | source _ correlation => isIdentifier correlation.toList
  | identifier _ | table _ | slot _ | statusField => true

/-- The depth behind a piece. Only texts open and close parentheses for the pieces after them. -/
def nest? (depth : Nat) : Piece → Option Nat
  | text s => s.toList.foldlM Sql.nest? depth
  | _ => some depth

/-- Whether a piece has to be set apart from the one after it. -/
def isOpenEnded : Piece → Bool
  | literal _ | slot _ => true
  | _ => false

/-- Whether a piece sets the one before it apart. -/
def setsApart : Piece → Bool
  | text s => s.toList.head?.any fun c => ! c.isDigit
  | _ => false

end Piece

/-- Where a reader of pieces stands. -/
structure Position where
  /-- How many parentheses are open. -/
  depth : Nat
  /-- Whether the piece before has to be set apart. -/
  pending : Bool
  deriving DecidableEq

/-- The position behind a piece, if the piece may stand there. -/
def Position.behind? (p : Position) (piece : Piece) : Option Position :=
  if p.pending && ! piece.setsApart then none
  else (piece.nest? p.depth).map fun depth => ⟨depth, piece.isOpenEnded⟩

/-- What a step over a piece says about the two positions. -/
theorem Position.behind?_eq_some {p q : Position} {piece : Piece} :
    p.behind? piece = some q ↔ (p.pending = true → piece.setsApart = true) ∧
      piece.nest? p.depth = some q.depth ∧ q.pending = piece.isOpenEnded := by
  unfold behind?
  constructor
  · intro h
    split at h
    · cases h
    next hapart =>
        obtain ⟨depth, hdepth, rfl⟩ := Option.map_eq_some_iff.mp h
        refine ⟨?_, hdepth, rfl⟩
        intro hpending
        simpa [hpending] using hapart
  · rintro ⟨hapart, hdepth, hpending⟩
    have hguard : ¬ (p.pending && ! piece.setsApart) = true := by simpa using hapart
    rw [if_neg hguard, hdepth, Option.map_some, ← hpending]

/-- A fragment leads from one position to another. -/
structure Leads (p : Position) (pieces : List Piece) (q : Position) : Prop where
  vetted : ∀ piece ∈ pieces, piece.isVetted
  position : pieces.foldlM Position.behind? p = some q

namespace Leads

variable {p q r : Position} {piece : Piece} {pieces more : List Piece}

instance : Decidable (Leads p pieces q) :=
  decidable_of_iff ((∀ piece ∈ pieces, piece.isVetted) ∧ pieces.foldlM Position.behind? p = some q)
    ⟨fun h => ⟨h.1, h.2⟩, fun h => ⟨h.vetted, h.position⟩⟩

theorem nil (p : Position) : Leads p [] p :=
  ⟨by simp, rfl⟩

theorem append (h : Leads p pieces q) (hmore : Leads q more r) : Leads p (pieces ++ more) r := by
  refine ⟨?_, ?_⟩
  · intro piece hpiece
    rcases List.mem_append.mp hpiece with hmem | hmem
    · exact h.vetted piece hmem
    · exact hmore.vetted piece hmem
  · rw [List.foldlM_append, h.position]
    exact hmore.position

/-- A fragment is a vetted piece and a fragment behind it. -/
theorem cons_iff : Leads p (piece :: pieces) q ↔
    piece.isVetted = true ∧ ∃ middle, p.behind? piece = some middle ∧ Leads middle pieces q := by
  constructor
  · intro h
    have hposition := h.position
    rw [List.foldlM_cons, Option.bind_eq_bind, Option.bind_eq_some_iff] at hposition
    obtain ⟨middle, hmiddle, hrest⟩ := hposition
    refine ⟨h.vetted piece List.mem_cons_self, middle, hmiddle, ?_, hrest⟩
    exact fun other hother => h.vetted other (List.mem_cons_of_mem _ hother)
  · rintro ⟨hpiece, middle, hmiddle, hrest⟩
    refine ⟨?_, ?_⟩
    · intro other hother
      rcases List.mem_cons.mp hother with rfl | hmem
      · exact hpiece
      · exact hrest.vetted other hmem
    · rw [List.foldlM_cons, hmiddle]
      exact hrest.position

theorem cons (hpiece : Leads p [piece] q) (hmore : Leads q more r) : Leads p (piece :: more) r :=
  hpiece.append hmore

end Leads

/-! ## Names -/

theorem ne_nil_of_isIdentifier {cs : List Char} (h : isIdentifier cs = true) : cs ≠ [] := by
  rintro rfl
  cases h

theorem isWord_of_mem_identifier {cs : List Char} (h : isIdentifier cs = true) {c : Char}
    (hc : c ∈ cs) : (c.isAlphanum || c == '_') = true := by
  cases cs with
  | nil => cases hc
  | cons first rest =>
      simp only [isIdentifier, Bool.and_eq_true, List.all_eq_true] at h
      rcases List.mem_cons.mp hc with rfl | hmem
      · simp only [Char.isAlphanum, Bool.or_eq_true] at h ⊢
        exact h.1.imp_left .inl
      · exact h.2 c hmem

theorem not_mem_identifier {cs : List Char} (h : isIdentifier cs = true) {c : Char}
    (hc : (c.isAlphanum || c == '_') = false) : c ∉ cs := by
  intro hmem
  rw [isWord_of_mem_identifier h hmem] at hc
  cases hc

theorem foldlM_nest?_of_not_mem {cs : List Char} (hopen : '(' ∉ cs) (hclose : ')' ∉ cs)
    (depth : Nat) : cs.foldlM nest? depth = some depth := by
  induction cs with
  | nil => rfl
  | cons c cs ih =>
      simp only [List.mem_cons, not_or] at hopen hclose
      have hc : nest? depth c = some depth := by
        simp [nest?, Ne.symm hopen.1, Ne.symm hclose.1]
      rw [List.foldlM_cons, hc]
      exact ih hopen.2 hclose.2

theorem foldlM_nest?_identifier {cs : List Char} (h : isIdentifier cs = true) (depth : Nat) :
    cs.foldlM nest? depth = some depth :=
  foldlM_nest?_of_not_mem (not_mem_identifier h (by decide)) (not_mem_identifier h (by decide)) depth

/-- A name may be written as it is. -/
theorem Leads.name {s : String} (h : isIdentifier s.toList = true) (depth : Nat) :
    Leads ⟨depth, false⟩ [.text s] ⟨depth, false⟩ := by
  refine ⟨by simp [Piece.isVetted, h], ?_⟩
  simp [Position.behind?, Piece.nest?, foldlM_nest?_identifier h, Piece.isOpenEnded]

/-! ## Fragments at any depth -/

theorem nest?_add {depth next : Nat} {c : Char} (h : nest? depth c = some next) (n : Nat) :
    nest? (depth + n) c = some (next + n) := by
  by_cases hclose : c = ')'
  · subst hclose
    -- What is closed was opened, so more open parentheses around it do no harm.
    obtain ⟨hdepth, rfl⟩ : depth ≠ 0 ∧ depth - 1 = next := by simpa [nest?] using h
    have hmore : depth + n ≠ 0 := by omega
    simp only [nest?, Char.reduceEq, ↓reduceIte, hmore, Option.some.injEq]
    omega
  · simp only [nest?, hclose, ↓reduceIte] at h ⊢
    split at h
    · next hopen =>
        simp only [hopen, ↓reduceIte, Option.some.injEq] at h ⊢
        omega
    · next hopen =>
        simp only [hopen, ↓reduceIte, Option.some.injEq] at h ⊢
        omega

theorem foldlM_nest?_add {cs : List Char} {depth next : Nat}
    (h : cs.foldlM nest? depth = some next) (n : Nat) :
    cs.foldlM nest? (depth + n) = some (next + n) := by
  induction cs generalizing depth with
  | nil =>
      simp only [List.foldlM_nil, Option.pure_def, Option.some.injEq] at h ⊢
      omega
  | cons c cs ih =>
      simp only [List.foldlM_cons, Option.bind_eq_bind, Option.bind_eq_some_iff] at h ⊢
      obtain ⟨middle, hmiddle, hrest⟩ := h
      exact ⟨middle + n, nest?_add hmiddle n, ih hrest⟩

theorem Piece.nest?_add {piece : Piece} {depth next : Nat}
    (h : piece.nest? depth = some next) (n : Nat) :
    piece.nest? (depth + n) = some (next + n) := by
  cases piece with
  | text s => exact foldlM_nest?_add h n
  | _ =>
      simp only [Piece.nest?, Option.some.injEq] at h ⊢
      omega

theorem Position.behind?_add {p q : Position} {piece : Piece} (h : p.behind? piece = some q)
    (n : Nat) :
    (Position.mk (p.depth + n) p.pending).behind? piece = some ⟨q.depth + n, q.pending⟩ := by
  obtain ⟨hapart, hdepth, hpending⟩ := behind?_eq_some.mp h
  exact behind?_eq_some.mpr ⟨hapart, Piece.nest?_add hdepth n, hpending⟩

/-- A fragment does not depend on the parentheses around it. -/
theorem Leads.add {p q : Position} {pieces : List Piece} (h : Leads p pieces q) (n : Nat) :
    Leads ⟨p.depth + n, p.pending⟩ pieces ⟨q.depth + n, q.pending⟩ := by
  induction pieces generalizing p with
  | nil =>
      obtain rfl : p = q := Option.some.inj h.position
      exact .nil _
  | cons piece pieces ih =>
      obtain ⟨hpiece, middle, hmiddle, hrest⟩ := Leads.cons_iff.mp h
      exact Leads.cons_iff.mpr ⟨hpiece, _, Position.behind?_add hmiddle n, ih hrest⟩

/-- A fragment that closes what it opens and leaves nothing to set apart. -/
def Whole (pieces : List Piece) : Prop :=
  ∀ depth, Leads ⟨depth, false⟩ pieces ⟨depth, false⟩

/-- A fragment that closes what it opens and sets apart whatever comes before it. -/
def Trailing (pieces : List Piece) : Prop :=
  ∀ depth pending, ∃ pending', Leads ⟨depth, pending⟩ pieces ⟨depth, pending'⟩

section

variable {pieces more : List Piece} {α : Type} {f : α → List Piece} {xs : List α}

/-- What may stand behind a piece that has to be set apart may stand behind any piece. -/
theorem Leads.anywhere {depth : Nat} {pending : Bool} (h : Leads ⟨0, true⟩ pieces ⟨0, pending⟩)
    (hne : pieces ≠ []) (before : Bool) : Leads ⟨depth, before⟩ pieces ⟨depth, pending⟩ := by
  have hadd : Leads ⟨depth, true⟩ pieces ⟨depth, pending⟩ := by simpa using h.add depth
  -- Only the first piece looks at what stands before the fragment.
  obtain ⟨piece, rest, rfl⟩ := List.exists_cons_of_ne_nil hne
  obtain ⟨hpiece, middle, hmiddle, hrest⟩ := Leads.cons_iff.mp hadd
  obtain ⟨hapart, hdepth, hpending⟩ := Position.behind?_eq_some.mp hmiddle
  refine Leads.cons_iff.mpr ⟨hpiece, middle, ?_, hrest⟩
  exact Position.behind?_eq_some.mpr ⟨fun _ => hapart rfl, hdepth, hpending⟩

theorem Leads.trailing {pending : Bool} (h : Leads ⟨0, true⟩ pieces ⟨0, pending⟩)
    (hne : pieces ≠ []) : Trailing pieces :=
  fun _ before => ⟨pending, h.anywhere hne before⟩

theorem Leads.column {column : Column} (h : (Piece.column column).isVetted = true) (depth : Nat) :
    Leads ⟨depth, false⟩ [.column column] ⟨depth, false⟩ :=
  ⟨by simpa using h, rfl⟩

theorem Leads.slot (n depth : Nat) : Leads ⟨depth, false⟩ [.slot n] ⟨depth, true⟩ :=
  ⟨by simp [Piece.isVetted], rfl⟩

theorem Leads.whole (h : Leads ⟨0, false⟩ pieces ⟨0, false⟩) : Whole pieces := by
  intro depth
  simpa using h.add depth

theorem Whole.append (h : Whole pieces) (hmore : Whole more) : Whole (pieces ++ more) :=
  fun depth => (h depth).append (hmore depth)

theorem Whole.flatMap (h : ∀ x ∈ xs, Whole (f x)) : Whole (xs.flatMap f) := by
  induction xs with
  | nil => exact fun depth => .nil _
  | cons x xs ih =>
      rw [List.flatMap_cons]
      exact (h x List.mem_cons_self).append (ih fun y hy => h y (List.mem_cons_of_mem _ hy))

theorem Trailing.append (h : Trailing pieces) (hmore : Trailing more) : Trailing (pieces ++ more) := by
  intro depth pending
  obtain ⟨middle, hpieces⟩ := h depth pending
  obtain ⟨last, hmore⟩ := hmore depth middle
  exact ⟨last, hpieces.append hmore⟩

theorem Trailing.flatMap (h : ∀ x ∈ xs, Trailing (f x)) : Trailing (xs.flatMap f) := by
  induction xs with
  | nil => exact fun depth pending => ⟨pending, .nil _⟩
  | cons x xs ih =>
      rw [List.flatMap_cons]
      exact (h x List.mem_cons_self).append (ih fun y hy => h y (List.mem_cons_of_mem _ hy))

end

/-- Groups that lead to the same position, with a separator that leads back from it. -/
theorem Leads.separated {depth : Nat} {pending : Bool} {separator : String}
    {groups : List (List Piece)}
    (hgroups : ∀ group ∈ groups, Leads ⟨depth, false⟩ group ⟨depth, pending⟩)
    (hseparator : Leads ⟨depth, pending⟩ [.text separator] ⟨depth, false⟩) :
    Leads ⟨depth, false⟩ (separated separator groups) ⟨depth, ! groups.isEmpty && pending⟩ := by
  unfold Sql.separated
  induction groups with
  | nil => exact .nil _
  | cons group groups ih =>
      have hgroup := hgroups group List.mem_cons_self
      cases groups with
      | nil => simpa using hgroup
      | cons next groups =>
          rw [List.intercalate_cons_cons]
          have hrest := ih fun other hother => hgroups other (List.mem_cons_of_mem _ hother)
          exact (hgroup.append hseparator).append hrest

theorem Whole.separated {separator : String} {groups : List (List Piece)}
    (hgroups : ∀ group ∈ groups, Whole group) (hseparator : Whole [.text separator]) :
    Whole (separated separator groups) := by
  intro depth
  simpa using Leads.separated (fun group hgroup => hgroups group hgroup depth) (hseparator depth)

end BugReport.Sql
