import BugReport.Proofs.Filter.Complement

/-! # Lists and groups of words

The clause of a list of words is true of the texts that are one of them, and that of a group in `!( )` of those that
are none of them, provided that the group has more than one word. Parentheses around a single word are part of the text
that is compared with.
-/

namespace BugReport

open Sql (Tuple Column Collation)

namespace Term

variable {collation : Collation} {w x : String}

theorem fits_word (h : IsPlainWord w) : (ofWord w).Fits collation false x ↔ x = w := by
  rw [Fits, text_ofWord h]
  exact Iff.rfl

theorem fits_word_negated (h : IsPlainWord w) : (ofWord w).Fits collation true x ↔ x ≠ w := by
  rw [Fits, text_ofWord h]
  exact Iff.rfl

theorem fits_negate {s : String} (h : Filter.decode s = (s, [])) :
    Fits collation false x ⟨.negate, s, false⟩ ↔ x ≠ s := by
  have htext : text ⟨.negate, s, false⟩ = s := congrArg Prod.fst h
  rw [Fits, htext]
  exact Iff.rfl

end Term

namespace Restriction

variable {collation : Collation} {row : Tuple} {earlier later : List String} {column : Column} {x w : String}
  {words : List String}

theorem isTrue_list (h : ∀ w ∈ words, IsPlainWord w) (hne : words ≠ []) (hcell : row.cell column = some x) :
    (ofMatch earlier.length (",".intercalate words)).IsTrue collation row earlier later column ↔ x ∈ words := by
  match words, hne with
  | [w], _ =>
      have hw : IsPlainWord w := h w List.mem_cons_self
      rw [String.intercalate_singleton, ofMatch, MatchExpr.parse_word hw, isTrue_single hcell,
        Term.fits_word hw, List.mem_singleton]
  | first :: second :: words, hne =>
      have hterms : (first :: second :: words).map Term.ofWord ≠ [] := List.map_eq_nil_iff.not.mpr hne
      rw [ofMatch, MatchExpr.parse_list h (by simp), isTrue_anyOf hterms hcell]
      constructor
      · rintro ⟨t, ht, hfits⟩
        obtain ⟨w, hw, rfl⟩ := List.mem_map.mp ht
        rw [(Term.fits_word (h w hw)).mp hfits]
        exact hw
      · intro hx
        exact ⟨_, List.mem_map_of_mem hx, (Term.fits_word (h x hx)).mpr rfl⟩

theorem isTrue_negated_word (h : IsPlainWord w) (hcell : row.cell column = some x) :
    (ofMatch earlier.length ("!" ++ w)).IsTrue collation row earlier later column ↔ x ≠ w := by
  rw [ofMatch, MatchExpr.parse_negated_word h, isTrue_single hcell, Term.fits_negate (decode_word h)]

theorem isTrue_group (h : ∀ w ∈ words, IsPlainWord w) (hlength : 2 ≤ words.length)
    (hcell : row.cell column = some x) :
    (ofMatch earlier.length ("!(" ++ ",".intercalate words ++ ")")).IsTrue collation row earlier later column ↔
      ∀ w ∈ words, x ≠ w := by
  have hne : words ≠ [] := List.ne_nil_of_length_pos (by omega)
  have hterms : words.map Term.ofWord ≠ [] := List.map_eq_nil_iff.not.mpr hne
  rw [ofMatch, MatchExpr.parse_group h hlength, isTrue_noneOf hterms hcell, List.forall_mem_map]
  apply forall₂_congr
  intro w hw
  exact Term.fits_word_negated (h w hw)

theorem isTrue_group_word (h : IsPlainWord w) (hcell : row.cell column = some x) :
    (ofMatch earlier.length ("!(" ++ w ++ ")")).IsTrue collation row earlier later column ↔
      x ≠ "(" ++ w ++ ")" := by
  have hdecode : Filter.decode ("(" ++ w ++ ")") = ("(" ++ w ++ ")", []) := by
    apply Filter.decode_of_plain
    · apply List.all_eq_true.mpr
      intro c hc
      rcases mem_parenthesized h hc with rfl | hplain | rfl
      · decide
      · exact isSafeChar_of_isPlainChar hplain
      · decide
    · exact fun hc => absurd (mem_parenthesized h hc) (by decide)
    · exact fun hc => absurd (mem_parenthesized h hc) (by decide)
  rw [ofMatch, MatchExpr.parse_group_word h, isTrue_single hcell, Term.fits_negate hdecode]

/-- The clause of a group is true of its one word all the same. -/
theorem not_excludes_single (collation : Collation) (h : IsPlainWord w) (earlier later : List String)
    (column : Column) :
    ∃ row : Tuple, row.cell column = some w ∧
      (ofMatch earlier.length ("!(" ++ w ++ ")")).IsTrue collation row earlier later column := by
  refine ⟨⟨fun _ => some w, fun _ => false⟩, rfl, (isTrue_group_word h rfl).mpr ?_⟩
  intro heq
  have hlength := congrArg String.length heq
  rw [String.length_append, String.length_append] at hlength
  have hopen : "(".length = 1 := rfl
  omega

/-- The clause of a group, read back, is true of exactly the texts that are none of its words if and only if it has more
than one of them. -/
theorem excludes_group_iff (words : List String) (hwords : ∀ w ∈ words, IsPlainWord w) (hne : words ≠ [])
    (collation : Collation) (earlier later : List String) (column : Column) :
    (∀ (row : Tuple) (x : String), row.cell column = some x →
      ((ofMatch earlier.length ("!(" ++ ",".intercalate words ++ ")")).IsTrue collation row earlier later column ↔
        ∀ w ∈ words, x ≠ w)) ↔
      2 ≤ words.length := by
  constructor
  · intro hexcludes
    by_contra hlength
    obtain ⟨w, rfl⟩ : ∃ w, words = [w] := by
      rw [← List.length_eq_one_iff]
      have hpos := List.length_pos_iff.mpr hne
      omega
    rw [String.intercalate_singleton] at hexcludes
    obtain ⟨row, hcell, htrue⟩ :=
      not_excludes_single collation (hwords w List.mem_cons_self) earlier later column
    exact (hexcludes row w hcell).mp htrue w List.mem_cons_self rfl
  · intro hlength row x hcell
    exact isTrue_group hwords hlength hcell

theorem excludes_group_iff_closed_verified :
    (∀ w ∈ ["CLOSED", "VERIFIED"], IsPlainWord w) ∧ ["CLOSED", "VERIFIED"] ≠ [] ∧
      ∀ (row : Tuple) (x : String), row.cell (.of "bugs" "bug_status") = some x →
        ((ofMatch 1 "!(CLOSED,VERIFIED)").IsTrue .byCharacters row ["NEW"] [] (.of "bugs" "bug_status") ↔
          ∀ w ∈ ["CLOSED", "VERIFIED"], x ≠ w) := by
  have hwords : ∀ w ∈ ["CLOSED", "VERIFIED"], IsPlainWord w := by decide
  have hne : ["CLOSED", "VERIFIED"] ≠ [] := by decide
  exact ⟨hwords, hne, (excludes_group_iff _ hwords hne .byCharacters ["NEW"] [] _).mpr (by decide)⟩

theorem group_keeps_its_word :
    ¬ ((ofMatch 0 "!(CLOSED)").IsTrue .byCharacters ⟨fun _ => some "CLOSED", fun _ => false⟩ [] []
        (.of "bugs" "bug_status") ↔ ∀ w ∈ ["CLOSED"], "CLOSED" ≠ w) := by
  intro hiff
  have hword : IsPlainWord "CLOSED" := by decide
  refine hiff.mp ?_ "CLOSED" List.mem_cons_self rfl
  exact (isTrue_group_word hword rfl).mpr (by decide)

end Restriction

end BugReport
