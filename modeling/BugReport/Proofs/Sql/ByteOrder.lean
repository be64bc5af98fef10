import BugReport.Proofs.Sql.Formula
import BugReport.Proofs.Text.Percent

/-! # The order of bytes

A database that is given no other collation compares texts by their bytes. The first byte of a character grows with
the number of its bytes, and the others are the digits of its code. So the order of the bytes is the order of the
characters, and what conditions say by either is the same.
-/

namespace BugReport

namespace Text

variable {c d : Char} {a b : List Char}

theorem ofNat_lt_iff {m n : Nat} (hm : m < 256) (hn : n < 256) :
    UInt8.ofNat m < UInt8.ofNat n ↔ m < n := by
  rw [UInt8.lt_iff_toNat_lt, UInt8.toNat_ofNat', UInt8.toNat_ofNat', Nat.mod_eq_of_lt hm,
    Nat.mod_eq_of_lt hn]

theorem ofNat_eq_iff {m n : Nat} (hm : m < 256) (hn : n < 256) :
    UInt8.ofNat m = UInt8.ofNat n ↔ m = n := by
  rw [← UInt8.toNat_inj, UInt8.toNat_ofNat', UInt8.toNat_ofNat', Nat.mod_eq_of_lt hm,
    Nat.mod_eq_of_lt hn]

/-- Of two different characters the bytes show which one comes first, whatever follows them. -/
theorem utf8EncodeChar_lt (h : c < d) (x y : List UInt8) :
    String.utf8EncodeChar c ++ x < String.utf8EncodeChar d ++ y := by
  have hlt : c.val.toNat < d.val.toNat := h
  have hd : d.val.toNat < 1114112 := by
    rcases d.valid with hsmall | ⟨-, hlarge⟩
    · exact Nat.lt_trans hsmall (by decide)
    · exact hlarge
  unfold String.utf8EncodeChar
  dsimp only
  generalize c.val.toNat = m at hlt
  generalize d.val.toNat = n at hlt hd
  -- The cases are the numbers of bytes of the two characters.
  split_ifs <;>
    simp (disch := omega) only [List.cons_append, List.nil_append, List.cons_lt_cons_iff, ofNat_lt_iff,
      ofNat_eq_iff] <;>
    try omega
  -- Four bytes each: the first one that differs has to be found.
  rcases Nat.lt_or_ge (m / 262144) (n / 262144) with hfirst | hfirst
  · omega
  · rcases Nat.lt_or_ge (m / 4096) (n / 4096) with hsecond | hsecond
    · omega
    · omega

theorem append_lt_append_left_iff {x y : List UInt8} (bytes : List UInt8) :
    bytes ++ x < bytes ++ y ↔ x < y := by
  induction bytes with
  | nil => rfl
  | cons b bytes ih =>
      rw [List.cons_append, List.cons_append, List.cons_lt_cons_iff, ih]
      simp

theorem utf8_cons_ne_nil (c : Char) (cs : List Char) : utf8 (c :: cs) ≠ [] := by
  simp [utf8]

/-- Bytes are in the order of the characters that they encode. -/
theorem utf8_lt_utf8_iff : utf8 a < utf8 b ↔ a < b := by
  induction a generalizing b with
  | nil =>
      cases b with
      | nil => exact iff_of_false (List.not_lt_nil _) (List.not_lt_nil _)
      | cons d b =>
          obtain ⟨first, bytes, hbytes⟩ := List.exists_cons_of_ne_nil (utf8_cons_ne_nil d b)
          rw [hbytes]
          exact iff_of_true (List.nil_lt_cons _ _) (List.nil_lt_cons _ _)
  | cons c a ih =>
      cases b with
      | nil => exact iff_of_false (List.not_lt_nil _) (List.not_lt_nil _)
      | cons d b =>
          rw [List.cons_lt_cons_iff]
          rcases lt_trichotomy c d with hlt | rfl | hgt
          · exact iff_of_true (utf8EncodeChar_lt hlt _ _) (.inl hlt)
          · have hsame : utf8 (c :: a) < utf8 (c :: b) ↔ a < b :=
              (append_lt_append_left_iff (String.utf8EncodeChar c)).trans ih
            simpa using hsame
          · have hbytes : utf8 (d :: b) < utf8 (c :: a) := utf8EncodeChar_lt hgt _ _
            refine iff_of_false (List.lt_asymm hbytes) ?_
            rintro (hlt | ⟨rfl, -⟩)
            · exact lt_asymm hlt hgt
            · exact lt_irrefl _ hgt

end Text

namespace Sql.Collation

theorem toUTF8_lt_iff {x y : String} : x.toUTF8.toList < y.toUTF8.toList ↔ x < y := by
  rw [Text.toList_toUTF8, Text.toList_toUTF8, Text.utf8_lt_utf8_iff, String.lt_iff_toList_lt]

/-- Texts in the order of their bytes, and patterns as in `likes`. -/
def bytewise : Collation where
  lt x y := x.toUTF8.toList < y.toUTF8.toList
  like x pattern := likes pattern.toList x.toList
  strictTotal := by
    simp only [toUTF8_lt_iff]
    infer_instance

/-- The bytes of texts compare as their characters do. -/
theorem bytewise_eq_byCharacters : bytewise = byCharacters := by
  have hlt : bytewise.lt = byCharacters.lt := by
    funext x y
    exact propext toUTF8_lt_iff
  rw [Collation.mk.injEq]
  exact ⟨hlt, rfl⟩

end Sql.Collation

end BugReport
