import BugReport.Expression.Match
import BugReport.Proofs.Text.Parts
import BugReport.Proofs.Text.Trim
import BugReport.Parameter.Policy

/-! # Lists of words

Words without signs, written as lists of values, are read back one term for each word. The sign of negation
and the parentheses count as such only in front of a list: with a single word in parentheses they belong to
the sign and to the literal of one term.
-/

namespace BugReport

/-- Whether a character has no meaning of its own in a filter value. -/
def isPlainChar (c : Char) : Bool :=
  isWordChar c || c == '.' || c == '@'

def IsPlainWord (w : String) : Prop :=
  ∀ c ∈ w.toList, isPlainChar c = true

instance (w : String) : Decidable (IsPlainWord w) :=
  List.decidableBAll (fun c => isPlainChar c = true) w.toList

/-- The term that a plain word is read as. -/
def Term.ofWord (w : String) : Term :=
  ⟨.equals, w, false⟩

variable {c d : Char} {cs : List Char} {w : String} {words : List String}

/-! ## Characters -/

theorem toNat_of_isPlainChar (h : isPlainChar c = true) : 46 ≤ c.toNat ∧ c.toNat ≤ 122 := by
  have hletter : c.isAlpha = (c.isUpper || c.isLower) := rfl
  have hupper : c.isUpper = decide ('A'.val ≤ c.val ∧ c.val ≤ 'Z'.val) := rfl
  have hlower : c.isLower = (decide ('a'.val ≤ c.val) && decide (c.val ≤ 'z'.val)) := rfl
  simp only [isPlainChar, isWordChar, Char.isAlphanum, Char.isDigit, hletter, hupper, hlower,
    Bool.or_eq_true, Bool.and_eq_true, decide_eq_true_eq, beq_iff_eq, ge_iff_le,
    UInt32.le_iff_toNat_le] at h
  have hspan (low high : Char) (hc : low.toNat ≤ c.toNat ∧ c.toNat ≤ high.toNat)
      (hlow : 46 ≤ low.toNat) (hhigh : high.toNat ≤ 122) : 46 ≤ c.toNat ∧ c.toNat ≤ 122 :=
    ⟨Nat.le_trans hlow hc.1, Nat.le_trans hc.2 hhigh⟩
  rcases h with ((((hupper | hlower) | hdigit) | rfl) | rfl) | rfl
  · exact hspan 'A' 'Z' hupper (by decide) (by decide)
  · exact hspan 'a' 'z' hlower (by decide) (by decide)
  · exact hspan '0' '9' hdigit (by decide) (by decide)
  all_goals decide

theorem isBlank_of_isPlainChar (h : isPlainChar c = true) : Text.isBlank c = false := by
  obtain ⟨hlow, hhigh⟩ := toNat_of_isPlainChar h
  rw [Bool.eq_false_iff]
  intro hblank
  simp only [Text.isBlank, Bool.or_eq_true, Bool.and_eq_true, decide_eq_true_eq, beq_iff_eq] at hblank
  omega

theorem isBlank_of_isDigit (h : c.isDigit = true) : Text.isBlank c = false :=
  isBlank_of_isPlainChar (by simp [isPlainChar, isWordChar, Char.isAlphanum, h])

theorem not_mem_of_plain (h : ∀ c ∈ cs, isPlainChar c = true) (hd : isPlainChar d = false) :
    d ∉ cs := by
  intro hmem
  rw [h d hmem] at hd
  cases hd

theorem mem_parenthesized (h : IsPlainWord w) (hc : c ∈ ("(" ++ w ++ ")").toList) :
    c = '(' ∨ isPlainChar c = true ∨ c = ')' := by
  rw [String.toList_append, String.toList_append, List.mem_append, List.mem_append] at hc
  rcases hc with (hopen | hmem) | hclose
  · exact .inl (List.mem_singleton.mp hopen)
  · exact .inr (.inl (h c hmem))
  · exact .inr (.inr (List.mem_singleton.mp hclose))

/-! ## Terms -/

namespace Term

theorem ofList_word (h : IsPlainWord w) : ofList w.toList = .ofWord w := by
  have hblank : ∀ c ∈ w.toList, isLeadingBlank c = false := by
    intro c hc
    have hwhite := isBlank_of_isPlainChar (h c hc)
    rw [Bool.eq_false_iff] at hwhite ⊢
    intro hlead
    apply hwhite
    simp only [isLeadingBlank, Bool.or_eq_true, beq_iff_eq] at hlead
    rcases hlead with ((rfl | rfl) | rfl) | rfl <;> decide
  have hsign : takeSign w.toList = (.equals, w.toList) := by
    unfold takeSign
    split
    next cs heq => exact absurd (heq ▸ List.mem_cons_self) (not_mem_of_plain h (by decide))
    next cs heq => exact absurd (heq ▸ List.mem_cons_self) (not_mem_of_plain h (by decide))
    next cs heq => exact absurd (heq ▸ List.mem_cons_self) (not_mem_of_plain h (by decide))
    · rfl
  have hpercent : w.toList.contains '%' = false := by
    simpa using not_mem_of_plain h (by decide)
  rw [ofList, Text.dropWhile_of_not hblank, hsign]
  simp only [hpercent, Text.trimRight_of_no_blank fun c hc => isBlank_of_isPlainChar (h c hc),
    String.ofList_toList]
  rfl

theorem ofList_negated (hblank : ∀ c ∈ cs, Text.isBlank c = false) (hpercent : '%' ∉ cs) :
    ofList ('!' :: cs) = ⟨.negate, String.ofList cs, false⟩ := by
  have hcontains : ('!' :: cs).contains '%' = false := by simpa using hpercent
  have hlead : ('!' :: cs).dropWhile isLeadingBlank = '!' :: cs := rfl
  rw [ofList, hlead]
  simp only [takeSign, hcontains, Text.trimRight_of_no_blank hblank]

end Term

/-! ## Expressions -/

namespace MatchExpr

theorem dropClosing_append (cs : List Char) : dropClosing (cs ++ [')']) = cs := by
  simp [dropClosing]

theorem ofTrimmed_single (hspecial : Special.ofList? cs = none) (hcomma : ',' ∉ cs) :
    ofTrimmed cs = .single (.ofList cs) := by
  simp [ofTrimmed, hspecial, hcomma]

theorem special_of_comma (hcomma : ',' ∈ cs) : Special.ofList? cs = none := by
  unfold Special.ofList?
  split
  all_goals first | rfl | exact absurd hcomma (by decide)

theorem ofTrimmed_anyOf (hcomma : ',' ∈ cs) (hgroup : ¬ ['!', '('] <+: cs) :
    ofTrimmed cs = .anyOf (termsOf cs) := by
  have hcontains : (! cs.contains ',') = false := by simpa using hcomma
  simp only [ofTrimmed, special_of_comma hcomma, hcontains, Bool.false_eq_true, ↓reduceIte]
  split
  next inner => exact absurd ⟨inner, rfl⟩ hgroup
  · rfl

theorem ofTrimmed_noneOf (hcomma : ',' ∈ cs) :
    ofTrimmed ('!' :: '(' :: cs) = .noneOf (termsOf (dropClosing cs)) := by
  have hmem : ',' ∈ '!' :: '(' :: cs := by simp [hcomma]
  have hcontains : (! ('!' :: '(' :: cs).contains ',') = false := by simpa using hmem
  simp only [ofTrimmed, special_of_comma hmem, hcontains]
  rfl

end MatchExpr

/-! ## Lists -/

/-- The characters of words with commas between them. -/
def listedChars (words : List String) : List Char :=
  [','].intercalate (words.map String.toList)

theorem toList_listed (words : List String) :
    (",".intercalate words).toList = listedChars words := String.toList_intercalate

theorem mem_listedChars (h : ∀ w ∈ words, IsPlainWord w) (hc : c ∈ listedChars words) :
    c = ',' ∨ isPlainChar c = true := by
  rcases Text.mem_intercalate hc with hcomma | ⟨part, hpart, hmem⟩
  · exact .inl (List.mem_singleton.mp hcomma)
  · obtain ⟨w, hw, rfl⟩ := List.mem_map.mp hpart
    exact .inr (h w hw c hmem)

theorem not_mem_listedChars (h : ∀ w ∈ words, IsPlainWord w) (hplain : isPlainChar d = false)
    (hcomma : d ≠ ',') : d ∉ listedChars words := by
  intro hmem
  rcases mem_listedChars h hmem with heq | htrue
  · exact hcomma heq
  · rw [hplain] at htrue
    cases htrue

theorem isBlank_listedChars (h : ∀ w ∈ words, IsPlainWord w) :
    ∀ c ∈ listedChars words, Text.isBlank c = false := by
  intro c hc
  rcases mem_listedChars h hc with rfl | hplain
  · decide
  · exact isBlank_of_isPlainChar hplain

theorem comma_mem_listedChars (h : 2 ≤ words.length) : ',' ∈ listedChars words := by
  match words, h with
  | first :: second :: words, _ =>
      rw [listedChars, List.map_cons, List.map_cons, List.intercalate_cons_cons]
      simp

theorem splitOn_listedChars (h : ∀ w ∈ words, IsPlainWord w) (hne : words ≠ []) :
    (listedChars words).splitOn ',' = words.map String.toList := by
  apply List.splitOn_intercalate
  · intro part hpart
    obtain ⟨w, hw, rfl⟩ := List.mem_map.mp hpart
    exact not_mem_of_plain (h w hw) (by decide)
  · simpa using hne

namespace MatchExpr

theorem termsOf_listedChars (h : ∀ w ∈ words, IsPlainWord w) (hne : words ≠ []) :
    termsOf (listedChars words) = words.map Term.ofWord := by
  rw [termsOf, splitOn_listedChars h hne, List.map_map]
  apply List.map_congr_left
  intro w hw
  exact Term.ofList_word (h w hw)

theorem parse_word (h : IsPlainWord w) : parse w = .single (.ofWord w) := by
  have hspecial : Special.ofList? w.toList = none := by
    unfold Special.ofList?
    split
    next heq => exact absurd (heq ▸ List.mem_cons_self) (not_mem_of_plain h (by decide))
    next heq => exact absurd (heq ▸ List.mem_cons_self) (not_mem_of_plain h (by decide))
    next heq => exact absurd (heq ▸ List.mem_cons_self) (not_mem_of_plain h (by decide))
    · rfl
  rw [parse, Text.trim_of_no_blank fun c hc => isBlank_of_isPlainChar (h c hc),
    ofTrimmed_single hspecial (not_mem_of_plain h (by decide)), Term.ofList_word h]

theorem parse_list (h : ∀ w ∈ words, IsPlainWord w) (hlength : 2 ≤ words.length) :
    parse (",".intercalate words) = .anyOf (words.map Term.ofWord) := by
  have hne : words ≠ [] := List.ne_nil_of_length_pos (by omega)
  have hgroup : ¬ ['!', '('] <+: listedChars words := by
    intro hstart
    exact not_mem_listedChars h (by decide) (by decide) (hstart.subset List.mem_cons_self)
  rw [parse, toList_listed, Text.trim_of_no_blank (isBlank_listedChars h),
    ofTrimmed_anyOf (comma_mem_listedChars hlength) hgroup, termsOf_listedChars h hne]

/-- Without a comma the sign of negation belongs to a term, also in front of a parenthesis. -/
theorem parse_negated {s : String} (hblank : ∀ c ∈ s.toList, Text.isBlank c = false)
    (hpercent : '%' ∉ s.toList) (hcomma : ',' ∉ s.toList) :
    parse ("!" ++ s) = .single ⟨.negate, s, false⟩ := by
  have hchars : ("!" ++ s).toList = '!' :: s.toList := String.toList_append
  have hblanks : ∀ c ∈ '!' :: s.toList, Text.isBlank c = false :=
    List.forall_mem_cons.mpr ⟨by decide, hblank⟩
  have hspecial : Special.ofList? ('!' :: s.toList) = none := by simp [Special.ofList?]
  rw [parse, hchars, Text.trim_of_no_blank hblanks, ofTrimmed_single hspecial (by simpa using hcomma),
    Term.ofList_negated hblank hpercent, String.ofList_toList]

theorem parse_negated_word (h : IsPlainWord w) : parse ("!" ++ w) = .single ⟨.negate, w, false⟩ :=
  parse_negated (fun c hc => isBlank_of_isPlainChar (h c hc)) (not_mem_of_plain h (by decide))
    (not_mem_of_plain h (by decide))

theorem toList_group (s : String) : ("!(" ++ s ++ ")").toList = '!' :: '(' :: (s.toList ++ [')']) := by
  rw [String.toList_append, String.toList_append]
  rfl

theorem parse_group (h : ∀ w ∈ words, IsPlainWord w) (hlength : 2 ≤ words.length) :
    parse ("!(" ++ ",".intercalate words ++ ")") = .noneOf (words.map Term.ofWord) := by
  have hne : words ≠ [] := List.ne_nil_of_length_pos (by omega)
  have hblank : ∀ c ∈ '!' :: '(' :: (listedChars words ++ [')']), Text.isBlank c = false := by
    intro c hc
    simp only [List.mem_cons, List.mem_append, List.not_mem_nil, or_false] at hc
    rcases hc with rfl | rfl | hmem | rfl
    · decide
    · decide
    · exact isBlank_listedChars h c hmem
    · decide
  rw [parse, toList_group, toList_listed, Text.trim_of_no_blank hblank,
    ofTrimmed_noneOf (List.mem_append_left _ (comma_mem_listedChars hlength)), dropClosing_append,
    termsOf_listedChars h hne]

/-- A single word in parentheses is not a group: the parentheses stay in the literal. -/
theorem parse_group_word (h : IsPlainWord w) :
    parse ("!(" ++ w ++ ")") = .single ⟨.negate, "(" ++ w ++ ")", false⟩ := by
  have hassoc : "!(" ++ w ++ ")" = "!" ++ ("(" ++ w ++ ")") := by
    rw [← String.append_assoc, ← String.append_assoc]
    rfl
  rw [hassoc]
  apply parse_negated
  · intro c hc
    rcases mem_parenthesized h hc with rfl | hplain | rfl
    · decide
    · exact isBlank_of_isPlainChar hplain
    · decide
  · exact fun hc => absurd (mem_parenthesized h hc) (by decide)
  · exact fun hc => absurd (mem_parenthesized h hc) (by decide)

end MatchExpr

end BugReport
