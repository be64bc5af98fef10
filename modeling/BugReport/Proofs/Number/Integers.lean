import BugReport.Number.Decimal
import BugReport.Proofs.Text.Digits
import Mathlib.Data.List.TakeWhile

/-! # Integers in binary floating point

An integer with at most 53 binary digits, not counting zeros at its end, is a number of the format. It is read from
its digits, the sum of two of them is exact as long as it stays below `2 ^ 53`, and below this bound it is written with
its digits again.
-/

namespace BugReport.Binary64

/-! ## Powers and quotients -/

theorem twoPow_pos (n : Nat) : 0 < twoPow n :=
  Nat.pow_pos (by decide)

theorem twoPow_add (m n : Nat) : twoPow (m + n) = twoPow m * twoPow n :=
  Nat.pow_add 2 m n

theorem tenPow_pos (n : Nat) : 0 < tenPow n :=
  Nat.pow_pos (by decide)

theorem tenPow_succ (n : Nat) : tenPow (n + 1) = tenPow n * 10 :=
  rfl

theorem log2_mul_twoPow {n : Nat} (hn : n ≠ 0) (j : Nat) : (n * twoPow j).log2 = n.log2 + j := by
  rw [Nat.log2_eq_iff (Nat.mul_ne_zero hn (Nat.ne_of_gt (twoPow_pos j)))]
  constructor
  · exact Nat.le_trans (Nat.le_of_eq (twoPow_add _ _)) (Nat.mul_le_mul_right _ (Nat.log2_self_le hn))
  · have hlt : n * twoPow j < twoPow (n.log2 + 1) * twoPow j :=
      Nat.mul_lt_mul_of_pos_right Nat.lt_log2_self (twoPow_pos j)
    rw [← twoPow_add, Nat.add_right_comm] at hlt
    exact hlt

theorem divNearest_mul (tie : Tie) (q : Nat) {d : Nat} (hd : 0 < d) : divNearest tie (q * d) d = q := by
  simp [divNearest, Nat.mul_div_cancel q hd, Nat.ne_of_lt hd]

/-! ## The number of an integer -/

/-- The number nearest to an integer. -/
def ofInteger (i : Int) : Binary64 :=
  ofRatio (i < 0) i.natAbs 1

/-- At most 53 binary digits, with zeros behind them. -/
def IsExact (n : Nat) : Prop :=
  ∃ m s, m < twoPow 53 ∧ n = m * twoPow s

/-- The binary digits of the number of a natural number. -/
def mantissaOf (n : Nat) : Nat :=
  n * twoPow (52 - n.log2) / twoPow (n.log2 - 52)

def exponentOf (n : Nat) : Int :=
  (n.log2 : Int) - 52

variable {n : Nat} {i j : Int}

theorem IsExact.of_lt (h : n < twoPow 53) : IsExact n :=
  ⟨n, 0, h, (Nat.mul_one n).symm⟩

theorem IsExact.dvd (h : IsExact n) : twoPow (n.log2 - 52) ∣ n := by
  obtain ⟨m, s, hm, rfl⟩ := h
  rcases Nat.eq_zero_or_pos m with rfl | hpos
  · rw [Nat.zero_mul]
    exact Nat.dvd_zero _
  · have hlog : m.log2 < 53 := (Nat.log2_lt (Nat.ne_of_gt hpos)).mpr hm
    rw [log2_mul_twoPow (Nat.ne_of_gt hpos)]
    exact Nat.dvd_mul_left_of_dvd (Nat.pow_dvd_pow 2 (by omega)) m

theorem mantissaOf_mul (h : IsExact n) :
    mantissaOf n * twoPow (n.log2 - 52) = n * twoPow (52 - n.log2) :=
  Nat.div_mul_cancel (Nat.dvd_mul_right_of_dvd h.dvd _)

/-- The digits give the value back at every exponent that is low enough. -/
theorem mantissaOf_mul_twoPow (h : IsExact n) {g : Int} (hexponent : g ≤ exponentOf n) (hzero : g ≤ 0) :
    mantissaOf n * twoPow (exponentOf n - g).toNat = n * twoPow (-g).toNat := by
  have hsplit := mantissaOf_mul h
  unfold exponentOf at hexponent ⊢
  rcases Nat.le_total n.log2 52 with hlow | hhigh
  · rw [Nat.sub_eq_zero_of_le hlow] at hsplit
    have hsum : (-g).toNat = 52 - n.log2 + ((n.log2 : Int) - 52 - g).toNat := by omega
    rw [hsum, twoPow_add, ← Nat.mul_assoc, ← hsplit]
    exact congrArg (· * _) (Nat.mul_one _).symm
  · rw [Nat.sub_eq_zero_of_le hhigh] at hsplit
    have hsum : ((n.log2 : Int) - 52 - g).toNat = n.log2 - 52 + (-g).toNat := by omega
    rw [hsum, twoPow_add, ← Nat.mul_assoc, hsplit]
    exact congrArg (· * _) (Nat.mul_one _)

theorem mantissaOf_lt (h : IsExact n) : mantissaOf n < twoPow 53 := by
  have hsplit := mantissaOf_mul h
  have hlt : n < twoPow (n.log2 + 1) := Nat.lt_log2_self
  refine Nat.lt_of_mul_lt_mul_right (a := twoPow (n.log2 - 52)) ?_
  rw [hsplit, ← twoPow_add]
  have hsum : 53 + (n.log2 - 52) = n.log2 + 1 + (52 - n.log2) := by omega
  rw [hsum, twoPow_add]
  exact Nat.mul_lt_mul_of_pos_right hlt (twoPow_pos _)

theorem normalExponent_mul (hn : n ≠ 0) (k : Nat) :
    normalExponent (n * twoPow k) (twoPow k) = exponentOf n := by
  have hlog : ((n * twoPow k).log2 : Int) - (twoPow k).log2 = n.log2 := by
    have hone : (twoPow k).log2 = k := Nat.log2_two_pow
    rw [log2_mul_twoPow hn, hone]
    omega
  have hreached : twoPow k * twoPow n.log2 ≤ n * twoPow k := by
    rw [Nat.mul_comm n]
    exact Nat.mul_le_mul_left _ (Nat.log2_self_le hn)
  simp only [normalExponent, hlog, exponentOf, Int.natCast_nonneg, if_true, Int.toNat_natCast, hreached]

/-- Whole quotients are held exactly, as long as they are not beyond the format. -/
theorem ofRatio_mul (negative : Bool) (hn : n ≠ 0) (h : IsExact n) (hlog : n.log2 ≤ 1000) (k : Nat) :
    ofRatio negative (n * twoPow k) (twoPow k) = .finite negative (mantissaOf n) (exponentOf n) := by
  have hpos : 0 < n * twoPow k := Nat.mul_pos (Nat.pos_of_ne_zero hn) (twoPow_pos k)
  have hmax : max (exponentOf n) minExponent = exponentOf n := by
    unfold exponentOf minExponent
    omega
  have hquotient : n * twoPow k * twoPow (-exponentOf n).toNat =
      mantissaOf n * (twoPow k * twoPow (exponentOf n).toNat) := by
    have hup : (exponentOf n).toNat = n.log2 - 52 := by
      unfold exponentOf
      omega
    have hdown : (-exponentOf n).toNat = 52 - n.log2 := by
      unfold exponentOf
      omega
    rw [hup, hdown, Nat.mul_left_comm, mantissaOf_mul h, Nat.mul_assoc, Nat.mul_left_comm]
  have hnormal : (mantissaOf n == twoPow 53) = false :=
    beq_eq_false_iff_ne.mpr (Nat.ne_of_lt (mantissaOf_lt h))
  have hfits : ¬ exponentOf n > maxExponent := by
    unfold exponentOf maxExponent
    omega
  have hzero : ¬ (n * twoPow k == 0) = true :=
    fun heq => Nat.ne_of_gt hpos (eq_of_beq heq)
  unfold ofRatio
  rw [if_neg hzero, normalExponent_mul hn, hmax]
  simp only [hquotient, divNearest_mul _ _ (Nat.mul_pos (twoPow_pos _) (twoPow_pos _)), hnormal,
    Bool.false_eq_true, if_false, hfits]

theorem log2_le_of_lt {bits : Nat} (h : n < twoPow bits) (hbits : bits ≤ 1000) : n.log2 ≤ 1000 := by
  by_cases hn : n = 0
  · rw [hn]
    decide
  · have hlt : n.log2 < bits := (Nat.log2_lt hn).mpr h
    omega

/-! ## Sums -/

/-- A number with an exponent has the value of an integer, whatever lower exponent it is written with. -/
def Holds (x : Binary64) (e i : Int) : Prop :=
  ∃ m, x = .finite (i < 0) m e ∧
    ∀ g : Int, g ≤ e → g ≤ 0 → m * twoPow (e - g).toNat = i.natAbs * twoPow (-g).toNat

theorem ofInteger_eq (hi : i ≠ 0) (h : IsExact i.natAbs) (hlog : i.natAbs.log2 ≤ 1000) :
    ofInteger i = .finite (i < 0) (mantissaOf i.natAbs) (exponentOf i.natAbs) := by
  have hratio := ofRatio_mul (i < 0) (Int.natAbs_ne_zero.mpr hi) h hlog 0
  rwa [show twoPow 0 = 1 from rfl, Nat.mul_one] at hratio

theorem exists_holds_ofInteger (h : IsExact i.natAbs) (hlog : i.natAbs.log2 ≤ 1000) :
    ∃ e, (ofInteger i).Holds e i ∧ (i.natAbs < twoPow 53 → e ≤ 0) := by
  by_cases hi : i = 0
  · subst hi
    exact ⟨minExponent, ⟨0, rfl, fun g _ _ => by simp⟩, fun _ => by decide⟩
  · refine ⟨_, ⟨_, ofInteger_eq hi h hlog, fun g => mantissaOf_mul_twoPow h⟩, fun hlt => ?_⟩
    have hlow : i.natAbs.log2 < 53 := (Nat.log2_lt (Int.natAbs_ne_zero.mpr hi)).mpr hlt
    unfold exponentOf
    omega

theorem signed_natAbs_mul (i : Int) (p : Nat) : signed (i < 0) (i.natAbs * p) = i * p := by
  unfold signed
  by_cases hneg : i < 0
  · rw [if_pos (decide_eq_true hneg)]
    have habs : (i.natAbs : Int) = -i := by omega
    rw [Int.natCast_mul, habs, Int.neg_mul, Int.neg_neg]
  · rw [if_neg (by simpa using hneg)]
    have habs : (i.natAbs : Int) = i := by omega
    rw [Int.natCast_mul, habs]

theorem ratio_of_le (m : Nat) {e : Int} (he : e ≤ 0) : ratio m e = (m, twoPow (-e).toNat) := by
  rw [ratio, Int.toNat_of_nonpos he]
  exact congrArg (·, _) (Nat.mul_one m)

theorem add_of_holds {x y : Binary64} {e f : Int} (hx : x.Holds e i) (hy : y.Holds f j) (hlow : min e f ≤ 0)
    (hsum : (i + j).natAbs < twoPow 53) : x.add y = ofInteger (i + j) := by
  obtain ⟨m, rfl, hm⟩ := hx
  obtain ⟨n, rfl, hn⟩ := hy
  -- Over the lower exponent both summands are whole, and so is their sum.
  have hwhole : signed (i < 0) (m * twoPow (e - min e f).toNat) + signed (j < 0) (n * twoPow (f - min e f).toNat) =
      (i + j) * twoPow (-min e f).toNat := by
    rw [hm _ (Int.min_le_left e f) hlow, hn _ (Int.min_le_right e f) hlow, signed_natAbs_mul, signed_natAbs_mul,
      Int.add_mul]
  have hpow : (0 : Int) < twoPow (-min e f).toNat := Int.natCast_pos.mpr (twoPow_pos _)
  simp only [add, hwhole]
  by_cases hzero : i + j = 0
  · have hsigns : (decide (i < 0) && decide (j < 0)) = false := by
      rw [Bool.and_eq_false_iff, decide_eq_false_iff_not, decide_eq_false_iff_not]
      omega
    rw [hzero, Int.zero_mul, hsigns]
    rfl
  · have hne : ¬ ((i + j) * twoPow (-min e f).toNat == 0) = true :=
      fun heq => Int.mul_ne_zero hzero (Int.ne_of_gt hpow) (eq_of_beq heq)
    have hsign : decide ((i + j) * twoPow (-min e f).toNat < 0) = decide (i + j < 0) := by
      rw [decide_eq_decide]
      refine ⟨fun hneg => Int.not_le.mp fun hnonneg => ?_, fun hneg => Int.mul_neg_of_neg_of_pos hneg hpow⟩
      exact Int.not_le.mpr hneg (Int.mul_nonneg hnonneg (Int.le_of_lt hpow))
    have hlog := log2_le_of_lt hsum (by decide)
    rw [if_neg hne, hsign, Int.natAbs_mul, Int.natAbs_natCast, ratio_of_le _ hlow]
    exact (ofRatio_mul _ (Int.natAbs_ne_zero.mpr hzero) (.of_lt hsum) hlog _).trans
      (ofInteger_eq hzero (.of_lt hsum) hlog).symm

/-- Below the bound a sum is exact. One of the summands may be an integer above it. -/
theorem add_ofInteger (hi : i.natAbs < twoPow 53) (hj : IsExact j.natAbs) (hlog : j.natAbs.log2 ≤ 1000)
    (hsum : (i + j).natAbs < twoPow 53) : (ofInteger i).add (ofInteger j) = ofInteger (i + j) := by
  obtain ⟨e, hx, he⟩ := exists_holds_ofInteger (.of_lt hi) (log2_le_of_lt hi (by decide))
  obtain ⟨f, hy, -⟩ := exists_holds_ofInteger hj hlog
  exact add_of_holds hx hy (Int.le_trans (Int.min_le_left e f) (he hi)) hsum

/-! ## Reading -/

theorem toList_toString_nat (n : Nat) : (toString n).toList = Nat.toDigits 10 n := by
  rw [Nat.toString_eq_repr, Nat.toList_repr]

theorem toString_int (i : Int) : toString i = signText (i < 0) ++ String.ofList (Nat.toDigits 10 i.natAbs) := by
  rw [← toList_toString_nat, String.ofList_toList, Int.toString_eq_repr, Int.repr_eq_if, signText]
  by_cases hneg : i < 0
  · have habs : (-i).toNat = i.natAbs := by omega
    rw [if_neg (Int.not_le.mpr hneg), if_pos (decide_eq_true hneg), habs, Nat.toString_eq_repr]
  · have habs : i.toNat = i.natAbs := by omega
    rw [if_pos (Int.not_lt.mp hneg), if_neg (by simpa using hneg), habs, Nat.toString_eq_repr, String.empty_append]

theorem toList_toString_int (i : Int) : (toString i).toList =
    if i < 0 then '-' :: Nat.toDigits 10 i.natAbs else Nat.toDigits 10 i.natAbs := by
  rw [toString_int, String.toList_append, String.toList_ofList, signText]
  by_cases hneg : i < 0
  · rw [if_pos (decide_eq_true hneg), if_pos hneg]
    rfl
  · rw [if_neg (by simpa using hneg), if_neg hneg]
    rfl

theorem isDigit_of_mem_toDigits {c : Char} (h : c ∈ Nat.toDigits 10 n) : c.isDigit = true :=
  Nat.isDigit_of_mem_toDigits (by decide) (by decide) h

theorem length_toDigits_lt (h : n < twoPow 54) : (Nat.toDigits 10 n).length < 20 := by
  have hten : twoPow 54 < 10 ^ 19 := by decide
  exact Nat.lt_succ_of_le ((Nat.length_toDigits_le_iff (by decide) (by decide)).mpr (Nat.lt_trans h hten))

theorem toDigits_inj {m n : Nat} (h : Nat.toDigits 10 m = Nat.toDigits 10 n) : m = n := by
  rw [← Nat.ofDigitChars_ten_toDigits (n := m), h, Nat.ofDigitChars_ten_toDigits]

theorem toDigits_ne_minus_cons (m n : Nat) : Nat.toDigits 10 m ≠ '-' :: Nat.toDigits 10 n := by
  intro h
  have hdigit : '-'.isDigit = true := isDigit_of_mem_toDigits (h ▸ List.mem_cons_self)
  exact absurd hdigit (by decide)

/-- Integers that are written alike are equal. -/
theorem toString_inj {i j : Int} : toString i = toString j ↔ i = j := by
  refine ⟨fun h => ?_, congrArg toString⟩
  have hlists := congrArg String.toList h
  rw [toList_toString_int, toList_toString_int] at hlists
  split at hlists <;> split at hlists
  · have habs := toDigits_inj (List.cons.inj hlists).2
    omega
  · exact absurd hlists.symm (toDigits_ne_minus_cons _ _)
  · exact absurd hlists (toDigits_ne_minus_cons _ _)
  · have habs := toDigits_inj hlists
    omega

theorem ofDecimal_natural (negative : Bool) (hlength : (Nat.toDigits 10 n).length ≤ 400) :
    ofDecimal negative n 0 = ofRatio negative n 1 := by
  unfold ofDecimal
  by_cases hn : n = 0
  · subst hn
    rfl
  · have hlow : ¬ ((Nat.toDigits 10 n).length + 0 : Int) < -400 := by omega
    have hhigh : ¬ ((Nat.toDigits 10 n).length + 0 : Int) > 400 := by omega
    simp only [beq_eq_false_iff_ne.mpr hn, hlow, decide_false, Bool.or_self, Bool.false_eq_true, if_false, hhigh]
    exact congrArg (ofRatio negative · 1) (Nat.mul_one n)

theorem readUnsigned?_digits (negative : Bool) (hlength : (Nat.toDigits 10 n).length ≤ 400) :
    readUnsigned? negative (Nat.toDigits 10 n) = some (ofRatio negative n 1) := by
  have hdigits : ∀ c ∈ Nat.toDigits 10 n, c.isDigit = true := fun c hc => isDigit_of_mem_toDigits hc
  have hwhole : (Nat.toDigits 10 n).takeWhile Char.isDigit = Nat.toDigits 10 n :=
    List.takeWhile_eq_self_iff.mpr hdigits
  have hrest : (Nat.toDigits 10 n).dropWhile Char.isDigit = [] :=
    List.dropWhile_eq_nil_iff.mpr hdigits
  have hvalue : Text.digitsValue (Nat.toDigits 10 n) = n := by
    rw [← toList_toString_nat, Text.digitsValue_toString]
  have hne : (Nat.toDigits 10 n).isEmpty = false := List.isEmpty_eq_false_iff.mpr Nat.toDigits_ne_nil
  simp only [readUnsigned?, hwhole, hrest, hne, Bool.false_and, Bool.false_eq_true, if_false, readExponent?,
    Option.map_some, List.append_nil, hvalue]
  exact congrArg some (ofDecimal_natural negative hlength)

/-- Digits are no word for a number that is not finite. -/
theorem ofList_toDigits_ne {word : String} {c : Char} (hc : c ∈ word.toList) (hdigit : c.isDigit = false) :
    (String.ofList ((Nat.toDigits 10 n).map Char.toLower) == word) = false := by
  have hlower : (Nat.toDigits 10 n).map Char.toLower = Nat.toDigits 10 n := by
    refine (List.map_congr_left fun c hc => ?_).trans (List.map_id _)
    have hdigit := isDigit_of_mem_toDigits hc
    simp only [Char.isDigit, Bool.and_eq_true, decide_eq_true_eq] at hdigit
    exact dif_neg fun hupper => absurd (UInt32.le_trans hupper.1 hdigit.2) (by decide)
  rw [hlower, beq_eq_false_iff_ne]
  rintro rfl
  rw [String.toList_ofList] at hc
  exact Bool.false_ne_true (hdigit.symm.trans (isDigit_of_mem_toDigits hc))

/-- An integer is read from its digits. -/
theorem read?_toString (hlength : (Nat.toDigits 10 i.natAbs).length ≤ 400) :
    read? (toString i) = some (ofInteger i) := by
  have hinf : (String.ofList ((Nat.toDigits 10 i.natAbs).map Char.toLower) == "inf") = false :=
    ofList_toDigits_ne (c := 'i') (by decide) (by decide)
  have hinfinity : (String.ofList ((Nat.toDigits 10 i.natAbs).map Char.toLower) == "infinity") = false :=
    ofList_toDigits_ne (c := 'i') (by decide) (by decide)
  have hnan : (String.ofList ((Nat.toDigits 10 i.natAbs).map Char.toLower) == "nan") = false :=
    ofList_toDigits_ne (c := 'n') (by decide) (by decide)
  have hread := readUnsigned?_digits (decide (i < 0)) hlength
  rw [read?, toList_toString_int]
  by_cases hneg : i < 0
  · rw [decide_eq_true hneg] at hread
    simp only [hneg, if_true, hinf, hinfinity, hnan, Bool.or_self, Bool.false_eq_true, if_false, hread, ofInteger,
      decide_true]
  · rw [decide_eq_false hneg] at hread
    rw [if_neg hneg]
    split
    next negative cs hsign =>
      -- No digit is a sign.
      split at hsign
      · next hdigits => exact absurd (isDigit_of_mem_toDigits (hdigits ▸ List.mem_cons_self)) (by decide)
      · next hdigits => exact absurd (isDigit_of_mem_toDigits (hdigits ▸ List.mem_cons_self)) (by decide)
      · cases hsign
        simp only [hinf, hinfinity, hnan, Bool.or_self, Bool.false_eq_true, if_false, hread, ofInteger, hneg,
          decide_false]

theorem read?_of_lt (h : i.natAbs < twoPow 54) : read? (toString i) = some (ofInteger i) :=
  read?_toString (Nat.le_of_lt (Nat.lt_trans (length_toDigits_lt h) (by decide)))

/-! ## Writing -/

theorem toDigits_mul_tenPow (hn : 0 < n) (k : Nat) :
    Nat.toDigits 10 (n * tenPow k) = Nat.toDigits 10 n ++ zeros k := by
  induction k with
  | zero => rw [show tenPow 0 = 1 from rfl, Nat.mul_one, zeros, List.replicate_zero, List.append_nil]
  | succ k ih =>
      have hpos : 0 < n * tenPow k := Nat.mul_pos hn (tenPow_pos k)
      have hnext := Nat.toDigits_append_toDigits (b := 10) (d := 0) (by decide) hpos (by decide)
      rw [tenPow_succ, ← Nat.mul_assoc, Nat.mul_comm _ 10, ← Nat.add_zero (10 * _), ← hnext, ih, List.append_assoc,
        zeros, zeros, List.replicate_succ']
      rfl

theorem dropZeros_append_zeros (ds : List Char) :
    dropZeros ds ++ zeros (ds.length - (dropZeros ds).length) = ds := by
  have hsplit := List.takeWhile_append_dropWhile (p := (· == '0')) (l := ds.reverse)
  have hzeros : ds.reverse.takeWhile (· == '0') = zeros (ds.length - (dropZeros ds).length) := by
    rw [zeros, List.eq_replicate_iff]
    refine ⟨?_, fun c hc => eq_of_beq (List.mem_takeWhile_imp (p := (· == '0')) hc)⟩
    have hlength := congrArg List.length hsplit
    rw [List.length_append, List.length_reverse] at hlength
    rw [dropZeros, List.length_reverse]
    omega
  rw [hzeros] at hsplit
  have hreverse := congrArg List.reverse hsplit
  rwa [List.reverse_append, List.reverse_reverse, zeros, List.reverse_replicate] at hreverse

/-- With a whole value, a decimal without a fraction reads back only if it is that value. -/
theorem readsBack_natural (hn : 0 < n) {e : Int} (he : e ≤ 0) (d k : Nat) :
    readsBack (n * twoPow (-e).toNat) e d k = decide (d * tenPow k = n) := by
  have hp := twoPow_pos (-e).toNat
  have hunit : twoPow e.toNat = 1 := by rw [Int.toNat_of_nonpos he]; rfl
  have hten : tenPow (-(k : Int)).toNat = 1 := by rw [Int.toNat_of_nonpos (by omega)]; rfl
  have hx : 4 * d * tenPow (k : Int).toNat * twoPow (-e).toNat = 4 * (d * tenPow k * twoPow (-e).toNat) := by
    rw [Int.toNat_natCast, Nat.mul_assoc, Nat.mul_assoc, Nat.mul_assoc]
  have hpos : 0 < n * twoPow (-e).toNat := Nat.mul_pos hn hp
  simp only [readsBack, hunit, hten, Nat.mul_one, hx]
  generalize hvalue : d * tenPow k = a
  generalize twoPow (-e).toNat = p at hp hpos ⊢
  -- The interval is narrower than the distance between whole values.
  rcases Nat.lt_trichotomy a n with hlt | rfl | hgt
  · have hfar : a * p + p ≤ n * p := by
      rw [← Nat.succ_mul]
      exact Nat.mul_le_mul_right p hlt
    rw [decide_eq_false (Nat.ne_of_lt hlt)]
    split <;> split <;> simp <;> omega
  · rw [decide_eq_true rfl]
    split <;> split <;> simp <;> omega
  · have hfar : n * p + p ≤ a * p := by
      rw [← Nat.succ_mul]
      exact Nat.mul_le_mul_right p hgt
    rw [decide_eq_false (Nat.ne_of_gt hgt)]
    split <;> split <;> simp <;> omega

theorem nearestOnGrid?_natural (tie : Tie) (hn : 0 < n) {e : Int} (he : e ≤ 0) (k : Nat) :
    nearestOnGrid? tie (n * twoPow (-e).toNat) e k = if tenPow k ∣ n then some (n / tenPow k) else none := by
  have hunit : twoPow e.toNat = 1 := by rw [Int.toNat_of_nonpos he]; rfl
  have hten : tenPow (-(k : Int)).toNat = 1 := by rw [Int.toNat_of_nonpos (by omega)]; rfl
  have hquotient : n * twoPow (-e).toNat / (twoPow (-e).toNat * tenPow k) = n / tenPow k := by
    rw [Nat.mul_comm n, Nat.mul_div_mul_left _ _ (twoPow_pos _)]
  have hbelow : decide (n / tenPow k * tenPow k = n) = decide (tenPow k ∣ n) := by
    rw [decide_eq_decide, Nat.dvd_iff_div_mul_eq]
  have habove : decide ((n / tenPow k + 1) * tenPow k = n) = false := by
    rw [decide_eq_false_iff_not]
    exact Nat.ne_of_gt (Nat.lt_mul_of_div_lt (Nat.lt_succ_self _) (tenPow_pos k))
  simp only [nearestOnGrid?, hunit, hten, Nat.mul_one, Int.toNat_natCast, hquotient, readsBack_natural hn he, hbelow,
    habove]
  by_cases hdvd : tenPow k ∣ n
  · simp [hdvd]
  · simp [hdvd]

/-- The first grid with a decimal that reads back has one with the value itself. -/
theorem firstOnGrids_natural (tie : Tie) (hn : 0 < n) {e : Int} (he : e ≤ 0) {fuel k : Nat} (hfuel : k < fuel) :
    ∃ d place : Nat, firstOnGrids tie (n * twoPow (-e).toNat) e fuel k = (d, (place : Int)) ∧
      d * tenPow place = n := by
  induction fuel generalizing k with
  | zero => cases hfuel
  | succ fuel ih =>
      rw [firstOnGrids, nearestOnGrid?_natural tie hn he]
      by_cases hdvd : tenPow k ∣ n
      · have hne : (n / tenPow k == 0) = false :=
          beq_eq_false_iff_ne.mpr (Nat.ne_of_gt (Nat.div_pos (Nat.le_of_dvd hn hdvd) (tenPow_pos k)))
        refine ⟨n / tenPow k, k, ?_, Nat.div_mul_cancel hdvd⟩
        simp [hdvd, hne]
      · cases k with
        | zero => exact absurd (Nat.one_dvd n) hdvd
        | succ k =>
            have hnext : ((k + 1 : Nat) : Int) - 1 = k := by omega
            simp only [hdvd, if_false, hnext]
            exact ih (Nat.lt_of_succ_lt_succ hfuel)

theorem positional_shortest (tie : Tie) (hn : 0 < n) (hlength : (Nat.toDigits 10 n).length < 20) {e : Int}
    (he : e ≤ 0) : positional (shortest tie (n * twoPow (-e).toNat) e).1 (shortest tie (n * twoPow (-e).toNat) e).2 =
      Nat.toDigits 10 n := by
  have hratio : ratio (n * twoPow (-e).toNat) e = (n * twoPow (-e).toNat, twoPow (-e).toNat) := ratio_of_le _ he
  have hle : twoPow (-e).toNat ≤ n * twoPow (-e).toNat := Nat.le_mul_of_pos_left _ hn
  obtain ⟨d, place, hfirst, hvalue⟩ := firstOnGrids_natural tie hn he hlength
  have hd : 0 < d := Nat.pos_of_ne_zero fun hzero => by
    rw [hzero, Nat.zero_mul] at hvalue
    omega
  simp only [shortest, hratio, hle, if_true, Nat.mul_div_cancel _ (twoPow_pos _), hfirst]
  have hwhole : (0 : Int) ≤ place + ((Nat.toDigits 10 d).length - (dropZeros (Nat.toDigits 10 d)).length : Nat) := by
    omega
  have hcount : ((place : Int) + ((Nat.toDigits 10 d).length - (dropZeros (Nat.toDigits 10 d)).length : Nat)).toNat =
      (Nat.toDigits 10 d).length - (dropZeros (Nat.toDigits 10 d)).length + place := by
    omega
  have hzeros (a b : Nat) : zeros (a + b) = zeros a ++ zeros b := by
    rw [zeros, zeros, zeros, List.replicate_append_replicate]
  rw [positional, if_pos hwhole, hcount, hzeros, ← List.append_assoc, dropZeros_append_zeros, ← hvalue,
    toDigits_mul_tenPow hd]

theorem exists_ofInteger_eq (h : i.natAbs < twoPow 53) :
    ∃ e ≤ 0, ofInteger i = .finite (i < 0) (i.natAbs * twoPow (-e).toNat) e := by
  by_cases hi : i = 0
  · subst hi
    refine ⟨minExponent, by decide, ?_⟩
    rw [Int.natAbs_zero, Nat.zero_mul]
    rfl
  · have hlow : i.natAbs.log2 < 53 := (Nat.log2_lt (Int.natAbs_ne_zero.mpr hi)).mpr h
    have he : exponentOf i.natAbs ≤ 0 := by
      unfold exponentOf
      omega
    have hmantissa := mantissaOf_mul_twoPow (.of_lt h) (Int.le_refl _) he
    rw [Int.sub_self] at hmantissa
    refine ⟨exponentOf i.natAbs, he, ?_⟩
    rw [ofInteger_eq hi (.of_lt h) (log2_le_of_lt h (by decide)), ← hmantissa]
    exact congrArg (finite _ · _) (Nat.mul_one _).symm

theorem isZero_ofInteger (h : i.natAbs < twoPow 53) : (ofInteger i).isZero = decide (i = 0) := by
  obtain ⟨e, -, heq⟩ := exists_ofInteger_eq h
  rw [heq, isZero, beq_eq_decide, decide_eq_decide, Nat.mul_eq_zero, Int.natAbs_eq_zero]
  exact or_iff_left (Nat.ne_of_gt (twoPow_pos _))

theorem isIntegral_ofInteger (h : i.natAbs < twoPow 53) : (ofInteger i).isIntegral = true := by
  obtain ⟨e, -, heq⟩ := exists_ofInteger_eq h
  rw [heq, isIntegral, Nat.mul_mod_left]
  rfl

/-- Below the bound an integer is written with its digits. -/
theorem plainText_ofInteger (h : i.natAbs < twoPow 53) : (ofInteger i).plainText = toString i := by
  by_cases hi : i = 0
  · subst hi
    decide
  · obtain ⟨e, he, heq⟩ := exists_ofInteger_eq h
    have hpos := Nat.mul_pos (Int.natAbs_pos.mpr hi) (twoPow_pos (-e).toNat)
    have hzero : ¬ (i.natAbs * twoPow (-e).toNat == 0) = true := fun heq => Nat.ne_of_gt hpos (eq_of_beq heq)
    rw [heq, plainText, if_neg hzero]
    simp only [positional_shortest _ (Int.natAbs_pos.mpr hi) (length_toDigits_lt (Nat.lt_trans h (by decide))) he]
    exact (toString_int i).symm

theorem fixedText_ofInteger (h : i.natAbs < twoPow 53) : (ofInteger i).fixedText 0 = toString i := by
  obtain ⟨e, he, heq⟩ := exists_ofInteger_eq h
  have hone : tenPow 0 = 1 := rfl
  rw [heq, fixedText]
  simp only [ratio_of_le _ he, hone, Nat.mul_one, divNearest_mul _ _ (twoPow_pos _), Nat.div_one, beq_self_eq_true,
    if_true]
  exact (toString_int i).symm

end BugReport.Binary64
