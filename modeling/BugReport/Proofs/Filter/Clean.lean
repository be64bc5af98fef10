import BugReport.Filter.Restriction
import BugReport.Proofs.Text.Parts
import Mathlib.Data.List.Forall2

/-! # Clean values

The texts that restrictions bind hold no sign by which a quoted text could be left. Literals are decoded
after their parameter was checked, so what was encoded in them is checked again, and a literal that does
not pass is replaced by a fixed word and reported. Dates are not decoded: a bound is part of the value,
and an offset is written in digits and hyphens.
-/

namespace BugReport

/-- The signs that end or escape a quoted text in one language or another. -/
def quotingSigns : List Char := ['\'', '"', '`', '\\']

/-- Whether a text holds no quoting sign. -/
def Clean (s : String) : Prop :=
  ∀ c ∈ s.toList, c ∉ quotingSigns

instance (s : String) : Decidable (Clean s) :=
  List.decidableBAll (fun c => c ∉ quotingSigns) s.toList

namespace Clean

variable {s t : String}

theorem of_subset (h : Clean s) (hsub : t.toList ⊆ s.toList) : Clean t :=
  fun c hc => h c (hsub hc)

theorem append (hs : Clean s) (ht : Clean t) : Clean (s ++ t) := by
  intro c hc
  rcases List.mem_append.mp (String.toList_append ▸ hc) with hmem | hmem
  · exact hs c hmem
  · exact ht c hmem

/-- A class of characters without the signs makes clean texts. -/
theorem of_class {admits : Char → Bool} (hadmits : quotingSigns.any admits = false)
    (h : ∀ c ∈ s.toList, admits c = true) : Clean s := by
  intro c hc hsign
  have hany : quotingSigns.any admits = true := List.any_eq_true.mpr ⟨c, hsign, h c hc⟩
  rw [hadmits] at hany
  cases hany

end Clean

/-! ## Literals -/

namespace Filter

/-- The text that a literal stands for, if its bytes are one. -/
def plainText? (raw : String) : Option String :=
  Text.percentDecode? (Text.substitute '+' " " raw)

theorem clean_of_isSafe {s : String} (h : isSafe s = true) : Clean s :=
  .of_class (by decide) (List.all_eq_true.mp h)

theorem decode_of_isSafe {raw text : String} (htext : plainText? raw = some text)
    (hsafe : isSafe text = true) : decode raw = (text, []) := by
  simp only [plainText?] at htext
  simp [decode, decode?, htext, hsafe]

/-- A literal that stands for no text or for an unsafe one is refused. -/
theorem decode_of_refused {raw : String}
    (h : ∀ text, plainText? raw = some text → isSafe text = false) :
    ∃ d, decode raw = (invalidValue, [d]) ∧ d.kind = .validationRejected := by
  simp only [plainText?] at h
  cases htext : Text.percentDecode? (Text.substitute '+' " " raw) with
  | none => exact ⟨.invalidEncoding raw, by simp [decode, decode?, htext], rfl⟩
  | some text =>
      exact ⟨.unsafeLiteral text safePattern, by simp [decode, decode?, htext, h text htext], rfl⟩

/-- Whatever stands in a literal, the bound text is in the safe class. -/
theorem isSafe_decode (raw : String) : isSafe (decode raw).1 = true := by
  by_cases hsafe : ∃ text, plainText? raw = some text ∧ isSafe text = true
  · obtain ⟨text, htext, hsafe⟩ := hsafe
    rw [decode_of_isSafe htext hsafe]
    exact hsafe
  · have hunsafe : ∀ text, plainText? raw = some text → isSafe text = false := by
      intro text htext
      exact Bool.eq_false_iff.mpr fun h => hsafe ⟨text, htext, h⟩
    obtain ⟨d, hd, -⟩ := decode_of_refused hunsafe
    rw [hd]
    exact (by decide : isSafe invalidValue = true)

end Filter

/-! ## Match expressions -/

/-- The terms of an expression. -/
def MatchExpr.terms : MatchExpr → List Term
  | special _ => []
  | single term => [term]
  | anyOf terms => terms
  | noneOf terms => terms

/-- Whether a text is the one to bind for a term: its decoded literal if that is safe, and a fixed word
otherwise, which is reported. -/
structure Term.BoundAs (reported : List Diagnostic) (t : Term) (text : String) : Prop where
  safe : Filter.isSafe text = true
  decoded : ∀ plain, Filter.plainText? t.literal = some plain → Filter.isSafe plain = true →
    text = plain
  refused : (∀ plain, Filter.plainText? t.literal = some plain → Filter.isSafe plain = false) →
    text = "INVALID_FIELD_VALUE" ∧ ∃ d ∈ reported, d.kind = .validationRejected

theorem Term.boundAs_decode {reported : List Diagnostic} {t : Term}
    (h : (Filter.decode t.literal).2 ⊆ reported) :
    t.BoundAs reported (Filter.decode t.literal).1 where
  safe := Filter.isSafe_decode t.literal
  decoded plain hplain hsafe := by rw [Filter.decode_of_isSafe hplain hsafe]
  refused hunsafe := by
    obtain ⟨d, hd, hkind⟩ := Filter.decode_of_refused hunsafe
    rw [hd] at h ⊢
    exact ⟨rfl, d, h List.mem_cons_self, hkind⟩

namespace Restriction

theorem values_ofMatch (bound : Nat) (value : String) :
    (ofMatch bound value).values =
      (MatchExpr.parse value).terms.map fun t => (Filter.decode t.literal).1 := by
  unfold ofMatch
  cases MatchExpr.parse value with
  | special special => cases special <;> rfl
  | _ => rfl

theorem diagnostics_ofMatch (bound : Nat) (value : String) :
    (ofMatch bound value).diagnostics =
      (MatchExpr.parse value).terms.flatMap fun t => (Filter.decode t.literal).2 := by
  unfold ofMatch
  cases MatchExpr.parse value with
  | special special => cases special <;> rfl
  | _ => rfl

/-- A match expression binds one text for each of its terms. -/
theorem boundAs_ofMatch (bound : Nat) (value : String) :
    List.Forall₂ (Term.BoundAs (ofMatch bound value).diagnostics) (MatchExpr.parse value).terms
      (ofMatch bound value).values := by
  rw [values_ofMatch, diagnostics_ofMatch, List.forall₂_map_right_iff, List.forall₂_same]
  intro t ht
  apply Term.boundAs_decode
  intro d hd
  exact List.mem_flatMap.mpr ⟨t, ht, hd⟩

theorem clean_ofMatch (bound : Nat) (value : String) :
    ∀ text ∈ (ofMatch bound value).values, Clean text := by
  rw [values_ofMatch]
  intro text htext
  obtain ⟨t, -, rfl⟩ := List.mem_map.mp htext
  exact Filter.clean_of_isSafe (Filter.isSafe_decode t.literal)

end Restriction

/-! ## Dates -/

theorem Calendar.isDigit_of_mem_padded {width n : Nat} {c : Char}
    (h : c ∈ (padded width n).toList) : c.isDigit = true := by
  simp only [padded, String.toList_ofList, List.mem_append, List.mem_replicate] at h
  rcases h with ⟨-, rfl⟩ | hdigit
  · decide
  · exact Nat.isDigit_of_mem_toDigits (by decide) (by decide) hdigit

theorem Calendar.clean_padded (width n : Nat) : Clean (padded width n) :=
  .of_class (by decide) fun _ hc => isDigit_of_mem_padded hc

theorem Calendar.Date.clean_text (date : Date) : Clean date.text := by
  have hyear : Clean (yearText date.year) := by
    unfold yearText
    split
    · exact clean_padded _ _
    · refine .append ?_ (clean_padded _ _)
      split <;> decide
  have hhyphen : Clean "-" := by decide
  exact (((hyear.append hhyphen).append (clean_padded _ _)).append hhyphen).append (clean_padded _ _)

namespace DateBound

/-- A bound that is a text of its own is part of the value. -/
theorem subset_of_ofList_absolute {cs : List Char} {text : String}
    (h : ofList cs = .absolute text) : text.toList ⊆ cs := by
  unfold ofList at h
  split at h
  · cases h
  · cases h
  · cases h
  · cases h
    simp

end DateBound

namespace Restriction

/-- The text of a bound is a date or part of the value. -/
theorem clean_boundText? {now : Int} {column text : String} {cs : List Char}
    (hcs : Clean (String.ofList cs)) (h : boundText? now column (.ofList cs) = .ok (some text)) :
    Clean text := by
  cases hbound : DateBound.ofList cs with
  | unbounded => simp [boundText?, hbound] at h
  | absolute t =>
      simp only [boundText?, hbound, Except.ok.injEq, Option.some.injEq] at h
      subst h
      refine hcs.of_subset ?_
      rw [String.toList_ofList]
      exact DateBound.subset_of_ofList_absolute hbound
  | relative seconds =>
      simp only [boundText?, hbound] at h
      split at h
      next date hdate =>
          simp only [Except.ok.injEq, Option.some.injEq] at h
          subst h
          simp only [dateAt?] at hdate
          split at hdate
          · cases hdate
            exact Calendar.Date.clean_text _
          · cases hdate
      · cases h

theorem clean_ofBounds {bound : Nat} {bounds : List (Sql.Operator × Option String)}
    (h : ∀ entry ∈ bounds, ∀ text ∈ entry.2, Clean text) :
    ∀ text ∈ (ofBounds bound bounds).values, Clean text := by
  intro text htext
  obtain ⟨⟨operator, shown⟩, hentry, rfl⟩ := List.mem_map.mp htext
  obtain ⟨entry, hmem, hsome⟩ := List.mem_filterMap.mp hentry
  obtain ⟨shown, hshown, heq⟩ := Option.map_eq_some_iff.mp hsome
  cases heq
  exact h entry hmem shown hshown

theorem clean_ofDate (bound : Nat) (now : Int) (column : String) {value : String}
    (h : Clean value) : ∀ text ∈ (ofDate bound now column value).values, Clean text := by
  have htrimmed : Clean (String.ofList (Text.trim value.toList)) :=
    h.of_subset (by simpa using Text.trim_subset value.toList)
  have hnone (diagnostics : List Diagnostic) :
      ∀ text ∈ (refused diagnostics).values, Clean text := by simp [refused]
  unfold ofDate DateExpr.parse
  generalize Text.trim value.toList = cs at htrimmed
  -- An open range binds its one end.
  have hopen (operator : Sql.Operator) {shown : Option String}
      (hshown : boundText? now column (.ofList cs) = .ok shown) :
      ∀ text ∈ (ofBounds bound [(operator, shown)]).values, Clean text := by
    apply clean_ofBounds
    simp only [List.forall_mem_singleton]
    rintro text rfl
    exact clean_boundText? htrimmed hshown
  unfold DateExpr.ofTrimmed
  split
  next low high rest hsplit =>
      -- Both ends of a range are entries of the value.
      have hends {part : List Char} (hpart : part ∈ low :: high :: rest) :
          Clean (String.ofList part) := by
        rw [← hsplit] at hpart
        exact htrimmed.of_subset (by simpa using Text.subset_of_mem_splitOn hpart)
      simp only [ofDateExpr]
      split
      next lowText highText hlow hhigh =>
          apply clean_ofBounds
          simp only [List.forall_mem_cons, List.not_mem_nil, false_imp_iff, implies_true, and_true]
          constructor
          · rintro text rfl
            exact clean_boundText? (hends List.mem_cons_self) hlow
          · rintro text rfl
            exact clean_boundText? (hends (List.mem_cons_of_mem _ List.mem_cons_self)) hhigh
      · exact hnone _
  · split
    · simp only [ofDateExpr]
      split
      next shown hshown => exact hopen _ hshown
      · exact hnone _
    · simp only [ofDateExpr]
      split
      next shown hshown => exact hopen _ hshown
      · exact hnone _
    · split
      next special _ => cases special <;> simp [ofDateExpr, ofSpecial]
      · exact hnone _

end Restriction

end BugReport
