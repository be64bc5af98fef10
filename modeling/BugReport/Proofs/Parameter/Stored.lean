import BugReport.Proofs.Parameter.History
import BugReport.Proofs.Parameter.Lines
import BugReport.Proofs.Parameter.Setting
import Mathlib.Data.List.Chain

/-! # What a store holds

A value is trimmed, then checked, then tidied around its commas, so the text that is stored is not the one that was
checked. It meets its policy all the same, because tidying brings in no character that was not there before, and it is
trimmed and tidy, so that setting it once more stores it once more.
-/

namespace BugReport

open Parameter (kind? policy? storedForm tidyCommas validate)
open Text (isBlank trim trimLeft trimRight)

/-! ## Tidy lists -/

/-- Whether no blank stands beside a comma. -/
def CommasClose (cs : List Char) : Prop :=
  cs.IsChain fun c d => (d = ',' → isBlank c = false) ∧ (c = ',' → isBlank d = false)

section

variable {cs first rest : List Char}

theorem commasClose_of_not_mem (h : ',' ∉ cs) : CommasClose cs := by
  apply List.Pairwise.isChain
  apply List.pairwise_of_forall_mem_list
  intro c hc d hd
  exact ⟨fun heq => absurd (heq ▸ hd) h, fun heq => absurd (heq ▸ hc) h⟩

theorem commasClose_cons_iff : CommasClose (first ++ ',' :: rest) ↔
    (CommasClose first ∧ ∀ c ∈ first.getLast?, isBlank c = false) ∧
      CommasClose rest ∧ ∀ c ∈ rest.head?, isBlank c = false := by
  have hcomma : isBlank ',' = false := by decide
  rw [CommasClose, List.isChain_append, List.isChain_cons]
  constructor
  · rintro ⟨hfirst, ⟨hhead, hrest⟩, hlast⟩
    exact ⟨⟨hfirst, fun c hc => (hlast c hc ',' rfl).1 rfl⟩, hrest, fun c hc => (hhead c hc).2 rfl⟩
  · rintro ⟨⟨hfirst, hlast⟩, hrest, hhead⟩
    refine ⟨hfirst, ⟨fun c hc => ⟨fun _ => hcomma, fun _ => hhead c hc⟩, hrest⟩, ?_⟩
    intro c hc d hd
    obtain rfl : ',' = d := Option.some.inj hd
    exact ⟨fun _ => hlast c hc, fun _ => hcomma⟩

theorem commasClose_tidied (cs : List Char) : CommasClose (tidied cs) := by
  induction cs using entries_induction with
  | single cs hcs =>
      rw [tidied_single hcs]
      exact commasClose_of_not_mem (comma_not_mem_trim hcs)
  | cons first rest hfirst ih =>
      have hentry := (Text.trim_eq_self_iff.mp (Text.trim_trim first)).2
      have hlist := (Text.trim_eq_self_iff.mp (trim_tidied rest)).1
      rw [tidied_cons hfirst, commasClose_cons_iff]
      exact ⟨⟨commasClose_of_not_mem (comma_not_mem_trim hfirst), hentry⟩, ih, hlist⟩

/-- There is nothing to tidy in a list that is trimmed and has no blanks beside its commas. -/
theorem tidied_eq_self (htrim : trim cs = cs) (h : CommasClose cs) : tidied cs = cs := by
  induction cs using entries_induction with
  | single cs hcs => rw [tidied_single hcs, htrim]
  | cons first rest hfirst ih =>
      obtain ⟨⟨-, hlast⟩, hrest, hhead⟩ := commasClose_cons_iff.mp h
      have hleft := Text.trimLeft_trim (first ++ ',' :: rest)
      have hright := Text.trimRight_trim (first ++ ',' :: rest)
      rw [htrim] at hleft hright
      rw [Text.trimRight_append_cons _ _ (by decide)] at hright
      have hentry : trim first = first := by
        rw [trim, Text.trimLeft_of_append hleft, Text.trimRight_eq_self_iff.mpr hlast]
      have hlist : trim rest = rest := by
        rw [trim, Text.trimLeft_eq_self_iff.mpr hhead]
        exact (List.cons.inj (List.append_cancel_left hright)).2
      rw [tidied_cons hfirst, hentry, ih hlist hrest]

/-- The commas of a tidied list were there before. -/
theorem tidied_subset (cs : List Char) : tidied cs ⊆ cs := by
  induction cs using entries_induction with
  | single cs hcs =>
      rw [tidied_single hcs]
      exact Text.trim_subset cs
  | cons first rest hfirst ih =>
      rw [tidied_cons hfirst]
      refine List.append_subset.mpr ⟨?_, ?_⟩
      · exact List.Subset.trans (Text.trim_subset first) (List.subset_append_left _ _)
      · exact List.Subset.trans (List.cons_subset_cons _ ih) (List.subset_append_right _ _)

end

/-! ## Accepted values -/

namespace Parameter

variable {name raw value : String} {kind : Kind} {policy : Policy}

/-- Whether a text may be held for a parameter. -/
structure Holdable (name value : String) : Prop where
  known : (kind? name).isSome = true
  admitted : ∃ policy, policy? name = some policy ∧ policy.admits value.toList = true
  trimmed : Text.trimmed value = value
  tidy : ∀ kind, kind? name = some kind → kind.tidiesCommas = true → CommasClose value.toList

theorem validate_eq_ok (raw : String) (hpolicy : policy? name = some policy)
    (h : policy.admits (Text.trimmed raw).toList = true) : validate name raw = .ok (Text.trimmed raw) := by
  simp only [validate, hpolicy, h, if_true]

theorem exists_policy_of_validate (h : validate name raw = .ok value) :
    ∃ policy, policy? name = some policy ∧ policy.admits value.toList = true := by
  have heq := eq_trimmed_of_validate h
  unfold validate at h
  dsimp only at h
  split at h
  · cases h
  next policy hpolicy =>
      split at h
      next hadmits =>
          rw [← heq] at hadmits
          exact ⟨policy, hpolicy, hadmits⟩
      · cases h

theorem isSome_kind?_of_policy? (h : policy? name = some policy) : (kind? name).isSome = true := by
  unfold policy? at h
  split at h
  next hdebug =>
      rw [eq_of_beq hdebug]
      decide
  · obtain ⟨kind, hkind, -⟩ := Option.map_eq_some_iff.mp h
    rw [hkind]
    rfl

theorem ne_debug_of_tidiesCommas (hkind : kind? name = some kind) (htidies : kind.tidiesCommas = true) :
    name ≠ "debug" := by
  refine ne_debug_of_kind? hkind ?_
  rintro rfl
  cases htidies

/-- Lists are checked character by character. -/
theorem policy_of_tidiesCommas (hkind : kind? name = some kind) (htidies : kind.tidiesCommas = true)
    (hpolicy : policy? name = some policy) : policy ≠ .level := by
  rw [policy?_of_ne_debug hkind (ne_debug_of_tidiesCommas hkind htidies)] at hpolicy
  cases hpolicy
  exact kind.policy_ne_level

theorem admits_tidied {cs : List Char} (hlevel : policy ≠ .level) (h : policy.admits cs = true) :
    policy.admits (tidied cs) = true := by
  simp only [Policy.admits, Bool.and_eq_true, List.all_eq_true, Bool.or_eq_true, bne_iff_ne] at h ⊢
  exact ⟨fun c hc => h.1 c (tidied_subset cs hc), .inl hlevel⟩

/-- What is stored for an accepted value may be held. -/
theorem holdable_storedForm (h : validate name raw = .ok value) : Holdable name (storedForm name value) := by
  have htrimmed : Text.trimmed value = value := by
    rw [eq_trimmed_of_validate h, Text.trimmed_trimmed]
  obtain ⟨policy, hpolicy, hadmits⟩ := exists_policy_of_validate h
  have hknown := isSome_kind?_of_policy? hpolicy
  obtain ⟨kind, hkind⟩ := Option.isSome_iff_exists.mp hknown
  simp only [storedForm, hkind]
  split
  next htidies =>
      refine ⟨hknown, ⟨policy, hpolicy, ?_⟩, ?_, ?_⟩
      · rw [toList_tidyCommas]
        exact admits_tidied (policy_of_tidiesCommas hkind htidies hpolicy) hadmits
      · rw [← String.toList_inj, Text.trimmed, String.toList_ofList, toList_tidyCommas, trim_tidied]
      · intro _ _ _
        rw [toList_tidyCommas]
        exact commasClose_tidied _
  next htidies =>
      refine ⟨hknown, ⟨policy, hpolicy, hadmits⟩, htrimmed, ?_⟩
      intro other hother hcommas
      rw [hkind] at hother
      cases hother
      exact absurd hcommas htidies

namespace Holdable

/-- A text that may be held is stored as it is. -/
theorem storedForm_eq (h : Holdable name value) : storedForm name value = value := by
  unfold storedForm
  split
  next kind hkind =>
      split
      next htidies =>
          rw [← String.toList_inj, toList_tidyCommas]
          apply tidied_eq_self _ (h.tidy kind hkind htidies)
          have htrimmed := congrArg String.toList h.trimmed
          rwa [Text.trimmed, String.toList_ofList] at htrimmed
      · rfl
  · rfl

theorem set_eq_ok (h : Holdable name value) (s : Store) :
    s.set name value = .ok { s with explicit := s.explicit.set name value } := by
  obtain ⟨policy, hpolicy, hadmits⟩ := h.admitted
  have hvalid : validate name value = .ok value := by
    have hok := validate_eq_ok value hpolicy
    rw [h.trimmed] at hok
    exact hok hadmits
  simp only [Store.set, hvalid, h.storedForm_eq]

end Holdable

end Parameter

/-! ## Stores -/

namespace Store

open Parameter (Holdable)

variable {s s' : Store} {name raw value line : String} {told : Diagnostic}

/-- Whether all that is set explicitly may be held. -/
def Sound (s : Store) : Prop :=
  ∀ name value, s.explicit name = some value → Holdable name value

theorem Sound.set (h : s.Sound) (hset : s.set name raw = .ok s') : s'.Sound := by
  unfold Store.set at hset
  split at hset
  next accepted hvalid =>
      cases hset
      intro other value hvalue
      by_cases hother : other = name
      · have hstored : storedForm name accepted = value := by
          simpa [Parameter.Assignment.set, hother] using hvalue
        rw [hother, ← hstored]
        exact Parameter.holdable_storedForm hvalid
      · apply h other value
        simpa [Parameter.Assignment.set, hother] using hvalue
  · cases hset

theorem explicit_settleSort (s : Store) : s.settleSort.explicit = s.explicit := by
  unfold settleSort
  split
  · rfl
  · dsimp only
    split <;> rfl

theorem Reachable.sound (h : s.Reachable) : s.Sound := by
  induction h with
  | empty => exact fun _ _ hvalue => absurd hvalue nofun
  | set _ hset ih => exact ih.set hset
  | infer name value _ ih =>
      unfold Store.infer
      split <;> exact ih
  | settleSort _ ih =>
      intro name value hvalue
      rw [explicit_settleSort] at hvalue
      exact ih name value hvalue
  | settleOrder _ ih => exact ih
  | settleGroup _ ih => exact ih
  | settleGroupOrder _ ih => exact ih

/-- Whatever was written and read before, what a store holds explicitly is a parameter of the schema with a text that
is trimmed, tidy and admitted, and setting it once more stores it once more. A value that is refused leaves the whole
store as it was. Lines are told about one by one, exactly those whose value is refused. -/
theorem explicit_after (operations : List Operation) :
    (∀ name value, (after operations).explicit name = some value → Holdable name value ∧
      ∀ s : Store, s.set name value = .ok { s with explicit := s.explicit.set name value }) ∧
    (∀ name raw told, (after operations).set name raw = .error told →
      (after operations).perform (.set name raw) = after operations) ∧
    ∀ lines, ((after operations).applyLines lines).2 = lines.filterMap refusal? ∧
      ∀ line told, refusal? line = some told ↔ Refused line told := by
  refine ⟨?_, ?_, ?_⟩
  · intro name value hvalue
    have hholdable := (reachable_after operations).sound name value hvalue
    exact ⟨hholdable, hholdable.set_eq_ok⟩
  · intro name raw told hset
    rw [perform, trySet, hset]
  · intro lines
    exact ⟨by rw [applyLines_eq], fun line told => refusal?_eq_some_iff⟩

/-- A list with blanks beside its comma, a refused value behind it, and two lines that set nothing. -/
theorem explicit_after_tidied :
    (after [.applyLines ["cc= ann ,\u00a0bob", "cc=x'y", "bogus=1", "noise"], .read .sort]).explicit "cc" =
      some "ann,bob" ∧ Holdable "cc" "ann,bob" := by
  have hvalue : (after [.applyLines ["cc= ann ,\u00a0bob", "cc=x'y", "bogus=1", "noise"],
      .read .sort]).explicit "cc" = some "ann,bob" := by decide +kernel
  exact ⟨hvalue, ((explicit_after _).1 "cc" "ann,bob" hvalue).1⟩

end Store

end BugReport
