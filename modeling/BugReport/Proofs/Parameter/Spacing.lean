import BugReport.Proofs.Parameter.Stored
import Mathlib.Data.List.TakeWhile

/-! # Blanks around commas

Tidying a list makes up for all blanks beside its commas. They only have to get that far: a value is checked before it
is tidied, and while the class of filters admits blanks, that of lists of columns does not.
-/

namespace BugReport

open Parameter (Kind Policy kind? tidyCommas)
open Text (isBlank trim trimLeft trimRight)

variable {c : Char} {cs ds blanks : List Char}

/-- A text, and the same text with blanks put in beside its commas. -/
inductive SpacedOut : List Char → List Char → Prop where
  | nil : SpacedOut [] []
  | char {c : Char} {cs ds : List Char} (hc : c ≠ ',') (h : SpacedOut cs ds) : SpacedOut (c :: cs) (c :: ds)
  | comma {before after cs ds : List Char} (hbefore : ∀ c ∈ before, isBlank c = true)
      (hafter : ∀ c ∈ after, isBlank c = true) (h : SpacedOut cs ds) :
      SpacedOut (',' :: cs) (before ++ ',' :: (after ++ ds))

/-! ## Tidied lists -/

theorem tidied_trimLeft (cs : List Char) : tidied (trimLeft cs) = tidied cs := by
  induction cs using entries_induction with
  | single cs hcs =>
      have hleft : ',' ∉ trimLeft cs := fun hmem => hcs (Text.trimLeft_subset cs hmem)
      rw [tidied_single hleft, tidied_single hcs, Text.trim_trimLeft]
  | cons first rest hfirst _ =>
      have hleft : ',' ∉ trimLeft first := fun hmem => hfirst (Text.trimLeft_subset first hmem)
      rw [Text.trimLeft_append_cons _ _ (by decide), tidied_cons hleft, tidied_cons hfirst, Text.trim_trimLeft]

theorem tidied_trimRight (cs : List Char) : tidied (trimRight cs) = tidied cs := by
  induction cs using entries_induction with
  | single cs hcs =>
      have hright : ',' ∉ trimRight cs := fun hmem => hcs (Text.trimRight_subset cs hmem)
      rw [tidied_single hright, tidied_single hcs, Text.trim_trimRight]
  | cons first rest hfirst ih =>
      rw [Text.trimRight_append_cons _ _ (by decide), tidied_cons hfirst, tidied_cons hfirst, ih]

theorem tidied_trim (cs : List Char) : tidied (trim cs) = tidied cs := by
  rw [trim, tidied_trimRight, tidied_trimLeft]

theorem tidied_blanks_append (hblank : ∀ c ∈ blanks, isBlank c = true) (cs : List Char) :
    tidied (blanks ++ cs) = tidied cs := by
  rw [← tidied_trimLeft, Text.trimLeft_blanks_append hblank, tidied_trimLeft]

/-- The characters of a text that are no blanks. -/
def unblanked (cs : List Char) : List Char :=
  cs.filter fun c => !isBlank c

theorem unblanked_append (cs ds : List Char) : unblanked (cs ++ ds) = unblanked cs ++ unblanked ds :=
  List.filter_append cs ds

theorem unblanked_reverse (cs : List Char) : unblanked cs.reverse = (unblanked cs).reverse :=
  List.filter_reverse

theorem unblanked_blanks (hblank : ∀ c ∈ blanks, isBlank c = true) : unblanked blanks = [] :=
  List.filter_eq_nil_iff.mpr fun c hc => by simp [hblank c hc]

theorem unblanked_of_no_blank (h : ∀ c ∈ cs, isBlank c = false) : unblanked cs = cs :=
  List.filter_eq_self.mpr fun c hc => by simp [h c hc]

theorem mem_unblanked (hc : isBlank c = false) : c ∈ unblanked cs ↔ c ∈ cs := by
  simp [unblanked, hc]

theorem unblanked_trimLeft (cs : List Char) : unblanked (trimLeft cs) = unblanked cs := by
  have hdropped : unblanked (cs.takeWhile isBlank) = [] :=
    unblanked_blanks fun c hc => List.mem_takeWhile_imp hc
  have hsplit := congrArg unblanked (List.takeWhile_append_dropWhile (p := isBlank) (l := cs))
  rwa [unblanked_append, hdropped, List.nil_append] at hsplit

theorem unblanked_trim (cs : List Char) : unblanked (trim cs) = unblanked cs := by
  rw [trim, trimRight, unblanked_reverse, ← trimLeft, unblanked_trimLeft, unblanked_reverse, List.reverse_reverse,
    unblanked_trimLeft]

namespace SpacedOut

theorem refl (cs : List Char) : SpacedOut cs cs := by
  have hnone : ∀ c ∈ ([] : List Char), isBlank c = true := nofun
  induction cs with
  | nil => exact .nil
  | cons c cs ih =>
      by_cases hc : c = ','
      · subst hc
        exact .comma hnone hnone ih
      · exact .char hc ih

/-- The induction is on what stands behind the last comma that was passed: blanks that come in there count as the
front of the next entry. -/
theorem tidied_append (h : SpacedOut cs ds) :
    ∀ front : List Char, ',' ∉ front → tidied (front ++ ds) = tidied (front ++ cs) := by
  induction h with
  | nil => exact fun _ _ => rfl
  | @char c cs ds hc _ ih =>
      intro front hfront
      rw [List.append_cons, List.append_cons front c cs]
      exact ih (front ++ [c]) (by simp [hfront, hc.symm])
  | @comma before after cs ds hbefore hafter _ ih =>
      intro front hfront
      have hfirst : ',' ∉ front ++ before :=
        List.not_mem_append hfront (Text.not_mem_blanks hbefore (by decide))
      rw [← List.append_assoc, tidied_cons hfirst, tidied_cons hfront, Text.trim_append_blanks front hbefore,
        ih after (Text.not_mem_blanks hafter (by decide)), tidied_blanks_append hafter]

theorem tidied_eq (h : SpacedOut cs ds) : tidied ds = tidied cs :=
  h.tidied_append [] List.not_mem_nil

theorem unblanked_eq (h : SpacedOut cs ds) : unblanked ds = unblanked cs := by
  induction h with
  | nil => rfl
  | @char c cs ds _ _ ih =>
      rw [← List.singleton_append, unblanked_append, ih, ← unblanked_append, List.singleton_append]
  | @comma before after cs ds hbefore hafter _ ih =>
      have hblanks : unblanked (before ++ [','] ++ after) = [','] := by
        rw [unblanked_append, unblanked_append, unblanked_blanks hbefore, unblanked_blanks hafter]
        rfl
      have hsplit : before ++ ',' :: (after ++ ds) = (before ++ [','] ++ after) ++ ds := by simp
      rw [hsplit, unblanked_append, hblanks, ih]
      rfl

/-- Other characters than blanks are the same inside of both texts. -/
theorem mem_trim_iff (h : SpacedOut cs ds) (hc : isBlank c = false) : c ∈ trim ds ↔ c ∈ trim cs := by
  rw [← mem_unblanked hc, unblanked_trim, h.unblanked_eq, ← unblanked_trim, mem_unblanked hc]

/-- Texts without blanks inside differ at most in the blanks at their ends. -/
theorem trim_eq (h : SpacedOut cs ds) (hcs : ∀ c ∈ trim cs, isBlank c = false)
    (hds : ∀ c ∈ trim ds, isBlank c = false) : trim ds = trim cs := by
  rw [← unblanked_of_no_blank hds, unblanked_trim, h.unblanked_eq, ← unblanked_trim, unblanked_of_no_blank hcs]

end SpacedOut

/-! ## Accepted values -/

section

variable {s s' : Store} {name value spaced : String} {kind : Kind}

namespace Parameter

theorem Kind.eq_field_or_columns (h : kind.tidiesCommas = true) : kind = .field ∨ kind = .columns := by
  cases kind with
  | field => exact .inl rfl
  | columns => exact .inr rfl
  | _ => cases h

/-- The class of filters has all blanks. -/
theorem Kind.Admits.of_spacedOut_field (h : Kind.field.Admits value)
    (hspaced : SpacedOut value.toList spaced.toList) : Kind.field.Admits spaced := by
  intro c hc
  cases hblank : isBlank c with
  | true => simp [Kind.policy, Policy.admitsChar, hblank]
  | false => exact h c ((hspaced.mem_trim_iff hblank).mp hc)

/-- The class of lists of columns has no blank. -/
theorem Kind.not_blank_of_columns (hc : Kind.columns.policy.admitsChar c = true) : isBlank c = false := by
  have hinside : 43 ≤ c.toNat ∧ c.toNat ≤ 126 := by
    simp only [Kind.policy, Policy.admitsChar, Bool.or_eq_true, beq_iff_eq] at hc
    rcases hc with (hword | rfl) | hspan
    · have hplain := toNat_of_isPlainChar (c := c) (by simp [isPlainChar, hword])
      omega
    · decide
    · simpa [inSpan] using hspan
  simp only [isBlank, Bool.or_eq_false_iff, Bool.and_eq_false_iff, decide_eq_false_iff_not, beq_eq_false_iff_ne]
  omega

theorem Kind.Admits.of_spacedOut_columns_iff (h : Kind.columns.Admits value)
    (hspaced : SpacedOut value.toList spaced.toList) :
    Kind.columns.Admits spaced ↔ Text.trimmed spaced = Text.trimmed value := by
  constructor
  · intro hadmits
    exact congrArg String.ofList (hspaced.trim_eq (fun c hc => not_blank_of_columns (h c hc))
      fun c hc => not_blank_of_columns (hadmits c hc))
  · intro htrimmed
    rw [Kind.Admits, Text.trim_eq_of_trimmed_eq htrimmed]
    exact h

/-- Lists that differ in the blanks beside their commas are stored as one text. -/
theorem tidyCommas_of_spacedOut (h : SpacedOut value.toList spaced.toList) :
    tidyCommas (Text.trimmed spaced) = tidyCommas (Text.trimmed value) := by
  rw [← String.toList_inj, toList_tidyCommas, toList_tidyCommas, Text.trimmed, Text.trimmed, String.toList_ofList,
    String.toList_ofList, tidied_trim, tidied_trim, h.tidied_eq]

end Parameter

namespace Store

theorem set_of_tidiesCommas (hkind : kind? name = some kind) (htidies : kind.tidiesCommas = true) (s : Store)
    (raw : String) : s.set name raw =
      if kind.Admits raw then .ok { s with explicit := s.explicit.set name (tidyCommas (Text.trimmed raw)) }
      else .error (.invalidParameter name (Text.trimmed raw) kind.policy.pattern) := by
  rw [set, Parameter.validate_of_ne_debug hkind (Parameter.ne_debug_of_tidiesCommas hkind htidies)]
  by_cases hadmits : kind.Admits raw
  · simp only [hadmits, if_true, Parameter.storedForm, hkind, htidies]
  · simp only [hadmits, if_false]

/-- An accepted list with blanks beside its commas is stored as the list without them if it is a filter. A list of
columns is refused with them, unless they are trimmed from its ends. -/
theorem set_spaced (hkind : kind? name = some kind) (htidies : kind.tidiesCommas = true)
    (hset : s.set name value = .ok s') (hspaced : SpacedOut value.toList spaced.toList) :
    s.set name spaced = if kind = .field ∨ Text.trimmed spaced = Text.trimmed value then .ok s'
      else .error (.invalidParameter name (Text.trimmed spaced) kind.policy.pattern) := by
  rw [set_of_tidiesCommas hkind htidies] at hset
  split at hset
  next hvalue =>
      cases hset
      have hadmits : kind.Admits spaced ↔ kind = .field ∨ Text.trimmed spaced = Text.trimmed value := by
        rcases Kind.eq_field_or_columns htidies with rfl | rfl
        · simp [hvalue.of_spacedOut_field hspaced]
        · simp [hvalue.of_spacedOut_columns_iff hspaced]
      rw [set_of_tidiesCommas hkind htidies, Parameter.tidyCommas_of_spacedOut hspaced]
      exact if_congr hadmits rfl rfl
  · cases hset

/-- Names with blanks on both sides of their comma. -/
theorem set_spaced_names : ∃ s', empty.set "cc" "ann,bob" = .ok s' ∧
    SpacedOut "ann,bob".toList "ann ,\u00a0bob".toList ∧ empty.set "cc" "ann ,\u00a0bob" = .ok s' := by
  have hkind : kind? "cc" = some .field := by decide
  have hset : empty.set "cc" "ann,bob" =
      .ok { empty with explicit := empty.explicit.set "cc" (tidyCommas (Text.trimmed "ann,bob")) } := by
    rw [set_of_tidiesCommas hkind rfl]
    exact if_pos (by decide)
  have hspaced : SpacedOut "ann,bob".toList "ann ,\u00a0bob".toList := by
    have hbefore : ∀ c ∈ [' '], isBlank c = true := List.forall_mem_singleton.mpr (by decide)
    have hafter : ∀ c ∈ ['\u00a0'], isBlank c = true := List.forall_mem_singleton.mpr (by decide)
    have hcomma := SpacedOut.comma hbefore hafter (.refl ['b', 'o', 'b'])
    exact .char (by decide) (.char (by decide) (.char (by decide) hcomma))
  refine ⟨_, hset, hspaced, ?_⟩
  rw [set_spaced hkind rfl hset hspaced]
  exact if_pos (.inl rfl)

/-- A list of columns is accepted, and refused with a blank behind its comma. -/
theorem columns_refused_with_blank : kind? "columns" = some .columns ∧ Kind.columns.tidiesCommas = true ∧
    SpacedOut "id,summary".toList "id, summary".toList ∧ (∃ s', empty.set "columns" "id,summary" = .ok s') ∧
    empty.set "columns" "id, summary" =
      .error (.invalidParameter "columns" "id, summary" "^[A-Za-z0-9_,+-~]*$") := by
  have hkind : kind? "columns" = some .columns := by decide
  refine ⟨hkind, rfl, ?_, ?_, ?_⟩
  · have hbefore : ∀ c ∈ ([] : List Char), isBlank c = true := nofun
    have hafter : ∀ c ∈ [' '], isBlank c = true := List.forall_mem_singleton.mpr (by decide)
    have hcomma := SpacedOut.comma hbefore hafter (.refl "summary".toList)
    exact .char (by decide) (.char (by decide) hcomma)
  · rw [set_of_tidiesCommas hkind rfl]
    exact ⟨_, if_pos (by decide)⟩
  · rw [set_of_tidiesCommas hkind rfl]
    exact if_neg (by decide)

end Store

end

end BugReport
