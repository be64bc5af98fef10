import BugReport.Parameter.Store
import BugReport.Proofs.Text.Parts
import Mathlib.Data.List.Nodup

/-! # Lines of parameters

Lines are applied one after the other, but nothing of a line depends on those before it. A line assigns a
text to a parameter, is refused, or says nothing. So lines come to the last text that they assign to each
parameter, and to what is told about those that are refused.
-/

namespace BugReport

open Parameter (storedForm validate)

/-- Entries under distinct keys are looked up alike in any order. -/
theorem lookup_eq_of_perm {β : Type} {entries entries' : List (String × β)} (hperm : entries.Perm entries')
    (hnodup : (entries.map Prod.fst).Nodup) (name : String) :
    entries.lookup name = entries'.lookup name := by
  induction hperm with
  | nil => rfl
  | cons entry _ ih =>
      obtain ⟨key, value⟩ := entry
      rw [List.lookup_cons, List.lookup_cons, ih (List.nodup_cons.mp hnodup).2]
  | swap first second rest =>
      obtain ⟨key, value⟩ := first
      obtain ⟨key', value'⟩ := second
      have hne : key' ≠ key := fun heq => (List.nodup_cons.mp hnodup).1 (heq ▸ List.mem_cons_self)
      simp only [List.lookup_cons]
      -- Only one of the two keys can be the one that is looked up.
      cases hkey : name == key with
      | false => rfl
      | true =>
          have hother : (name == key') = false := by
            rw [eq_of_beq hkey]
            exact beq_eq_false_iff_ne.mpr (Ne.symm hne)
          rw [hother]
  | trans hfirst _ ih ih' => exact (ih hnodup).trans (ih' ((hfirst.map Prod.fst).nodup_iff.mp hnodup))

namespace Store

variable {s : Store} {line name : String} {lines lines' : List String}

/-! ## What a line says -/

/-- The parameter that an accepted line sets, with the text that is stored for it. -/
def assignment? (line : String) : Option (String × String) :=
  (Text.cut '=' line).bind fun (name, value) =>
    match validate (Text.trimmed name) value with
    | .ok accepted => some (Text.trimmed name, storedForm (Text.trimmed name) accepted)
    | .error _ => none

/-- What is told about a line that is refused. -/
def refusal? (line : String) : Option Diagnostic :=
  (Text.cut '=' line).bind fun (name, value) =>
    match validate (Text.trimmed name) value with
    | .ok _ => none
    | .error told => some told

/-- The last text that lines assign to a parameter. -/
def lastValue? (lines : List String) (name : String) : Option String :=
  (lines.filterMap assignment?).reverse.lookup name

theorem lastValue?_cons (line : String) (lines : List String) (name : String) :
    lastValue? (line :: lines) name = (lastValue? lines name <|> lastValue? [line] name) := by
  simp only [lastValue?, List.filterMap_cons, List.filterMap_nil]
  cases assignment? line with
  | none => simp
  | some entry => simp [List.lookup_append]

theorem lastValue?_eq_none (h : ∀ entry ∈ lines.filterMap assignment?, entry.1 ≠ name) :
    lastValue? lines name = none := by
  rw [lastValue?, List.lookup_eq_none_iff]
  intro entry hentry
  rw [bne_iff_ne]
  exact (h entry (List.mem_reverse.mp hentry)).symm

/-- Whether a line gives a value to a parameter: they stand before and behind the first equals sign. -/
def Gives (line name raw : String) : Prop :=
  ∃ key : String, line.toList = key.toList ++ '=' :: raw.toList ∧ '=' ∉ key.toList ∧ Text.trimmed key = name

/-- Whether a line is accepted, so that a text is stored for a parameter. -/
def Stores (line name value : String) : Prop :=
  ∃ raw, Gives line name raw ∧ ∀ s : Store, ∃ s', s.set name raw = .ok s' ∧ s'.explicit name = some value

/-- Whether a line gives a value that is refused. -/
def Refused (line : String) (told : Diagnostic) : Prop :=
  ∃ name raw, Gives line name raw ∧ ∀ s : Store, s.set name raw = .error told

theorem gives_iff {raw : String} : Gives line name raw ↔
    ∃ key, Text.cut '=' line = some (key, raw) ∧ Text.trimmed key = name := by
  simp only [Gives, Text.cut_eq_some_iff, and_assoc]

theorem refusal?_eq_some_iff {told : Diagnostic} : refusal? line = some told ↔ Refused line told := by
  simp only [Refused, gives_iff, refusal?, Option.bind_eq_some_iff]
  constructor
  · rintro ⟨⟨key, raw⟩, hcut, htold⟩
    refine ⟨_, raw, ⟨key, hcut, rfl⟩, fun s => ?_⟩
    dsimp only at htold
    split at htold
    · cases htold
    next hvalid =>
        cases htold
        simp only [set, hvalid]
  · rintro ⟨_, raw, ⟨key, hcut, rfl⟩, hset⟩
    refine ⟨(key, raw), hcut, ?_⟩
    have hrefused := hset .empty
    unfold set at hrefused
    split at hrefused
    · cases hrefused
    next hvalid =>
        cases hrefused
        simp only [hvalid]

theorem assignment?_eq_some_iff {value : String} :
    assignment? line = some (name, value) ↔ Stores line name value := by
  simp only [Stores, gives_iff, assignment?, Option.bind_eq_some_iff]
  constructor
  · rintro ⟨⟨key, raw⟩, hcut, hstored⟩
    dsimp only at hstored
    split at hstored
    next hvalid =>
        cases hstored
        refine ⟨raw, ⟨key, hcut, rfl⟩, fun s => ?_⟩
        simp only [set, hvalid]
        exact ⟨_, rfl, by simp [Parameter.Assignment.set]⟩
    · cases hstored
  · rintro ⟨raw, ⟨key, hcut, rfl⟩, hset⟩
    refine ⟨(key, raw), hcut, ?_⟩
    obtain ⟨s', hs, hvalue⟩ := hset .empty
    unfold set at hs
    split at hs
    next accepted hvalid =>
        cases hs
        have hstored : storedForm (Text.trimmed key) accepted = value := by
          simpa [Parameter.Assignment.set] using hvalue
        simp only [hvalid, hstored]
    · cases hs

/-! ## What lines come to -/

theorem applyLine_eq (s : Store) (line : String) :
    s.applyLine line = ({ s with explicit := fun name => lastValue? [line] name <|> s.explicit name },
      (refusal? line).toList) := by
  unfold applyLine lastValue? refusal? trySet set
  simp only [List.filterMap_cons, List.filterMap_nil, assignment?]
  cases Text.cut '=' line with
  | none => simp
  | some entry =>
      obtain ⟨name, value⟩ := entry
      dsimp only [Option.bind_some]
      cases validate (Text.trimmed name) value with
      | error told => simp
      | ok accepted =>
          simp only [List.reverse_singleton, Option.toList_none, Prod.mk.injEq, and_true]
          congr 1
          funext other
          simp only [Parameter.Assignment.set, List.lookup_cons, List.lookup_nil]
          cases other == Text.trimmed name with
          | true => rfl
          | false => rfl

theorem applyLines_eq (s : Store) (lines : List String) :
    s.applyLines lines = ({ s with explicit := fun name => lastValue? lines name <|> s.explicit name },
      lines.filterMap refusal?) := by
  -- The rest is applied to the store that the first line leads to, so the induction is for every store.
  induction lines generalizing s with
  | nil => rfl
  | cons line lines ih =>
      have hvalue (name : String) : (lastValue? (line :: lines) name <|> s.explicit name) =
          (lastValue? lines name <|> (lastValue? [line] name <|> s.explicit name)) := by
        rw [lastValue?_cons]
        cases lastValue? lines name with
        | none => rfl
        | some value => rfl
      simp only [applyLines, applyLine_eq, ih, List.filterMap_cons, hvalue]
      cases refusal? line with
      | none => rfl
      | some told => rfl

/-! ## Lists of lines that come to the same -/

/-- Whether two lists of lines assign the same last text to every parameter, and set the same ones. -/
def SameValues (lines lines' : List String) : Prop :=
  ∀ name, lastValue? lines name = lastValue? lines' name

/-- Only the parameters that the lines assign have to be looked at. -/
theorem sameValues_iff : SameValues lines lines' ↔
    ∀ entry ∈ lines.filterMap assignment? ++ lines'.filterMap assignment?,
      lastValue? lines entry.1 = lastValue? lines' entry.1 := by
  constructor
  · intro h entry _
    exact h entry.1
  · intro h name
    by_cases hname : ∃ entry ∈ lines.filterMap assignment? ++ lines'.filterMap assignment?, entry.1 = name
    · obtain ⟨entry, hentry, rfl⟩ := hname
      exact h entry hentry
    · have hother : ∀ entry ∈ lines.filterMap assignment? ++ lines'.filterMap assignment?,
          entry.1 ≠ name := fun entry hentry heq => hname ⟨entry, hentry, heq⟩
      rw [lastValue?_eq_none fun entry hentry => hother entry (List.mem_append_left _ hentry),
        lastValue?_eq_none fun entry hentry => hother entry (List.mem_append_right _ hentry)]

instance (lines lines' : List String) : Decidable (SameValues lines lines') :=
  decidable_of_iff _ sameValues_iff.symm

/-- Lines that assign to distinct parameters may be put into any order. -/
theorem sameValues_of_perm (hperm : lines.Perm lines')
    (hnodup : ((lines.filterMap assignment?).map Prod.fst).Nodup) : SameValues lines lines' := by
  intro name
  have hassigned := hperm.filterMap assignment?
  have hreversed : ((lines.filterMap assignment?).reverse.map Prod.fst).Nodup := by
    rw [List.map_reverse, List.nodup_reverse]
    exact hnodup
  exact lookup_eq_of_perm
    ((List.reverse_perm _).trans (hassigned.trans (List.reverse_perm _).symm)) hreversed name

theorem applyLines_of_sameValues (h : SameValues lines lines') (s : Store) :
    (s.applyLines lines).1 = (s.applyLines lines').1 := by
  rw [applyLines_eq, applyLines_eq, funext h]

end Store

end BugReport
