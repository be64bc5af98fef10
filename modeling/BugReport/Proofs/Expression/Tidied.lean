import BugReport.Parameter.Store
import BugReport.Proofs.Expression.Words

/-! # Tidied lists

A list that is stored loses the blanks around its entries. As an expression it reads as before, unless an entry
behind a comma starts with a blank that is none of those that a term may start with: this blank belongs to the
literal, and is lost with the others.
-/

namespace BugReport

open Text (isBlank trim trimLeft trimRight)

variable {c : Char} {cs first rest : List Char} {s : String}

/-! ## Terms -/

namespace Term

theorem isBlank_of_isLeadingBlank (h : isLeadingBlank c = true) : isBlank c = true := by
  simp only [isLeadingBlank, Bool.or_eq_true, beq_iff_eq] at h
  rcases h with ((rfl | rfl) | rfl) | rfl
  · decide
  · decide
  · decide
  · decide

/-- Whether the blanks at the start of an entry are blanks that a term may start with. -/
def LeadsPlainly (cs : List Char) : Prop :=
  ∀ c ∈ cs.takeWhile isBlank, isLeadingBlank c = true

instance (cs : List Char) : Decidable (LeadsPlainly cs) :=
  List.decidableBAll (fun c => isLeadingBlank c = true) (cs.takeWhile isBlank)

theorem takeSign_of_not_sign (hc : c ∉ ['!', '<', '>']) (cs : List Char) :
    takeSign (c :: cs) = (.equals, c :: cs) := by
  unfold takeSign
  split
  next heq => exact absurd (List.cons.inj heq).1 fun h => hc (by simp [h])
  next heq => exact absurd (List.cons.inj heq).1 fun h => hc (by simp [h])
  next heq => exact absurd (List.cons.inj heq).1 fun h => hc (by simp [h])
  · rfl

theorem takeSign_trimRight (cs : List Char) :
    takeSign (trimRight cs) = ((takeSign cs).1, trimRight (takeSign cs).2) := by
  cases cs with
  | nil => rfl
  | cons c cs =>
      by_cases hsign : c ∈ ['!', '<', '>']
      · have hblank : isBlank c = false := by
          simp only [List.mem_cons, List.not_mem_nil, or_false] at hsign
          rcases hsign with rfl | rfl | rfl
          · decide
          · decide
          · decide
        rw [Text.trimRight_cons_of_not_blank hblank]
        simp only [List.mem_cons, List.not_mem_nil, or_false] at hsign
        rcases hsign with rfl | rfl | rfl
        · rfl
        · rfl
        · rfl
      · rw [takeSign_of_not_sign hsign]
        by_cases hblank : isBlank c = true
        · rw [Text.trimRight_blank_cons hblank]
          split
          · rfl
          · exact takeSign_of_not_sign hsign _
        · rw [Text.trimRight_cons_of_not_blank (by simpa using hblank), takeSign_of_not_sign hsign]

theorem ofList_trimRight (cs : List Char) : ofList (trimRight cs) = ofList cs := by
  have hlead := Text.dropWhile_trimRight (fun _ => isBlank_of_isLeadingBlank) cs
  have hpercent : (trimRight cs).contains '%' = cs.contains '%' := by
    rw [Bool.eq_iff_iff, List.contains_iff_mem, List.contains_iff_mem]
    exact Text.mem_trimRight (by decide)
  simp only [ofList, hlead, takeSign_trimRight, Text.trimRight_trimRight, hpercent]

theorem dropWhile_isLeadingBlank (h : LeadsPlainly cs) : cs.dropWhile isLeadingBlank = trimLeft cs := by
  induction cs with
  | nil => rfl
  | cons c cs ih =>
      cases hblank : isBlank c with
      | true =>
          rw [LeadsPlainly, List.takeWhile_cons_of_pos hblank, List.forall_mem_cons] at h
          rw [List.dropWhile_cons_of_pos h.1, ih h.2, Text.trimLeft_blank_cons hblank]
      | false =>
          have hlead : ¬ isLeadingBlank c = true := by
            intro hlead
            rw [isBlank_of_isLeadingBlank hlead] at hblank
            cases hblank
          rw [List.dropWhile_cons_of_neg hlead, Text.trimLeft_cons_of_not_blank hblank]

theorem leadsPlainly_of_trimLeft (h : trimLeft cs = cs) : LeadsPlainly cs := by
  cases cs with
  | nil => exact fun c hc => absurd hc List.not_mem_nil
  | cons c cs =>
      have hblank := Text.not_blank_of_trimLeft h
      rw [LeadsPlainly, List.takeWhile_cons_of_neg (by simp [hblank])]
      exact fun c hc => absurd hc List.not_mem_nil

theorem LeadsPlainly.of_append (h : LeadsPlainly (first ++ rest)) : LeadsPlainly first := by
  intro c hc
  apply h
  rw [List.takeWhile_append]
  split
  · exact List.mem_append_left _ ((List.takeWhile_sublist isBlank).subset hc)
  · exact hc

theorem ofList_trimLeft (h : LeadsPlainly cs) : ofList (trimLeft cs) = ofList cs := by
  have hpercent : (trimLeft cs).contains '%' = cs.contains '%' := by
    rw [Bool.eq_iff_iff, List.contains_iff_mem, List.contains_iff_mem]
    exact Text.mem_trimLeft (by decide)
  simp only [ofList, dropWhile_isLeadingBlank h, hpercent, Text.trimLeft_trimLeft,
    dropWhile_isLeadingBlank (leadsPlainly_of_trimLeft (Text.trimLeft_trimLeft cs))]

theorem ofList_trim (h : LeadsPlainly cs) : ofList (trim cs) = ofList cs := by
  rw [trim, ofList_trimRight, ofList_trimLeft h]

end Term

/-! ## Entries -/

/-- A list of entries, each without blanks at its ends. -/
def tidied (cs : List Char) : List Char :=
  [','].intercalate ((cs.splitOn ',').map trim)

theorem toList_tidyCommas (value : String) :
    (Parameter.tidyCommas value).toList = tidied value.toList := by
  simp only [Parameter.tidyCommas, String.toList_intercalate, Text.parts, List.map_map]
  have htrimmed : String.toList ∘ Text.trimmed ∘ String.ofList = trim := by
    funext part
    simp [Text.trimmed]
  rw [htrimmed]
  rfl

/-- A list is a single entry, or an entry in front of a list. -/
theorem entries_induction {motive : List Char → Prop} (single : ∀ cs, ',' ∉ cs → motive cs)
    (cons : ∀ first rest, ',' ∉ first → motive rest → motive (first ++ ',' :: rest)) (cs : List Char) :
    motive cs := by
  induction hlength : cs.length using Nat.strongRecOn generalizing cs with
  | ind n ih =>
      by_cases hcomma : ',' ∈ cs
      · obtain ⟨first, rest, rfl, hfirst⟩ := List.eq_append_cons_of_mem hcomma
        refine cons first rest hfirst (ih rest.length ?_ rest rfl)
        rw [← hlength, List.length_append, List.length_cons]
        omega
      · exact single cs hcomma

theorem splitOn_cons (h : ',' ∉ first) (rest : List Char) :
    (first ++ ',' :: rest).splitOn ',' = first :: rest.splitOn ',' := by
  rw [List.splitOn_append_cons_self, List.splitOn_eq_singleton h, List.singleton_append]

theorem tidied_single (h : ',' ∉ cs) : tidied cs = trim cs := by
  simp [tidied, List.splitOn_eq_singleton h]

theorem tidied_cons (h : ',' ∉ first) (rest : List Char) :
    tidied (first ++ ',' :: rest) = trim first ++ ',' :: tidied rest := by
  obtain ⟨entry, entries, hentries⟩ := List.exists_cons_of_ne_nil (List.splitOn_ne_nil ',' rest)
  simp [tidied, splitOn_cons h, hentries, List.intercalate_cons_cons]

theorem comma_not_mem_trim (h : ',' ∉ cs) : ',' ∉ trim cs :=
  fun hmem => h (Text.trim_subset cs hmem)

theorem trim_tidied (cs : List Char) : trim (tidied cs) = tidied cs := by
  have hright : trimRight (tidied cs) = tidied cs := by
    induction cs using entries_induction with
    | single cs hcs => rw [tidied_single hcs, Text.trimRight_trim]
    | cons first rest hfirst ih =>
        rw [tidied_cons hfirst, Text.trimRight_append_cons _ _ (by decide), ih]
  have hleft : trimLeft (tidied cs) = tidied cs := by
    induction cs using entries_induction with
    | single cs hcs => rw [tidied_single hcs, Text.trimLeft_trim]
    | cons first rest hfirst _ =>
        rw [tidied_cons hfirst, Text.trimLeft_append_cons _ _ (by decide), Text.trimLeft_trim]
  rw [trim, hleft, hright]

section

variable {α : Type} {write : α → List Char} {xs : List α}

/-- What is read back one by one is read back from a list. -/
theorem map_splitOn_intercalate {read : List Char → α} (hne : xs ≠ []) (hcomma : ∀ x ∈ xs, ',' ∉ write x)
    (hread : ∀ x ∈ xs, read (write x) = x) : (([','].intercalate (xs.map write)).splitOn ',').map read = xs := by
  rw [List.splitOn_intercalate ',' (List.forall_mem_map.mpr hcomma) (by simpa using hne), List.map_map]
  exact (List.map_congr_left hread).trans (List.map_id' xs)

/-- Entries without blanks at their ends make a list without blanks at its ends. -/
theorem trim_intercalate (hcomma : ∀ x ∈ xs, ',' ∉ write x) (htrim : ∀ x ∈ xs, trim (write x) = write x) :
    trim ([','].intercalate (xs.map write)) = [','].intercalate (xs.map write) := by
  by_cases hne : xs = []
  · rw [hne]
    rfl
  · have htidied : tidied ([','].intercalate (xs.map write)) = [','].intercalate (xs.map write) := by
      rw [tidied, List.splitOn_intercalate ',' (List.forall_mem_map.mpr hcomma) (by simpa using hne), List.map_map]
      exact congrArg _ (List.map_congr_left htrim)
    rw [← htidied, trim_tidied]

end

theorem length_splitOn (cs : List Char) : (cs.splitOn ',').length = cs.count ',' + 1 := by
  induction cs using entries_induction with
  | single cs hcs => rw [List.splitOn_eq_singleton hcs, List.count_eq_zero_of_not_mem hcs, List.length_singleton]
  | cons first rest hfirst ih =>
      rw [splitOn_cons hfirst, List.length_cons, ih, List.count_append, List.count_cons_self,
        List.count_eq_zero_of_not_mem hfirst, Nat.zero_add]

/-! ## Expressions -/

namespace MatchExpr

theorem termsOf_single (h : ',' ∉ cs) : termsOf cs = [.ofList cs] := by
  rw [termsOf, List.splitOn_eq_singleton h, List.map_singleton]

theorem termsOf_cons (h : ',' ∉ first) (rest : List Char) :
    termsOf (first ++ ',' :: rest) = .ofList first :: termsOf rest := by
  rw [termsOf, splitOn_cons h, List.map_cons, termsOf]

/-- Whether the entries of a list lead plainly. -/
def EntriesLead (cs : List Char) : Prop :=
  ∀ entry ∈ cs.splitOn ',', Term.LeadsPlainly entry

theorem entriesLead_cons (h : ',' ∉ first) :
    EntriesLead (first ++ ',' :: rest) ↔ Term.LeadsPlainly first ∧ EntriesLead rest := by
  rw [EntriesLead, splitOn_cons h, List.forall_mem_cons, EntriesLead]

theorem termsOf_tidied (h : EntriesLead cs) : termsOf (tidied cs) = termsOf cs := by
  induction cs using entries_induction with
  | single cs hcs =>
      have hlead : Term.LeadsPlainly cs := h cs (by simp [List.splitOn_eq_singleton hcs])
      rw [tidied_single hcs, termsOf_single (comma_not_mem_trim hcs), termsOf_single hcs,
        Term.ofList_trim hlead]
  | cons first rest hfirst ih =>
      obtain ⟨hlead, hrest⟩ := (entriesLead_cons hfirst).mp h
      rw [tidied_cons hfirst, termsOf_cons (comma_not_mem_trim hfirst), termsOf_cons hfirst,
        Term.ofList_trim hlead, ih hrest]

theorem dropClosing_cons (first rest : List Char) :
    dropClosing (first ++ ',' :: rest) = first ++ ',' :: dropClosing rest := by
  cases rest with
  | nil => simp [dropClosing]
  | cons c rest =>
      have hlast : (first ++ ',' :: c :: rest).getLast? = (c :: rest).getLast? := by
        rw [List.getLast?_append_cons, List.getLast?_cons_cons]
      have hdrop : (first ++ ',' :: c :: rest).dropLast = first ++ ',' :: (c :: rest).dropLast := by
        simp
      simp only [dropClosing, hlast, hdrop]
      split
      · rfl
      · rfl

theorem dropClosing_subset (cs : List Char) : dropClosing cs ⊆ cs := by
  unfold dropClosing
  split
  · exact List.dropLast_subset cs
  · exact List.Subset.refl cs

theorem getLast?_trimLeft (h : cs.getLast? ≠ some ')') : (trimLeft cs).getLast? ≠ some ')' := by
  intro hclosed
  obtain ⟨body, hbody⟩ := List.getLast?_eq_some_iff.mp hclosed
  obtain ⟨blanks, hblanks⟩ := List.dropWhile_suffix isBlank (l := cs)
  rw [← trimLeft, hbody, ← List.append_assoc] at hblanks
  exact h (List.getLast?_eq_some_iff.mpr ⟨_, hblanks.symm⟩)

theorem ofList_dropClosing_trimLeft (h : Term.LeadsPlainly cs) :
    Term.ofList (dropClosing (trimLeft cs)) = Term.ofList (dropClosing cs) := by
  by_cases hlast : cs.getLast? = some ')'
  · obtain ⟨body, rfl⟩ := List.getLast?_eq_some_iff.mp hlast
    rw [Text.trimLeft_append_cons _ _ (by decide), dropClosing_append, dropClosing_append,
      Term.ofList_trimLeft h.of_append]
  · have hlast' := getLast?_trimLeft hlast
    simp only [dropClosing, beq_iff_eq, hlast, hlast', if_false]
    exact Term.ofList_trimLeft h

/-- The parenthesis at the end of a group is found behind the same entry. -/
theorem termsOf_dropClosing_tidied (htrim : trimRight cs = cs) (h : EntriesLead cs) :
    termsOf (dropClosing (tidied cs)) = termsOf (dropClosing cs) := by
  induction cs using entries_induction with
  | single cs hcs =>
      have hlead : Term.LeadsPlainly cs := h cs (by simp [List.splitOn_eq_singleton hcs])
      have htidied : tidied cs = trimLeft cs := by
        rw [tidied_single hcs, ← Text.trimLeft_trimRight, htrim]
      have hleft : ',' ∉ dropClosing (trimLeft cs) :=
        fun hmem => hcs (Text.trimLeft_subset cs (dropClosing_subset _ hmem))
      rw [htidied, termsOf_single hleft, termsOf_single fun hmem => hcs (dropClosing_subset cs hmem),
        ofList_dropClosing_trimLeft hlead]
  | cons first rest hfirst ih =>
      obtain ⟨hlead, hrest⟩ := (entriesLead_cons hfirst).mp h
      rw [Text.trimRight_append_cons _ _ (by decide)] at htrim
      have hright : trimRight rest = rest := (List.cons.inj (List.append_cancel_left htrim)).2
      rw [tidied_cons hfirst, dropClosing_cons, dropClosing_cons, termsOf_cons (comma_not_mem_trim hfirst),
        termsOf_cons hfirst, Term.ofList_trim hlead, ih hright hrest]

theorem not_group_append (h : ¬ ['!', '('] <+: first) (rest : List Char) :
    ¬ ['!', '('] <+: first ++ ',' :: rest := by
  intro hstart
  match first, h, hstart with
  | [], _, hstart => exact absurd (List.cons_prefix_cons.mp hstart).1 (by decide)
  | [c], _, hstart =>
      have hnext := (List.cons_prefix_cons.mp hstart).2
      exact absurd (List.cons_prefix_cons.mp hnext).1 (by decide)
  | c :: d :: first, h, hstart =>
      obtain ⟨hc, hnext⟩ := List.cons_prefix_cons.mp hstart
      obtain ⟨hd, -⟩ := List.cons_prefix_cons.mp hnext
      exact h (List.cons_prefix_cons.mpr ⟨hc, List.cons_prefix_cons.mpr ⟨hd, List.nil_prefix⟩⟩)

theorem ofTrimmed_tidied_group (hfirst : ',' ∉ first) (hright : trimRight rest = rest) (h : EntriesLead rest) :
    ofTrimmed (trimRight ('!' :: '(' :: first) ++ ',' :: tidied rest) =
      ofTrimmed ('!' :: '(' :: first ++ ',' :: rest) := by
  have hfirst' : ',' ∉ trimRight first := fun hmem => hfirst (Text.trimRight_subset first hmem)
  rw [Text.trimRight_cons_of_not_blank (by decide), Text.trimRight_cons_of_not_blank (by decide)]
  simp only [List.cons_append]
  rw [ofTrimmed_noneOf (by simp), ofTrimmed_noneOf (by simp), dropClosing_cons, dropClosing_cons,
    termsOf_cons hfirst', termsOf_cons hfirst, Term.ofList_trimRight, termsOf_dropClosing_tidied hright h]

theorem ofTrimmed_tidied_list (hgroup : ¬ ['!', '('] <+: first) (hfirst : ',' ∉ first) (h : EntriesLead rest) :
    ofTrimmed (trimRight first ++ ',' :: tidied rest) = ofTrimmed (first ++ ',' :: rest) := by
  have hfirst' : ',' ∉ trimRight first := fun hmem => hfirst (Text.trimRight_subset first hmem)
  have hgroup' : ¬ ['!', '('] <+: trimRight first :=
    fun hstart => hgroup (hstart.trans (Text.trimRight_isPrefix first))
  rw [ofTrimmed_anyOf (by simp) (not_group_append hgroup' _),
    ofTrimmed_anyOf (by simp) (not_group_append hgroup _), termsOf_cons hfirst', termsOf_cons hfirst,
    Term.ofList_trimRight, termsOf_tidied h]

/-- A value reads the same when it is stored as a list. -/
theorem parse_tidyCommas (h : ∀ entry ∈ ((trim s.toList).splitOn ',').tail, Term.LeadsPlainly entry) :
    parse (Parameter.tidyCommas (Text.trimmed s)) = parse s := by
  rw [parse, parse, toList_tidyCommas, Text.trimmed, String.toList_ofList, trim_tidied]
  have hleft := Text.trimLeft_trim s.toList
  have hright := Text.trimRight_trim s.toList
  generalize trim s.toList = cs at h hleft hright
  by_cases hcomma : ',' ∈ cs
  · obtain ⟨first, rest, rfl, hfirst⟩ := List.eq_append_cons_of_mem hcomma
    rw [splitOn_cons hfirst, List.tail_cons] at h
    rw [Text.trimRight_append_cons _ _ (by decide)] at hright
    have hrest : trimRight rest = rest := (List.cons.inj (List.append_cancel_left hright)).2
    have htrim : trim first = trimRight first := by
      rw [trim, Text.trimLeft_of_append hleft]
    rw [tidied_cons hfirst, htrim]
    by_cases hgroup : ['!', '('] <+: first
    · obtain ⟨inner, rfl⟩ := hgroup
      exact ofTrimmed_tidied_group (fun hmem => hfirst (List.mem_append_right _ hmem)) hrest h
    · exact ofTrimmed_tidied_list hgroup hfirst h
  · rw [tidied_single hcomma, trim, hleft, hright]

end MatchExpr

end BugReport
