import BugReport.Text.Blank
import Mathlib.Data.List.Basic

/-! # Trimming

Trimming from one side commutes with trimming from the other and leaves a text alone whose ends are no blanks.
-/

namespace BugReport.Text

variable {p : Char → Bool} {c : Char} {cs blanks : List Char}

theorem dropWhile_of_not (h : ∀ c ∈ cs, p c = false) : cs.dropWhile p = cs := by
  cases cs with
  | nil => rfl
  | cons c cs => rw [List.dropWhile_cons, h c List.mem_cons_self]; rfl

@[simp] theorem trimRight_nil : trimRight [] = [] := rfl

theorem trimRight_append_cons (front back : List Char) (hc : isBlank c = false) :
    trimRight (front ++ c :: back) = front ++ c :: trimRight back := by
  have hreverse : (front ++ c :: back).reverse = back.reverse ++ c :: front.reverse := by simp
  rw [trimRight, trimRight, hreverse, List.dropWhile_append]
  split
  next hempty =>
      have hnil : back.reverse.dropWhile isBlank = [] := by simpa using hempty
      rw [hnil, List.dropWhile_cons, hc]
      simp
  · simp

theorem trimRight_cons_of_not_blank (hc : isBlank c = false) (cs : List Char) :
    trimRight (c :: cs) = c :: trimRight cs := trimRight_append_cons [] cs hc

theorem trimRight_blank_cons (hc : isBlank c = true) (cs : List Char) :
    trimRight (c :: cs) = if trimRight cs = [] then [] else c :: trimRight cs := by
  rw [trimRight, trimRight, List.reverse_cons, List.dropWhile_append]
  simp only [List.isEmpty_iff, List.reverse_eq_nil_iff]
  split
  next hnil => rw [List.dropWhile_cons, hc]; rfl
  · simp

theorem trimRight_isPrefix (cs : List Char) : trimRight cs <+: cs := by
  have hsuffix := (List.dropWhile_suffix isBlank (l := cs.reverse)).reverse
  rwa [List.reverse_reverse] at hsuffix

theorem trimLeft_blank_cons (hc : isBlank c = true) (cs : List Char) :
    trimLeft (c :: cs) = trimLeft cs :=
  List.dropWhile_cons_of_pos hc

theorem trimLeft_cons_of_not_blank (hc : isBlank c = false) (cs : List Char) :
    trimLeft (c :: cs) = c :: cs :=
  List.dropWhile_cons_of_neg (by simp [hc])

/-- A text that trimming leaves alone starts with no blank. -/
theorem not_blank_of_trimLeft (h : trimLeft (c :: cs) = c :: cs) : isBlank c = false := by
  rw [Bool.eq_false_iff]
  intro hc
  rw [trimLeft_blank_cons hc] at h
  have hlength := (List.dropWhile_sublist isBlank (l := cs)).length_le
  rw [← trimLeft, h, List.length_cons] at hlength
  omega

theorem trimLeft_append_cons (front back : List Char) (hc : isBlank c = false) :
    trimLeft (front ++ c :: back) = trimLeft front ++ c :: back := by
  rw [trimLeft, trimLeft, List.dropWhile_append]
  split
  next hempty =>
      have hnil : front.dropWhile isBlank = [] := by simpa using hempty
      rw [hnil, ← trimLeft, trimLeft_cons_of_not_blank hc]
      rfl
  · rfl

theorem trimLeft_of_append {front back : List Char} (h : trimLeft (front ++ back) = front ++ back) :
    trimLeft front = front := by
  cases front with
  | nil => rfl
  | cons d front => exact trimLeft_cons_of_not_blank (not_blank_of_trimLeft h) front

/-- Blanks that are dropped at the start may be dropped before or after those at the end. -/
theorem dropWhile_trimRight (h : ∀ c, p c = true → isBlank c = true) (cs : List Char) :
    (trimRight cs).dropWhile p = trimRight (cs.dropWhile p) := by
  induction cs with
  | nil => rfl
  | cons c cs ih =>
      by_cases hc : p c = true
      · rw [List.dropWhile_cons_of_pos hc, trimRight_blank_cons (h c hc)]
        split
        next hnil => rw [← ih, hnil, List.dropWhile_nil]
        · rw [List.dropWhile_cons_of_pos hc, ih]
      · rw [List.dropWhile_cons_of_neg hc]
        by_cases hblank : isBlank c = true
        · rw [trimRight_blank_cons hblank]
          split
          · rfl
          · rw [List.dropWhile_cons_of_neg hc]
        · rw [trimRight_cons_of_not_blank (by simpa using hblank), List.dropWhile_cons_of_neg hc]

theorem trimLeft_trimRight (cs : List Char) : trimLeft (trimRight cs) = trim cs :=
  dropWhile_trimRight (fun _ h => h) cs

theorem trimLeft_trimLeft (cs : List Char) : trimLeft (trimLeft cs) = trimLeft cs := by
  induction cs with
  | nil => rfl
  | cons c cs ih =>
      cases hc : isBlank c with
      | true => rw [trimLeft_blank_cons hc, ih]
      | false => rw [trimLeft_cons_of_not_blank hc, trimLeft_cons_of_not_blank hc]

theorem trimRight_trimRight (cs : List Char) : trimRight (trimRight cs) = trimRight cs := by
  rw [trimRight, trimRight, List.reverse_reverse]
  exact congrArg List.reverse (trimLeft_trimLeft cs.reverse)

theorem trim_trimRight (cs : List Char) : trim (trimRight cs) = trim cs := by
  rw [trim, trimLeft_trimRight, trim, trimRight_trimRight]

theorem trimRight_trim (cs : List Char) : trimRight (trim cs) = trim cs :=
  trimRight_trimRight _

theorem trimLeft_trim (cs : List Char) : trimLeft (trim cs) = trim cs := by
  rw [trim, trimLeft_trimRight, trim, trimLeft_trimLeft]

theorem trim_trimLeft (cs : List Char) : trim (trimLeft cs) = trim cs := by
  rw [trim, trimLeft_trimLeft, trim]

theorem trim_trim (cs : List Char) : trim (trim cs) = trim cs := by
  rw [trim, trimLeft_trim, trimRight_trim]

theorem trimRight_of_no_blank (h : ∀ c ∈ cs, isBlank c = false) : trimRight cs = cs := by
  rw [trimRight, dropWhile_of_not (by simpa using h), List.reverse_reverse]

theorem trim_of_no_blank (h : ∀ c ∈ cs, isBlank c = false) : trim cs = cs := by
  rw [trim, trimLeft, dropWhile_of_not h, trimRight_of_no_blank h]

theorem trimLeft_eq_self_iff : trimLeft cs = cs ↔ ∀ c ∈ cs.head?, isBlank c = false := by
  cases cs with
  | nil => simp [trimLeft]
  | cons c cs =>
      simp only [List.head?_cons, Option.mem_some_iff, forall_eq']
      exact ⟨not_blank_of_trimLeft, fun hc => trimLeft_cons_of_not_blank hc cs⟩

theorem trimRight_eq_self_iff : trimRight cs = cs ↔ ∀ c ∈ cs.getLast?, isBlank c = false := by
  rw [trimRight, List.reverse_eq_iff, ← List.head?_reverse]
  exact trimLeft_eq_self_iff

/-- A text is trimmed if neither of its ends is blank. -/
theorem trim_eq_self_iff : trim cs = cs ↔
    (∀ c ∈ cs.head?, isBlank c = false) ∧ ∀ c ∈ cs.getLast?, isBlank c = false := by
  rw [← trimLeft_eq_self_iff, ← trimRight_eq_self_iff]
  constructor
  · intro h
    exact ⟨h ▸ trimLeft_trim cs, h ▸ trimRight_trim cs⟩
  · rintro ⟨hleft, hright⟩
    rw [trim, hleft, hright]

/-- Other characters than blanks stay. -/
theorem mem_trimLeft (hc : isBlank c = false) : c ∈ trimLeft cs ↔ c ∈ cs := by
  induction cs with
  | nil => rfl
  | cons d cs ih =>
      cases hd : isBlank d with
      | true =>
          have hne : c ≠ d := by
            rintro rfl
            rw [hc] at hd
            cases hd
          rw [trimLeft_blank_cons hd, ih, List.mem_cons]
          simp [hne]
      | false => rw [trimLeft_cons_of_not_blank hd]

theorem mem_trimRight (hc : isBlank c = false) : c ∈ trimRight cs ↔ c ∈ cs := by
  rw [trimRight, List.mem_reverse]
  exact (mem_trimLeft hc).trans List.mem_reverse

/-! ## Blanks -/

theorem not_mem_blanks (hblank : ∀ d ∈ blanks, isBlank d = true) (hc : isBlank c = false) : c ∉ blanks := by
  intro hmem
  rw [hblank c hmem] at hc
  cases hc

theorem trimLeft_blanks_append (hblank : ∀ c ∈ blanks, isBlank c = true) (cs : List Char) :
    trimLeft (blanks ++ cs) = trimLeft cs :=
  List.dropWhile_append_of_pos hblank

theorem trimRight_append_blanks (cs : List Char) (hblank : ∀ c ∈ blanks, isBlank c = true) :
    trimRight (cs ++ blanks) = trimRight cs := by
  have hreverse : ∀ c ∈ blanks.reverse, isBlank c = true := fun c hc => hblank c (List.mem_reverse.mp hc)
  rw [trimRight, List.reverse_append, List.dropWhile_append_of_pos hreverse, trimRight]

theorem trim_append_blanks (cs : List Char) (hblank : ∀ c ∈ blanks, isBlank c = true) :
    trim (cs ++ blanks) = trim cs := by
  rw [← trimLeft_trimRight, trimRight_append_blanks cs hblank, trimLeft_trimRight]

theorem trim_blanks (hblank : ∀ c ∈ blanks, isBlank c = true) : trim blanks = [] :=
  trim_append_blanks [] hblank

/-! ## Strings -/

theorem trimmed_trimmed (s : String) : trimmed (trimmed s) = trimmed s := by
  rw [trimmed, trimmed, String.toList_ofList, trim_trim]

theorem trimmed_trimmedRight (s : String) : trimmed (trimmedRight s) = trimmed s := by
  rw [trimmed, trimmedRight, String.toList_ofList, trim_trimRight, trimmed]

theorem trim_eq_of_trimmed_eq {v w : String} (h : trimmed v = trimmed w) : trim v.toList = trim w.toList := by
  have hlist := congrArg String.toList h
  rwa [trimmed, trimmed, String.toList_ofList, String.toList_ofList] at hlist

end BugReport.Text
