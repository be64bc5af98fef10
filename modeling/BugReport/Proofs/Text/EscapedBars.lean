import BugReport.Text.Split

/-! # Bars that are escaped

A line of a Markdown table is cut at its bars, but for those that a backslash escapes. Readers of Markdown differ in
what a backslash does behind another one, so there are two ways to read a line. What holds of both is stated for any.
-/

namespace BugReport

/-- Which characters are escaped. -/
inductive Escaping where
  /-- What stands right behind a backslash. -/
  | single
  /-- What stands behind an odd number of backslashes, because a backslash escapes a backslash, too. -/
  | paired
  deriving DecidableEq

namespace Escaping

/-- Whether the character behind this one is escaped, after a character that is escaped or not. -/
def next (e : Escaping) (escaped : Bool) (c : Char) : Bool :=
  c == '\\' && !(e == .paired && escaped)

/-- Whether the character behind a text is escaped, when the first one of the text is or is not. -/
def after (e : Escaping) (escaped : Bool) (front : List Char) : Bool :=
  front.foldl e.next escaped

/-- Cuts a text at the bars that are not escaped. -/
def parts (e : Escaping) (escaped : Bool) : List Char → List (List Char)
  | [] => [[]]
  | c :: cs =>
    if c == '|' && !escaped then [] :: e.parts (e.next escaped c) cs
    else (e.parts (e.next escaped c) cs).modifyHead (c :: ·)

/-- The cells of a line that has bars at its start and at its end: the parts between them. -/
def cells? (e : Escaping) (line : String) : Option (List String) :=
  match e.parts false line.toList with
  | [] :: parts => if parts.getLast? = some [] then some (parts.dropLast.map String.ofList) else none
  | _ => none

variable {e : Escaping} {escaped : Bool} {front back text : List Char} {c : Char}

theorem after_append : e.after escaped (front ++ back) = e.after (e.after escaped front) back :=
  List.foldl_append

/-- Nothing but a backslash escapes. -/
theorem after_concat_of_ne (hc : c ≠ '\\') : e.after escaped (front ++ [c]) = false := by
  have hnext : e.next (e.after escaped front) c = false := by rw [next, beq_eq_false_iff_ne.mpr hc, Bool.false_and]
  rw [after_append]
  exact hnext

/-! ## Parts -/

theorem parts_bar : e.parts false ('|' :: back) = [] :: e.parts false back :=
  rfl

theorem parts_ne_nil (e : Escaping) (escaped : Bool) (text : List Char) : e.parts escaped text ≠ [] := by
  cases text with
  | nil => exact List.cons_ne_nil _ _
  | cons c text =>
      rw [parts]
      split
      · exact List.cons_ne_nil _ _
      · have hne := parts_ne_nil e (e.next escaped c) text
        exact fun hnil => hne (List.modifyHead_eq_nil_iff.mp hnil)

theorem length_parts_pos (e : Escaping) (escaped : Bool) (text : List Char) : 0 < (e.parts escaped text).length :=
  List.length_pos_iff.mpr (parts_ne_nil e escaped text)

/-- A bar that is not escaped ends a part. -/
theorem parts_append_bar (hfront : e.after escaped front = false) :
    e.parts escaped (front ++ '|' :: back) = e.parts escaped front ++ e.parts false back := by
  induction front generalizing escaped with
  | nil =>
      obtain rfl : escaped = false := hfront
      rw [List.nil_append, parts_bar]
      rfl
  | cons c front ih =>
      rw [List.cons_append, parts, parts, ih hfront]
      split
      · rfl
      · obtain ⟨part, rest, hparts⟩ := List.exists_cons_of_ne_nil (parts_ne_nil e (e.next escaped c) front)
        rw [hparts]
        rfl

/-! ## Texts -/

/-- The bars of a text stand only where the given holds of their being escaped. -/
def AtBars (e : Escaping) (P : Bool → Prop) (escaped : Bool) (text : List Char) : Prop :=
  ∀ front back, text = front ++ '|' :: back → P (e.after escaped front)

section

variable {P : Bool → Prop}

theorem atBars_nil : e.AtBars P escaped [] := by
  intro front back heq
  cases front <;> cases heq

theorem atBars_cons : e.AtBars P escaped (c :: text) ↔
    (c = '|' → P escaped) ∧ e.AtBars P (e.next escaped c) text := by
  constructor
  · intro h
    refine ⟨fun hc => ?_, fun front back heq => ?_⟩
    · exact h [] text (by rw [hc, List.nil_append])
    · exact h (c :: front) back (by rw [heq, List.cons_append])
  · rintro ⟨hfirst, hrest⟩ front back heq
    cases front with
    | nil =>
        obtain ⟨rfl, -⟩ := List.cons.inj heq
        exact hfirst rfl
    | cons d front =>
        obtain ⟨rfl, hrest'⟩ := List.cons.inj heq
        exact hrest front back hrest'

theorem atBars_append : e.AtBars P escaped (front ++ back) ↔
    e.AtBars P escaped front ∧ e.AtBars P (e.after escaped front) back := by
  induction front generalizing escaped with
  | nil => exact (and_iff_right atBars_nil).symm
  | cons c front ih =>
      rw [List.cons_append, atBars_cons, atBars_cons, ih, and_assoc]
      rfl

theorem atBars_of_not_mem (h : '|' ∉ text) : e.AtBars P escaped text := by
  rintro front back rfl
  exact absurd (List.mem_append_right _ List.mem_cons_self) h

/-- A frame without bars makes no difference, if it does not escape the text. -/
theorem atBars_framed (hbefore : '|' ∉ front) (hescapes : e.after false front = false) (hbehind : '|' ∉ back) :
    e.AtBars P false (front ++ text ++ back) ↔ e.AtBars P false text := by
  rw [atBars_append, atBars_append, hescapes, and_iff_right (atBars_of_not_mem hbefore),
    and_iff_left (atBars_of_not_mem hbehind)]

/-- A text is one part exactly if all of its bars are escaped. -/
theorem length_parts_eq_one_iff : (e.parts escaped text).length = 1 ↔ e.AtBars (· = true) escaped text := by
  induction text generalizing escaped with
  | nil => exact iff_of_true rfl atBars_nil
  | cons c text ih =>
      rw [parts, atBars_cons, ← ih]
      by_cases hc : c = '|'
      · cases escaped with
        | true => simp [hc]
        | false => simp [hc, parts_ne_nil]
      · simp [hc]

/-- A text with a backslash in front of each bar. -/
def guarded (text : List Char) : List Char :=
  text.flatMap fun d => if d == '|' then ['\\', '|'] else [d]

/-- Behind a bar nothing is escaped, with and without a backslash in front of it. -/
theorem atBars_guarded : e.AtBars P escaped (guarded text) ↔
    e.AtBars (fun escaped => P (e.next escaped '\\')) escaped text := by
  induction text generalizing escaped with
  | nil => exact iff_of_true atBars_nil atBars_nil
  | cons c text ih =>
      rw [guarded, List.flatMap_cons, ← guarded, atBars_cons]
      by_cases hc : c = '|'
      · subst hc
        rw [beq_self_eq_true, if_pos rfl, List.cons_append, List.singleton_append, atBars_cons, atBars_cons, ih]
        simp [next]
      · rw [if_neg (by simpa using hc), List.singleton_append, atBars_cons, ih]
        simp [hc]

end

/-- Every bar of a text is escaped. -/
def Guards (e : Escaping) (text : String) : Prop :=
  e.AtBars (· = true) false text.toList

/-- Where backslashes are paired, no bar of a text is escaped, so that one more backslash escapes it. -/
def Admits (e : Escaping) (text : String) : Prop :=
  e = .paired → e.AtBars (· = false) false text.toList

/-- A backslash in front of each bar escapes it, unless it makes a pair. -/
theorem atBars_guarded_iff (text : String) : e.AtBars (· = true) false (guarded text.toList) ↔ e.Admits text := by
  rw [atBars_guarded, Admits]
  cases e with
  | single => exact iff_of_true (fun _ _ _ => rfl) fun heq => nomatch heq
  | paired =>
      have hnext {escaped : Bool} : paired.next escaped '\\' = true ↔ escaped = false := by
        cases escaped <;> decide
      simp only [hnext, forall_const]

theorem mem_guarded_iff (hbar : c ≠ '|') (hbackslash : c ≠ '\\') : c ∈ guarded text ↔ c ∈ text := by
  rw [guarded, List.mem_flatMap]
  constructor
  · rintro ⟨d, hd, hc⟩
    split at hc
    · simp [hbar, hbackslash] at hc
    · rwa [List.mem_singleton.mp hc]
  · intro hc
    exact ⟨c, hc, by rw [if_neg (by simpa using hbar)]; exact List.mem_singleton_self c⟩

instance (text : String) : Decidable (e.Guards text) :=
  decidable_of_iff ((e.parts false text.toList).length = 1) length_parts_eq_one_iff

instance (text : String) : Decidable (e.Admits text) :=
  decidable_of_iff ((e.parts false (guarded text.toList)).length = 1)
    (length_parts_eq_one_iff.trans (atBars_guarded_iff text))

/-! ## Lines -/

/-- A line of a table, of what it has between its bars. -/
def lineOf (contents : List String) : String :=
  "|" ++ String.join (contents.map (· ++ "|"))

variable {contents : List String}

theorem parts_lineOf (h : ∀ content ∈ contents, e.after false content.toList = false) :
    e.parts false (lineOf contents).toList = [] :: (contents.flatMap (e.parts false ·.toList) ++ [[]]) := by
  have hbar : "|".toList = ['|'] := rfl
  rw [lineOf, String.toList_append, hbar, List.singleton_append, parts_bar]
  congr 1
  induction contents with
  | nil => rfl
  | cons content contents ih =>
      rw [List.map_cons, String.join_cons, String.append_assoc, String.toList_append, String.toList_append, hbar,
        List.singleton_append, parts_append_bar (h content List.mem_cons_self),
        ih fun other hother => h other (List.mem_cons_of_mem _ hother), List.flatMap_cons, List.append_assoc]

theorem length_le_length_parts (e : Escaping) (contents : List String) :
    contents.length ≤ (contents.flatMap (e.parts false ·.toList)).length := by
  induction contents with
  | nil => exact Nat.le_refl 0
  | cons content contents ih =>
      have hpos := length_parts_pos e false content.toList
      rw [List.flatMap_cons, List.length_append, List.length_cons]
      omega

theorem length_flatMap_parts_iff : (contents.flatMap (e.parts false ·.toList)).length = contents.length ↔
    ∀ content ∈ contents, e.Guards content := by
  induction contents with
  | nil => simp
  | cons content contents ih =>
      have hpos := length_parts_pos e false content.toList
      have hrest := length_le_length_parts e contents
      rw [List.flatMap_cons, List.length_append, List.length_cons, List.forall_mem_cons, ← ih, Guards,
        ← length_parts_eq_one_iff]
      omega

theorem mem_lineOf (hc : c ∈ (lineOf contents).toList) : c = '|' ∨ ∃ content ∈ contents, c ∈ content.toList := by
  rw [lineOf, String.toList_append, String.toList_join, List.flatMap_map, List.mem_append, List.mem_flatMap] at hc
  rcases hc with hbar | ⟨content, hcontent, hc⟩
  · exact .inl (List.mem_singleton.mp hbar)
  · rw [String.toList_append, List.mem_append] at hc
    rcases hc with hc | hbar
    · exact .inr ⟨content, hcontent, hc⟩
    · exact .inl (List.mem_singleton.mp hbar)

/-- A line has as many cells as contents exactly if the bars of the contents are escaped. -/
theorem length_cells?_lineOf_iff (h : ∀ content ∈ contents, e.after false content.toList = false) :
    (e.cells? (lineOf contents)).map List.length = some contents.length ↔ ∀ content ∈ contents, e.Guards content := by
  rw [← length_flatMap_parts_iff, cells?, parts_lineOf h]
  simp only [List.getLast?_concat, List.dropLast_concat, if_true, Option.map_some, List.length_map, Option.some.injEq]

end Escaping

end BugReport
