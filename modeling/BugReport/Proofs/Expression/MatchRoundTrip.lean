import BugReport.Proofs.Expression.MatchGrammar

/-! # Match expressions as they are written

The commas of a text give the number of its terms, and its first two characters say whether it is a group. An
expression that is written is read back if its literals hold no comma and no blank at their ends, and if no sign can be
taken for another: the sign of a term for a part of its literal, a term for a special value, or a list for a group.
-/

namespace BugReport

open Text (isBlank trim trimRight)

/-- The texts of the special values. -/
def Special.texts : List (List Char) :=
  [['+'], ['-'], ['*']]

theorem Special.mem_texts_iff {cs : List Char} : cs ∈ texts ↔ ∃ s : Special, cs = [s.sign] := by
  constructor
  · intro h
    simp only [texts, List.mem_cons, List.not_mem_nil, or_false] at h
    rcases h with rfl | rfl | rfl
    · exact ⟨.notNull, rfl⟩
    · exact ⟨.null, rfl⟩
    · exact ⟨.any, rfl⟩
  · rintro ⟨s, rfl⟩
    cases s with
    | notNull => decide
    | null => decide
    | any => decide

theorem Special.ofList?_eq_none_iff {cs : List Char} : ofList? cs = none ↔ cs ∉ texts := by
  rw [mem_texts_iff, Option.eq_none_iff_forall_ne_some]
  simp only [ne_eq, Special.ofList?_eq_some_iff, not_exists]

theorem Special.ne_of_not_mem_texts {cs : List Char} (h : cs ∉ texts) (s : Special) : cs ≠ [s.sign] :=
  fun heq => h (mem_texts_iff.mpr ⟨s, heq⟩)

variable {c : Char} {cs : List Char} {t : Term} {ts : List Term} {e : MatchExpr}

/-! ## The form of what is read -/

namespace MatchExpr

/-- What the signs and commas of a trimmed text say about the expression that it is read as. -/
structure HasForm (cs : List Char) (e : MatchExpr) : Prop where
  special : ∀ s, e = .special s ↔ cs = [s.sign]
  single : (∃ t, e = .single t) ↔ ',' ∉ cs ∧ cs ∉ Special.texts
  noneOf : (∃ ts, e = .noneOf ts) ↔ ',' ∈ cs ∧ ['!', '('] <+: cs
  anyOf : (∃ ts, e = .anyOf ts) ↔ ',' ∈ cs ∧ ¬ ['!', '('] <+: cs
  /-- There is one more term than commas. -/
  termCount : cs ∉ Special.texts → e.termCount = cs.count ',' + 1

theorem length_termsOf (cs : List Char) : (termsOf cs).length = cs.count ',' + 1 := by
  rw [termsOf, List.length_map, length_splitOn]

theorem count_dropClosing (cs : List Char) : (dropClosing cs).count ',' = cs.count ',' := by
  have hcount := congrArg (List.count ',') (MatchGrammar.dropClosing_append_leftOf cs)
  rw [List.count_append] at hcount
  rcases MatchGrammar.leftOf_eq cs with hleft | hleft
  · simpa [hleft] using hcount
  · simpa [hleft] using hcount

theorem not_mem_texts_of_comma (h : ',' ∈ cs) : cs ∉ Special.texts := by
  rw [← Special.ofList?_eq_none_iff]
  exact special_of_comma h

theorem hasForm_special (s : Special) : HasForm [s.sign] (.special s) := by
  have hmem : [s.sign] ∈ Special.texts := Special.mem_texts_iff.mpr ⟨s, rfl⟩
  have hcomma : ',' ∉ [s.sign] := by
    cases s with
    | notNull => decide
    | null => decide
    | any => decide
  constructor
  case special =>
    intro other
    rw [special.injEq, ← Special.ofList?_eq_some_iff, Special.ofList?_eq_some_iff.mpr rfl, Option.some.injEq]
  case single => exact iff_of_false nofun fun h => h.2 hmem
  case noneOf => exact iff_of_false nofun fun h => hcomma h.1
  case anyOf => exact iff_of_false nofun fun h => hcomma h.1
  case termCount => exact fun h => absurd hmem h

theorem hasForm_single (hcomma : ',' ∉ cs) (hspecial : cs ∉ Special.texts) (t : Term) : HasForm cs (.single t) where
  special s := iff_of_false nofun (Special.ne_of_not_mem_texts hspecial s)
  single := iff_of_true ⟨t, rfl⟩ ⟨hcomma, hspecial⟩
  noneOf := iff_of_false nofun fun h => hcomma h.1
  anyOf := iff_of_false nofun fun h => hcomma h.1
  termCount _ := by
    rw [List.count_eq_zero_of_not_mem hcomma]
    rfl

theorem hasForm_noneOf (hcomma : ',' ∈ cs) (hgroup : ['!', '('] <+: cs) (hlength : ts.length = cs.count ',' + 1) :
    HasForm cs (.noneOf ts) where
  special s := iff_of_false nofun (Special.ne_of_not_mem_texts (not_mem_texts_of_comma hcomma) s)
  single := iff_of_false nofun fun h => h.1 hcomma
  noneOf := iff_of_true ⟨ts, rfl⟩ ⟨hcomma, hgroup⟩
  anyOf := iff_of_false nofun fun h => h.2 hgroup
  termCount _ := hlength

theorem hasForm_anyOf (hcomma : ',' ∈ cs) (hgroup : ¬ ['!', '('] <+: cs) (hlength : ts.length = cs.count ',' + 1) :
    HasForm cs (.anyOf ts) where
  special s := iff_of_false nofun (Special.ne_of_not_mem_texts (not_mem_texts_of_comma hcomma) s)
  single := iff_of_false nofun fun h => h.1 hcomma
  noneOf := iff_of_false nofun fun h => hgroup h.2
  anyOf := iff_of_true ⟨ts, rfl⟩ ⟨hcomma, hgroup⟩
  termCount _ := hlength

/-- What is read has the form that its text says. -/
theorem hasForm_ofTrimmed (cs : List Char) : HasForm cs (ofTrimmed cs) := by
  by_cases hspecial : cs ∈ Special.texts
  · obtain ⟨s, rfl⟩ := Special.mem_texts_iff.mp hspecial
    have hread : ofTrimmed [s.sign] = .special s := by
      cases s with
      | notNull => rfl
      | null => rfl
      | any => rfl
    rw [hread]
    exact hasForm_special s
  · by_cases hcomma : ',' ∈ cs
    · by_cases hgroup : ['!', '('] <+: cs
      · obtain ⟨inner, rfl⟩ := hgroup
        have hinner : ',' ∈ inner := by simpa using hcomma
        have hcount : (['!', '('] ++ inner).count ',' = inner.count ',' := by simp
        have hread : ofTrimmed (['!', '('] ++ inner) = .noneOf (termsOf (dropClosing inner)) := ofTrimmed_noneOf hinner
        rw [hread]
        apply hasForm_noneOf hcomma (List.prefix_append _ _)
        rw [length_termsOf, count_dropClosing, hcount]
      · rw [ofTrimmed_anyOf hcomma hgroup]
        exact hasForm_anyOf hcomma hgroup (length_termsOf cs)
    · rw [ofTrimmed_single (Special.ofList?_eq_none_iff.mpr hspecial) hcomma]
      exact hasForm_single hcomma hspecial _

end MatchExpr

/-! ## Terms that are written -/

/-- Whether a term is read as it is written. -/
structure Term.Writable (t : Term) : Prop where
  comma : ',' ∉ t.literal.toList
  first : ∀ c ∈ t.literal.toList.head?, isBlank c = false
  last : ∀ c ∈ t.literal.toList.getLast?, isBlank c = false
  /-- Without a sign of its own, the term starts with none. -/
  sign : t.op = .equals → ∀ c ∈ t.literal.toList.head?, c ∉ ['!', '<', '>']
  wildcard : t.wildcard = t.literal.toList.contains '%'

namespace Term

theorem not_blank_of_mem_signOf {op : TermOp} (h : c ∈ signOf op) : isBlank c = false := by
  cases op with
  | equals => cases h
  | negate =>
      obtain rfl := List.mem_singleton.mp h
      decide
  | less =>
      obtain rfl := List.mem_singleton.mp h
      decide
  | greater =>
      obtain rfl := List.mem_singleton.mp h
      decide

theorem takeSign_signOf {op : TermOp} (h : op = .equals → ∀ c ∈ cs.head?, c ∉ ['!', '<', '>']) :
    takeSign (signOf op ++ cs) = (op, cs) := by
  cases op with
  | equals =>
      cases cs with
      | nil => rfl
      | cons c cs => exact takeSign_of_not_sign (h rfl c rfl) cs
  | negate => rfl
  | less => rfl
  | greater => rfl

namespace Writable

theorem comma_not_mem (h : t.Writable) : ',' ∉ t.toList := by
  rw [toList, List.mem_append, not_or]
  refine ⟨?_, h.comma⟩
  cases t.op with
  | equals => decide
  | negate => decide
  | less => decide
  | greater => decide

theorem trim_toList (h : t.Writable) : trim t.toList = t.toList := by
  rw [Text.trim_eq_self_iff, toList, List.head?_append, List.getLast?_append]
  constructor
  · intro c hc
    rcases Option.or_eq_some_iff.mp hc with hsign | ⟨-, hliteral⟩
    · exact not_blank_of_mem_signOf (List.mem_of_mem_head? hsign)
    · exact h.first c hliteral
  · intro c hc
    rcases Option.or_eq_some_iff.mp hc with hliteral | ⟨-, hsign⟩
    · exact h.last c hliteral
    · exact not_blank_of_mem_signOf (List.mem_of_getLast? hsign)

/-- A term is read back. -/
theorem ofList_toList (h : t.Writable) : ofList t.toList = t := by
  have hlead : t.toList.dropWhile isLeadingBlank = t.toList := by
    rw [dropWhile_isLeadingBlank (leadsPlainly_of_trimLeft (h.trim_toList ▸ Text.trimLeft_trim t.toList))]
    exact h.trim_toList ▸ Text.trimLeft_trim t.toList
  have hright : trimRight t.literal.toList = t.literal.toList := Text.trimRight_eq_self_iff.mpr h.last
  have hpercent : t.toList.contains '%' = t.wildcard := by
    rw [h.wildcard, toList]
    cases t.op <;> simp [signOf]
  rw [ofList, hlead]
  simp only [hpercent]
  rw [toList, takeSign_signOf h.sign]
  simp only [hright, String.ofList_toList]

end Writable

end Term

/-! ## Expressions that are written -/

namespace MatchExpr

/-- Whether an expression is read as it is written. -/
def Writable : MatchExpr → Prop
  | special _ => True
  | single t => t.Writable ∧ t.toList ∉ Special.texts
  -- A parenthesis behind the sign of the first term would open a group.
  | anyOf ts => 2 ≤ ts.length ∧ (∀ t ∈ ts, t.Writable) ∧
      ∀ t ∈ ts.head?, ¬ (t.op = .negate ∧ ['('] <+: t.literal.toList)
  | noneOf ts => 2 ≤ ts.length ∧ ∀ t ∈ ts, t.Writable

/-- The text of a list. -/
def listed (ts : List Term) : List Char :=
  [','].intercalate (ts.map Term.toList)

theorem comma_mem_listed (h : 2 ≤ ts.length) : ',' ∈ listed ts := by
  match ts, h with
  | first :: second :: ts, _ =>
      rw [listed, List.map_cons, List.map_cons, List.intercalate_cons_cons]
      simp

theorem termsOf_listed (hne : ts ≠ []) (h : ∀ t ∈ ts, t.Writable) : termsOf (listed ts) = ts := by
  rw [termsOf, listed]
  exact map_splitOn_intercalate hne (fun t ht => (h t ht).comma_not_mem) fun t ht => (h t ht).ofList_toList

theorem trim_listed (h : ∀ t ∈ ts, t.Writable) : trim (listed ts) = listed ts :=
  trim_intercalate (fun t ht => (h t ht).comma_not_mem) fun t ht => (h t ht).trim_toList

theorem not_group_toList (h : t.Writable) (hopen : ¬ (t.op = .negate ∧ ['('] <+: t.literal.toList)) :
    ¬ ['!', '('] <+: t.toList := by
  rw [Term.toList]
  cases hop : t.op with
  | equals =>
      rintro ⟨rest, hrest⟩
      refine h.sign hop '!' ?_ (by decide)
      rw [← List.nil_append t.literal.toList, ← Term.signOf, ← hrest]
      rfl
  | negate => exact fun hgroup => hopen ⟨hop, (List.cons_prefix_cons.mp hgroup).2⟩
  | less => exact fun hgroup => absurd (List.cons_prefix_cons.mp hgroup).1 (by decide)
  | greater => exact fun hgroup => absurd (List.cons_prefix_cons.mp hgroup).1 (by decide)

theorem not_group_listed (hlength : 2 ≤ ts.length) (h : ∀ t ∈ ts, t.Writable)
    (hopen : ∀ t ∈ ts.head?, ¬ (t.op = .negate ∧ ['('] <+: t.literal.toList)) : ¬ ['!', '('] <+: listed ts := by
  match ts, hlength with
  | first :: second :: ts, _ =>
      rw [listed, List.map_cons, List.map_cons, List.intercalate_cons_cons, List.append_assoc]
      exact not_group_append (not_group_toList (h first List.mem_cons_self) (hopen first rfl)) _

theorem trim_group (cs : List Char) : trim ('!' :: '(' :: (cs ++ [')'])) = '!' :: '(' :: (cs ++ [')']) := by
  rw [Text.trim_eq_self_iff, ← List.cons_append, ← List.cons_append, List.getLast?_concat]
  constructor
  · intro c hc
    obtain rfl : '!' = c := Option.some.inj hc
    decide
  · intro c hc
    obtain rfl : ')' = c := Option.some.inj hc
    decide

/-- An expression is read back. -/
theorem parse_toList (h : e.Writable) : parse (String.ofList e.toList) = e := by
  rw [parse, String.toList_ofList]
  cases e with
  | special s =>
      cases s with
      | notNull => rfl
      | null => rfl
      | any => rfl
  | single t =>
      obtain ⟨ht, hspecial⟩ := h
      rw [toList, ht.trim_toList, ofTrimmed_single (Special.ofList?_eq_none_iff.mpr hspecial) ht.comma_not_mem,
        ht.ofList_toList]
  | anyOf ts =>
      obtain ⟨hlength, hterms, hopen⟩ := h
      rw [toList, ← listed, trim_listed hterms,
        ofTrimmed_anyOf (comma_mem_listed hlength) (not_group_listed hlength hterms hopen),
        termsOf_listed (List.ne_nil_of_length_pos (by omega)) hterms]
  | noneOf ts =>
      obtain ⟨hlength, hterms⟩ := h
      have hcomma : ',' ∈ listed ts ++ [')'] := List.mem_append_left _ (comma_mem_listed hlength)
      rw [toList, ← listed, List.cons_append, List.cons_append, trim_group, ofTrimmed_noneOf hcomma,
        dropClosing_append, termsOf_listed (List.ne_nil_of_length_pos (by omega)) hterms]

/-- The grammar reads every text, as its signs and commas say, and reads back what is written. -/
theorem match_grammar_round_trip :
    (∀ s : String, read? s = some (parse s) ∧ (parse s).HasForm (trim s.toList)) ∧
      ∀ e : MatchExpr, e.Writable → parse (String.ofList e.toList) = e :=
  ⟨fun s => ⟨read?_eq_parse s, hasForm_ofTrimmed (trim s.toList)⟩, fun _ => parse_toList⟩

/-- Parentheses and blanks stay in the literals of a group. -/
theorem match_grammar_round_trip_of_group :
    Writable (.noneOf [⟨.negate, "(x%", true⟩, ⟨.equals, "b)", false⟩, ⟨.less, "3 4", false⟩]) ∧
      parse "!(!(x%,b),<3 4)" = .noneOf [⟨.negate, "(x%", true⟩, ⟨.equals, "b)", false⟩, ⟨.less, "3 4", false⟩] := by
  have hnegated : Term.Writable ⟨.negate, "(x%", true⟩ := by
    refine ⟨by decide, ?_, ?_, nofun, by decide⟩
    · rintro c ⟨⟩
      decide
    · rintro c ⟨⟩
      decide
  have hequal : Term.Writable ⟨.equals, "b)", false⟩ := by
    refine ⟨by decide, ?_, ?_, ?_, by decide⟩
    · rintro c ⟨⟩
      decide
    · rintro c ⟨⟩
      decide
    · rintro - c ⟨⟩
      decide
  have hless : Term.Writable ⟨.less, "3 4", false⟩ := by
    refine ⟨by decide, ?_, ?_, nofun, by decide⟩
    · rintro c ⟨⟩
      decide
    · rintro c ⟨⟩
      decide
  have hgroup : Writable (.noneOf [⟨.negate, "(x%", true⟩, ⟨.equals, "b)", false⟩, ⟨.less, "3 4", false⟩]) :=
    ⟨by decide, by simp [hnegated, hequal, hless]⟩
  have htext : "!(!(x%,b),<3 4)" =
      String.ofList (toList (.noneOf [⟨.negate, "(x%", true⟩, ⟨.equals, "b)", false⟩, ⟨.less, "3 4", false⟩])) := by
    decide
  rw [htext]
  exact ⟨hgroup, match_grammar_round_trip.2 _ hgroup⟩

end MatchExpr

end BugReport
