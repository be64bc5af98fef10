import BugReport.Proofs.Expression.Grammar

/-! # The grammar of match expressions

A match expression is a special value, a list in `!( )`, a list, or a single term, tried in this order. The grammar
reads every text, and what it reads is what the expression is read as. So a text is a special value only if it is one
of the three signs, and else it has one more term than commas. Expressions that are written are read back, as far as
their literals can be told from the signs around them.
-/

namespace BugReport

open Grammar Grammar.Peg

/-- The rules of the grammar. -/
inductive MatchRule where
  | special
  | sign
  | literal
  | term
  | groupLiteral
  | groupTerm
  | specialExpr
  | negatedList
  | termList
  | singleTerm
  deriving DecidableEq

namespace MatchGrammar

def blank : Peg MatchRule :=
  oneOf ' ' ['\t', '\r', '\n']

def special : Peg MatchRule :=
  rule .special (oneOf '+' ['-', '*'])

def sign : Peg MatchRule :=
  rule .sign (oneOf '!' ['<', '>'])

def comma : Peg MatchRule :=
  text [',']

def closing : Peg MatchRule :=
  text [')']

/-- A term whose literal is read by the given expression. -/
def termOf (name part : MatchRule) (body : Peg MatchRule) : Peg MatchRule :=
  rule name (blank.many.seq (sign.opt.seq (rule part body)))

def term : Peg MatchRule :=
  termOf .term .literal (upTo comma)

/-- In a group, a parenthesis at the end of the text does not belong to the literal. -/
def groupTerm : Peg MatchRule :=
  termOf .groupTerm .groupLiteral (upTo (comma.choice (closing.seq finish)))

def specialExpr : Peg MatchRule :=
  rule .specialExpr (special.seq finish)

def negatedList : Peg MatchRule :=
  rule .negatedList
    ((text ['!', '(']).seq (groupTerm.seq ((comma.seq groupTerm).oneOrMore.seq (closing.opt.seq finish))))

def termList : Peg MatchRule :=
  rule .termList (term.seq ((comma.seq term).oneOrMore.seq finish))

def singleTerm : Peg MatchRule :=
  rule .singleTerm (term.seq finish)

def expression : Peg MatchRule :=
  specialExpr.choice (negatedList.choice (termList.choice singleTerm))

end MatchGrammar

/-- The term that a tree stands for. -/
def Term.ofNode (n : Node MatchRule) : Term :=
  let op := match (n.child? .sign).map Node.text with
    | none => .equals
    | some ['!'] => .negate
    | some ['<'] => .less
    | some _ => .greater
  let literal := ((n.child? .literal).or (n.child? .groupLiteral)).elim [] Node.text
  ⟨op, String.ofList (Text.trimRight literal), n.text.contains '%'⟩

/-- The expression that a tree stands for. -/
def MatchExpr.ofNode? (n : Node MatchRule) : Option MatchExpr :=
  match n.rule with
  | .specialExpr => some (.special (((n.child? .special).bind fun s => Special.ofList? s.text).getD .any))
  | .negatedList => some (.noneOf ((n.childrenOf .groupTerm).map Term.ofNode))
  | .termList => some (.anyOf ((n.childrenOf .term).map Term.ofNode))
  | _ => (n.child? .term).map fun term => .single (.ofNode term)

/-- Reads an expression by the grammar, if it is one. -/
def MatchExpr.read? (s : String) : Option MatchExpr :=
  (MatchGrammar.expression.read? (Text.trim s.toList)).bind fun a => a.nodes.head?.bind MatchExpr.ofNode?

theorem Special.ofList?_eq_some_iff {cs : List Char} {s : Special} : ofList? cs = some s ↔ cs = [s.sign] := by
  constructor
  · intro h
    unfold ofList? at h
    split at h
    · cases h
      rfl
    · cases h
      rfl
    · cases h
      rfl
    · cases h
  · rintro rfl
    cases s with
    | notNull => rfl
    | null => rfl
    | any => rfl

namespace MatchGrammar

variable {cs entry back rest : List Char} {name part : MatchRule} {body : Peg MatchRule}

/-! ## Terms -/

/-- The tree of a sign, if there is one. -/
def signNodes (op : TermOp) : List (Node MatchRule) :=
  if op = .equals then [] else [⟨.sign, Term.signOf op, []⟩]

/-- The tree of a term. -/
def termNode (name part : MatchRule) (cs : List Char) : Node MatchRule :=
  let (op, rest) := Term.takeSign (cs.dropWhile Term.isLeadingBlank)
  ⟨name, cs, signNodes op ++ [⟨part, rest, []⟩]⟩

theorem ofNode_termNode (hpart : part = .literal ∨ part = .groupLiteral) (name : MatchRule) (cs : List Char) :
    Term.ofNode (termNode name part cs) = .ofList cs := by
  rw [termNode, Term.ofList]
  generalize Term.takeSign (cs.dropWhile Term.isLeadingBlank) = taken
  obtain ⟨op, rest⟩ := taken
  rcases hpart with rfl | rfl
  · cases op <;> rfl
  · cases op <;> rfl

theorem signOf_append_takeSign (cs : List Char) : Term.signOf (Term.takeSign cs).1 ++ (Term.takeSign cs).2 = cs := by
  unfold Term.takeSign
  split
  · rfl
  · rfl
  · rfl
  · rfl

theorem read?_sign (hrest : ∀ c ∈ rest.head?, c ∉ ['!', '<', '>']) (cs : List Char) :
    sign.opt.read? (cs ++ rest) =
      some ⟨Term.signOf (Term.takeSign cs).1, signNodes (Term.takeSign cs).1, (Term.takeSign cs).2 ++ rest⟩ := by
  cases cs with
  | nil =>
      apply read?_opt_of_none
      apply read?_rule_of_none
      cases rest with
      | nil => rfl
      | cons c rest => exact read?_oneOf_of_not_mem (hrest c rfl) rest
  | cons c cs =>
      by_cases hsign : c ∈ ['!', '<', '>']
      · have hread : sign.opt.read? (c :: (cs ++ rest)) = some ⟨[c], [⟨.sign, [c], []⟩], cs ++ rest⟩ :=
          read?_opt_of_some (read?_rule (read?_oneOf_of_mem hsign _))
        rw [List.cons_append, hread]
        simp only [List.mem_cons, List.not_mem_nil, or_false] at hsign
        rcases hsign with rfl | rfl | rfl
        · rfl
        · rfl
        · rfl
      · rw [Term.takeSign_of_not_sign hsign]
        exact read?_opt_of_none (read?_rule_of_none (read?_oneOf_of_not_mem hsign _))

theorem isLeadingBlank_iff {c : Char} : Term.isLeadingBlank c = true ↔ c ∈ [' ', '\t', '\r', '\n'] := by
  simp [Term.isLeadingBlank, or_assoc]

theorem read?_blanks (hrest : ∀ c ∈ rest.head?, c ∉ [' ', '\t', '\r', '\n']) (cs : List Char) :
    blank.many.read? (cs ++ rest) =
      some ⟨cs.takeWhile Term.isLeadingBlank, [], cs.dropWhile Term.isLeadingBlank ++ rest⟩ := by
  have hblanks : ∀ c ∈ cs.takeWhile Term.isLeadingBlank, c ∈ [' ', '\t', '\r', '\n'] := by
    intro c hc
    exact isLeadingBlank_iff.mp (List.all_eq_true.mp List.all_takeWhile c hc)
  have hbehind : ∀ c ∈ (cs.dropWhile Term.isLeadingBlank ++ rest).head?, c ∉ [' ', '\t', '\r', '\n'] := by
    intro c hc
    have hhead := List.head?_dropWhile_not Term.isLeadingBlank cs
    cases hdrop : cs.dropWhile Term.isLeadingBlank with
    | nil =>
        rw [hdrop] at hc
        exact hrest c hc
    | cons d ds =>
        rw [hdrop] at hc hhead
        obtain rfl : d = c := Option.some.inj hc
        rw [← isLeadingBlank_iff]
        simpa using hhead
  have hread : blank.many.read? (cs.takeWhile Term.isLeadingBlank ++ _) = _ := read?_many_oneOf hblanks hbehind
  rwa [← List.append_assoc, List.takeWhile_append_dropWhile] at hread

/-- A term reads an entry when its literal reads every end of the entry. -/
theorem read?_termOf (hrest : ∀ c ∈ rest.head?, c = ',' ∨ c = ')')
    (hbody : ∀ back, back <:+ entry → body.read? (back ++ rest) = some ⟨back, [], rest⟩) :
    (termOf name part body).read? (entry ++ rest) = some ⟨entry, [termNode name part entry], rest⟩ := by
  have hapart {set : List Char} (hcomma : ',' ∉ set) (hclosing : ')' ∉ set) : ∀ c ∈ rest.head?, c ∉ set := by
    intro c hc
    rcases hrest c hc with rfl | rfl
    · exact hcomma
    · exact hclosing
  have hsigned := signOf_append_takeSign (entry.dropWhile Term.isLeadingBlank)
  have hend : (Term.takeSign (entry.dropWhile Term.isLeadingBlank)).2 <:+ entry :=
    List.IsSuffix.trans ⟨_, hsigned⟩ (List.dropWhile_suffix Term.isLeadingBlank)
  have hblanks := read?_blanks (hapart (by decide) (by decide)) entry
  have hsign := read?_sign (hapart (by decide) (by decide)) (entry.dropWhile Term.isLeadingBlank)
  rw [termOf, read?_rule (read?_seq hblanks (read?_seq hsign (read?_rule (hbody _ hend))))]
  simp only [Reading.named, Reading.followedBy, List.nil_append, hsigned, List.takeWhile_append_dropWhile]
  rfl

theorem read?_comma (cs : List Char) : comma.read? (',' :: cs) = some ⟨[','], [], cs⟩ :=
  read?_text_append [','] cs

theorem read?_term_entry (entry rest : List Char) (h : ',' ∉ entry) :
    term.read? (entry ++ ',' :: rest) = some ⟨entry, [termNode .term .literal entry], ',' :: rest⟩ :=
  read?_termOf (by simp) fun _ hback => read?_upTo_comma (fun hmem => h (hback.subset hmem)) (by simp)

theorem read?_term_last (entry : List Char) (h : ',' ∉ entry) :
    term.read? entry = some ⟨entry, [termNode .term .literal entry], []⟩ := by
  have hread : term.read? (entry ++ []) = some ⟨entry, [termNode .term .literal entry], []⟩ :=
    read?_termOf (by simp) fun _ hback => read?_upTo_comma (fun hmem => h (hback.subset hmem)) (by simp)
  rwa [List.append_nil] at hread

/-- What is left of a group behind its last literal. -/
def leftOf (cs : List Char) : List Char :=
  if cs.getLast? == some ')' then [')'] else []

theorem dropClosing_append_leftOf (cs : List Char) : MatchExpr.dropClosing cs ++ leftOf cs = cs := by
  rw [MatchExpr.dropClosing, leftOf]
  split
  next hlast =>
      obtain ⟨body, rfl⟩ := List.getLast?_eq_some_iff.mp (eq_of_beq hlast)
      rw [List.dropLast_concat]
  · exact List.append_nil cs

theorem leftOf_eq (cs : List Char) : leftOf cs = [] ∨ leftOf cs = [')'] := by
  rw [leftOf]
  split
  · exact .inr rfl
  · exact .inl rfl

theorem leftOf_cons (first rest : List Char) : leftOf (first ++ ',' :: rest) = leftOf rest := by
  have hall : MatchExpr.dropClosing (first ++ ',' :: rest) ++ leftOf (first ++ ',' :: rest) =
      first ++ ',' :: (MatchExpr.dropClosing rest ++ leftOf rest) := by
    rw [dropClosing_append_leftOf, dropClosing_append_leftOf]
  rw [MatchExpr.dropClosing_cons, ← List.cons_append, ← List.append_assoc] at hall
  exact List.append_cancel_left hall

theorem closed_of_leftOf_nil (h : leftOf cs = []) : cs.getLast? ≠ some ')' := by
  intro hlast
  rw [leftOf, if_pos (by rw [hlast]; rfl)] at h
  cases h

/-- A literal of a group stops in front of a comma and of the last parenthesis. -/
theorem read?_groupLiteral (hback : ',' ∉ back)
    (hrest : (∃ more, rest = ',' :: more) ∨ rest = [')'] ∨ rest = [] ∧ back.getLast? ≠ some ')') :
    (upTo (comma.choice (closing.seq finish))).read? (back ++ rest) = some ⟨back, [], rest⟩ := by
  apply read?_upTo
  · intro ending hending hne
    obtain ⟨d, ending, rfl⟩ := List.exists_cons_of_ne_nil hne
    have hcomma : comma.read? (d :: ending ++ rest) = none := by
      apply read?_char_eq_none
      intro hd
      obtain rfl : d = ',' := Option.some.inj hd
      exact hback (hending.subset List.mem_cons_self)
    rw [read?_choice_of_none hcomma]
    by_cases hd : d = ')'
    · subst hd
      -- Something is left behind this parenthesis, so it is not the last one.
      refine read?_seq_of_none_behind (read?_text_append [')'] (ending ++ rest)) (read?_finish ?_)
      intro hnil
      obtain ⟨rfl, rfl⟩ := List.append_eq_nil_iff.mp hnil
      obtain ⟨front, rfl⟩ := hending
      simp at hrest
    · apply read?_seq_of_none
      exact read?_char_eq_none fun h => hd (Option.some.inj h)
  · rcases hrest with ⟨more, rfl⟩ | rfl | ⟨rfl, -⟩
    · rw [read?_choice_of_some (read?_comma more)]
      exact .inr rfl
    · exact .inr (by decide)
    · exact .inl rfl

theorem read?_groupTerm_entry (entry rest : List Char) (h : ',' ∉ entry) :
    groupTerm.read? (entry ++ ',' :: rest) = some ⟨entry, [termNode .groupTerm .groupLiteral entry], ',' :: rest⟩ :=
  read?_termOf (by simp) fun _ hback => read?_groupLiteral (fun hmem => h (hback.subset hmem)) (.inl ⟨rest, rfl⟩)

theorem read?_groupTerm_last (entry : List Char) (h : ',' ∉ entry) :
    groupTerm.read? entry = some ⟨MatchExpr.dropClosing entry,
      [termNode .groupTerm .groupLiteral (MatchExpr.dropClosing entry)], leftOf entry⟩ := by
  have hread : groupTerm.read? (MatchExpr.dropClosing entry ++ leftOf entry) = some ⟨MatchExpr.dropClosing entry,
      [termNode .groupTerm .groupLiteral (MatchExpr.dropClosing entry)], leftOf entry⟩ := by
    apply read?_termOf
    · rcases leftOf_eq entry with hleft | hleft
      · simp [hleft]
      · simp [hleft]
    · intro back hback
      have hcomma : ',' ∉ back := fun hmem => h (MatchExpr.dropClosing_subset entry (hback.subset hmem))
      apply read?_groupLiteral hcomma
      rcases leftOf_eq entry with hleft | hleft
      · have hwhole : MatchExpr.dropClosing entry = entry := by
          rw [← List.append_nil (MatchExpr.dropClosing entry), ← hleft, dropClosing_append_leftOf]
        refine .inr (.inr ⟨hleft, fun hlast => closed_of_leftOf_nil hleft ?_⟩)
        rw [hwhole] at hback
        obtain ⟨front, rfl⟩ := hback
        rw [List.getLast?_append, hlast, Option.some_or]
      · exact .inr (.inl hleft)
  rwa [dropClosing_append_leftOf] at hread

/-! ## Expressions -/

theorem read?_specialExpr (s : Special) :
    specialExpr.read? [s.sign] = some ⟨[s.sign], [⟨.specialExpr, [s.sign], [⟨.special, [s.sign], []⟩]⟩], []⟩ := by
  cases s with
  | notNull => rfl
  | null => rfl
  | any => rfl

theorem read?_specialExpr_of_none (h : Special.ofList? cs = none) : specialExpr.read? cs = none := by
  apply read?_rule_of_none
  cases cs with
  | nil => exact read?_seq_of_none rfl
  | cons c cs =>
      by_cases hc : c ∈ ['+', '-', '*']
      · refine read?_seq_of_none_behind (read?_rule (read?_oneOf_of_mem hc cs)) (read?_finish ?_)
        rintro rfl
        simp only [List.mem_cons, List.not_mem_nil, or_false] at hc
        rcases hc with rfl | rfl | rfl
        · cases h
        · cases h
        · cases h
      · exact read?_seq_of_none (read?_rule_of_none (read?_oneOf_of_not_mem hc cs))

theorem read?_singleTerm (h : ',' ∉ cs) :
    singleTerm.read? cs = some ⟨cs, [⟨.singleTerm, cs, [termNode .term .literal cs]⟩], []⟩ := by
  have hfinish : (finish : Peg MatchRule).read? [] = some (.nothing []) := rfl
  rw [singleTerm, read?_rule (read?_seq (read?_term_last cs h) hfinish)]
  simp

theorem read?_termList (h : ',' ∈ cs) :
    termList.read? cs = some ⟨cs, [⟨.termList, cs, (cs.splitOn ',').map (termNode .term .literal)⟩], []⟩ := by
  obtain ⟨first, rest, rfl, hfirst⟩ := List.eq_append_cons_of_mem h
  have hfinish : (finish : Peg MatchRule).read? [] = some (.nothing []) := rfl
  have hentries : (comma.seq term).many.read? (',' :: rest) =
      some ⟨',' :: rest, (rest.splitOn ',').map (termNode .term .literal), []⟩ :=
    read?_wholeEntries read?_term_entry read?_term_last rest
  have hmore := read?_oneOrMore hentries (List.cons_ne_nil _ _)
  rw [termList, read?_rule (read?_seq (read?_term_entry first rest hfirst) (read?_seq hmore hfinish)),
    splitOn_cons hfirst]
  simp

theorem read?_termList_of_not_mem (h : ',' ∉ cs) : termList.read? cs = none := by
  apply read?_rule_of_none
  apply read?_seq_of_none_behind (read?_term_last cs h)
  exact read?_seq_of_none (read?_oneOrMore_of_none (read?_seq_of_none rfl))

theorem read?_closing (cs : List Char) : closing.opt.read? (leftOf cs) = some ⟨leftOf cs, [], []⟩ := by
  rcases leftOf_eq cs with h | h
  · rw [h]
    rfl
  · rw [h]
    rfl

theorem read?_negatedList (h : ',' ∈ cs) :
    negatedList.read? ('!' :: '(' :: cs) = some ⟨'!' :: '(' :: cs, [⟨.negatedList, '!' :: '(' :: cs,
      ((MatchExpr.dropClosing cs).splitOn ',').map (termNode .groupTerm .groupLiteral)⟩], []⟩ := by
  obtain ⟨first, rest, rfl, hfirst⟩ := List.eq_append_cons_of_mem h
  have hfinish : (finish : Peg MatchRule).read? [] = some (.nothing []) := rfl
  have hopening : (text ['!', '('] : Peg MatchRule).read? ('!' :: '(' :: (first ++ ',' :: rest)) =
      some ⟨['!', '('], [], first ++ ',' :: rest⟩ := read?_text_append ['!', '('] _
  have hentries : (comma.seq groupTerm).many.read? (',' :: rest) = some ⟨',' :: MatchExpr.dropClosing rest,
      ((MatchExpr.dropClosing rest).splitOn ',').map (termNode .groupTerm .groupLiteral), leftOf rest⟩ :=
    read?_entries read?_groupTerm_entry read?_groupTerm_last
      (fun entry h hmem => h (MatchExpr.dropClosing_subset entry hmem))
      (fun entry h => by rcases leftOf_eq entry with hleft | hleft <;> simp [hleft])
      MatchExpr.dropClosing_cons leftOf_cons rest
  have hmore := read?_oneOrMore hentries (List.cons_ne_nil _ _)
  rw [negatedList, read?_rule (read?_seq hopening (read?_seq (read?_groupTerm_entry first rest hfirst)
    (read?_seq hmore (read?_seq (read?_closing rest) hfinish)))), MatchExpr.dropClosing_cons, splitOn_cons hfirst]
  simp [dropClosing_append_leftOf]

theorem read?_negatedList_of_not_group (h : ¬ ['!', '('] <+: cs) : negatedList.read? cs = none :=
  read?_rule_of_none (read?_seq_of_none (read?_text_eq_none h))

theorem read?_negatedList_of_not_mem (h : ',' ∉ cs) : negatedList.read? cs = none := by
  by_cases hgroup : ['!', '('] <+: cs
  · obtain ⟨inner, rfl⟩ := hgroup
    have hinner : ',' ∉ inner := fun hmem => h (List.mem_append_right _ hmem)
    apply read?_rule_of_none
    apply read?_seq_of_none_behind (read?_text_append ['!', '('] inner)
    apply read?_seq_of_none_behind (read?_groupTerm_last inner hinner)
    apply read?_seq_of_none
    apply read?_oneOrMore_of_none
    apply read?_seq_of_none
    rcases leftOf_eq inner with hleft | hleft
    · rw [hleft]
      rfl
    · rw [hleft]
      rfl
  · exact read?_negatedList_of_not_group hgroup

/-- The terms of a list are those of its entries. -/
theorem map_ofNode_childrenOf (hpart : part = .literal ∨ part = .groupLiteral) (list name : MatchRule)
    (cs : List Char) (entries : List (List Char)) :
    ((Node.mk list cs (entries.map (termNode name part))).childrenOf name).map Term.ofNode =
      entries.map Term.ofList := by
  have hall : ∀ n ∈ entries.map (termNode name part), decide (n.rule = name) = true := by
    intro n hn
    obtain ⟨entry, -, rfl⟩ := List.mem_map.mp hn
    exact decide_eq_true rfl
  rw [Node.childrenOf, List.filter_eq_self.mpr hall, List.map_map]
  exact List.map_congr_left fun entry _ => ofNode_termNode hpart name entry

/-- The grammar reads every text, as the expression that the text is. -/
theorem ofNode?_expression (cs : List Char) :
    ((expression.read? cs).bind fun a => a.nodes.head?.bind MatchExpr.ofNode?) = some (MatchExpr.ofTrimmed cs) := by
  cases hspecial : Special.ofList? cs with
  | some s =>
      obtain rfl := Special.ofList?_eq_some_iff.mp hspecial
      rw [expression, read?_choice_of_some (read?_specialExpr s)]
      cases s with
      | notNull => rfl
      | null => rfl
      | any => rfl
  | none =>
      rw [expression, read?_choice_of_none (read?_specialExpr_of_none hspecial)]
      by_cases hcomma : ',' ∈ cs
      · by_cases hgroup : ['!', '('] <+: cs
        · obtain ⟨inner, rfl⟩ := hgroup
          have hinner : ',' ∈ inner := by simpa using hcomma
          have hread := read?_choice_of_some (q := termList.choice singleTerm) (read?_negatedList hinner)
          rw [List.cons_append, List.cons_append, List.nil_append, hread, MatchExpr.ofTrimmed_noneOf hinner,
            MatchExpr.termsOf, ← map_ofNode_childrenOf (.inr rfl) .negatedList .groupTerm ('!' :: '(' :: inner)]
          rfl
        · have hread := read?_choice_of_some (q := singleTerm) (read?_termList hcomma)
          rw [read?_choice_of_none (read?_negatedList_of_not_group hgroup), hread,
            MatchExpr.ofTrimmed_anyOf hcomma hgroup, MatchExpr.termsOf,
            ← map_ofNode_childrenOf (.inl rfl) .termList .term cs]
          rfl
      · rw [read?_choice_of_none (read?_negatedList_of_not_mem hcomma),
          read?_choice_of_none (read?_termList_of_not_mem hcomma), read?_singleTerm hcomma,
          MatchExpr.ofTrimmed_single hspecial hcomma, ← ofNode_termNode (.inl rfl) .term cs]
        rfl

end MatchGrammar

namespace MatchExpr

/-- Every text is an expression of the grammar. -/
theorem read?_eq_parse (s : String) : read? s = some (parse s) :=
  MatchGrammar.ofNode?_expression (Text.trim s.toList)

end MatchExpr

end BugReport
