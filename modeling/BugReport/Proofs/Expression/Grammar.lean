import BugReport.Proofs.Expression.Tidied

/-! # Grammars with ordered choice

A parsing expression reads a text from its start: it fails, or it takes some characters and leaves the rest. A choice
goes to the first alternative that does not fail, a repetition takes as much as it can, and neither is taken back when
what follows fails. What the named rules of a grammar have read is kept as a tree.
-/

namespace BugReport.Grammar

/-- What a rule has read: its name, its text, and what the rules in it have read. -/
structure Node (ρ : Type) where
  rule : ρ
  text : List Char
  children : List (Node ρ)

/-- What an expression has taken, with the rules in it, and what it has left. -/
structure Reading (ρ : Type) where
  text : List Char
  nodes : List (Node ρ)
  rest : List Char

/-- Parsing expressions over names of rules. -/
inductive Peg (ρ : Type) where
  /-- Any one character. -/
  | any
  /-- The given characters. -/
  | text (cs : List Char)
  /-- The end of the text. -/
  | finish
  | seq (first second : Peg ρ)
  /-- The first alternative, or the second where the first one fails. -/
  | choice (first second : Peg ρ)
  | opt (p : Peg ρ)
  /-- As often as the expression can be read. -/
  | many (p : Peg ρ)
  /-- Nothing, where the expression cannot be read. -/
  | absent (p : Peg ρ)
  /-- A rule with its name. -/
  | rule (name : ρ) (p : Peg ρ)

variable {ρ : Type}

namespace Node

def child? [DecidableEq ρ] (n : Node ρ) (name : ρ) : Option (Node ρ) :=
  n.children.find? (·.rule = name)

def childrenOf [DecidableEq ρ] (n : Node ρ) (name : ρ) : List (Node ρ) :=
  n.children.filter (·.rule = name)

end Node

namespace Reading

/-- Nothing is taken. -/
@[simp]
def nothing (cs : List Char) : Reading ρ :=
  ⟨[], [], cs⟩

/-- What is taken first and what is taken from the rest. -/
@[simp]
def followedBy (a b : Reading ρ) : Reading ρ :=
  ⟨a.text ++ b.text, a.nodes ++ b.nodes, b.rest⟩

/-- The reading of a rule. -/
@[simp]
def named (name : ρ) (a : Reading ρ) : Reading ρ :=
  ⟨a.text, [⟨name, a.text, a.nodes⟩], a.rest⟩

end Reading

/-- Reads as often as something is taken. -/
def readMany (read : List Char → Option (Reading ρ)) (cs : List Char) : Reading ρ :=
  match read cs with
  | some a => if a.rest.length < cs.length then a.followedBy (readMany read a.rest) else .nothing cs
  | none => .nothing cs
termination_by cs.length

namespace Peg

@[simp]
def read? : Peg ρ → List Char → Option (Reading ρ)
  | any, cs =>
    match cs with
    | [] => none
    | c :: cs => some ⟨[c], [], cs⟩
  | text t, cs => if t.isPrefixOf cs then some ⟨t, [], cs.drop t.length⟩ else none
  | finish, cs => if cs.isEmpty then some (.nothing cs) else none
  | seq p q, cs => (p.read? cs).bind fun a => (q.read? a.rest).map a.followedBy
  | choice p q, cs => (p.read? cs).or (q.read? cs)
  | opt p, cs => some ((p.read? cs).getD (.nothing cs))
  | many p, cs => some (readMany p.read? cs)
  | absent p, cs => if (p.read? cs).isSome then none else some (.nothing cs)
  | rule name p, cs => (p.read? cs).map (.named name)

def oneOrMore (p : Peg ρ) : Peg ρ :=
  p.seq p.many

/-- One of the given characters. -/
def oneOf (c : Char) : List Char → Peg ρ
  | [] => text [c]
  | d :: cs => (text [c]).choice (oneOf d cs)

/-- The characters up to the first place at which the expression can be read. -/
def upTo (p : Peg ρ) : Peg ρ :=
  (p.absent.seq any).many

variable {p q : Peg ρ} {a b : Reading ρ} {c d : Char} {cs set front rest : List Char} {name : ρ}

/-! ## What is taken and what is left -/

theorem split_readMany {read : List Char → Option (Reading ρ)}
    (hread : ∀ cs a, read cs = some a → a.text ++ a.rest = cs) (cs : List Char) :
    (readMany read cs).text ++ (readMany read cs).rest = cs := by
  fun_induction readMany read cs with
  | case1 cs a ha hlength ih => rw [Reading.followedBy, List.append_assoc, ih, hread cs a ha]
  | case2 => rfl
  | case3 => rfl

/-- Nothing is skipped: what is taken stands in front of what is left. -/
theorem split_of_read? (h : p.read? cs = some a) : a.text ++ a.rest = cs := by
  induction p generalizing cs a with
  | any =>
      cases cs with
      | nil => cases h
      | cons c cs =>
          cases h
          rfl
  | text t =>
      rw [read?] at h
      split at h
      next hprefix =>
          cases h
          obtain ⟨rest, rfl⟩ := List.isPrefixOf_iff_prefix.mp hprefix
          rw [List.drop_left]
      · cases h
  | finish =>
      rw [read?] at h
      split at h
      · cases h
        rfl
      · cases h
  | seq p q ihp ihq =>
      obtain ⟨first, hp, hbehind⟩ := Option.bind_eq_some_iff.mp h
      obtain ⟨second, hq, rfl⟩ := Option.map_eq_some_iff.mp hbehind
      rw [Reading.followedBy, List.append_assoc, ihq hq, ihp hp]
  | choice p q ihp ihq =>
      rcases Option.or_eq_some_iff.mp h with hp | ⟨-, hq⟩
      · exact ihp hp
      · exact ihq hq
  | opt p ih =>
      rw [read?, Option.some.injEq] at h
      cases hp : p.read? cs with
      | none =>
          rw [hp] at h
          cases h
          rfl
      | some b =>
          rw [hp] at h
          cases h
          exact ih hp
  | many p ih =>
      rw [read?, Option.some.injEq] at h
      rw [← h]
      exact split_readMany (fun cs a => ih) cs
  | absent p ih =>
      rw [read?] at h
      split at h
      · cases h
      · cases h
        rfl
  | rule name p ih =>
      obtain ⟨b, hp, rfl⟩ := Option.map_eq_some_iff.mp h
      exact ih (a := b) hp

theorem length_rest_lt (h : p.read? cs = some a) (htext : a.text ≠ []) : a.rest.length < cs.length := by
  rw [← split_of_read? h, List.length_append]
  have hpos := List.length_pos_iff.mpr htext
  omega

/-! ## Single steps -/

theorem read?_seq (hp : p.read? cs = some a) (hq : q.read? a.rest = some b) :
    (p.seq q).read? cs = some (a.followedBy b) := by
  rw [read?, hp, Option.bind_some, hq, Option.map_some]

theorem read?_seq_of_none (hp : p.read? cs = none) : (p.seq q).read? cs = none := by
  rw [read?, hp, Option.bind_none]

theorem read?_seq_of_none_behind (hp : p.read? cs = some a) (hq : q.read? a.rest = none) :
    (p.seq q).read? cs = none := by
  rw [read?, hp, Option.bind_some, hq, Option.map_none]

theorem read?_choice_of_some (hp : p.read? cs = some a) : (p.choice q).read? cs = some a := by
  rw [read?, hp, Option.some_or]

theorem read?_choice_of_none (hp : p.read? cs = none) : (p.choice q).read? cs = q.read? cs := by
  rw [read?, hp, Option.none_or]

theorem read?_opt_of_some (hp : p.read? cs = some a) : p.opt.read? cs = some a := by
  rw [read?, hp, Option.getD_some]

theorem read?_opt_of_none (hp : p.read? cs = none) : p.opt.read? cs = some (.nothing cs) := by
  rw [read?, hp, Option.getD_none]

theorem read?_rule (hp : p.read? cs = some a) : (rule name p).read? cs = some (a.named name) := by
  rw [read?, hp, Option.map_some]

theorem read?_rule_of_none (hp : p.read? cs = none) : (rule name p).read? cs = none := by
  rw [read?, hp, Option.map_none]

theorem read?_absent_of_none (hp : p.read? cs = none) : p.absent.read? cs = some (.nothing cs) := by
  rw [read?, hp]
  rfl

theorem read?_absent_of_isSome (hp : (p.read? cs).isSome) : p.absent.read? cs = none :=
  if_pos hp

theorem read?_finish (h : cs ≠ []) : (finish : Peg ρ).read? cs = none := by
  rw [read?, if_neg (by simpa using h)]

theorem read?_text_append (t rest : List Char) : (text (ρ := ρ) t).read? (t ++ rest) = some ⟨t, [], rest⟩ := by
  have hprefix : t.isPrefixOf (t ++ rest) = true := List.isPrefixOf_iff_prefix.mpr (List.prefix_append t rest)
  rw [read?, if_pos hprefix, List.drop_left]

theorem read?_text_eq_none (h : ¬ set <+: cs) : (text (ρ := ρ) set).read? cs = none := by
  rw [read?, if_neg (mt List.isPrefixOf_iff_prefix.mp h)]

theorem read?_char_eq_none (h : cs.head? ≠ some c) : (text (ρ := ρ) [c]).read? cs = none := by
  apply read?_text_eq_none
  rintro ⟨rest, rfl⟩
  exact h rfl

theorem read?_oneOf_nil (c : Char) (set : List Char) : (oneOf (ρ := ρ) c set).read? [] = none := by
  induction set generalizing c with
  | nil => rfl
  | cons d set ih => rw [oneOf, read?_choice_of_none rfl, ih]

theorem read?_oneOf_of_mem (h : d ∈ c :: set) (rest : List Char) :
    (oneOf (ρ := ρ) c set).read? (d :: rest) = some ⟨[d], [], rest⟩ := by
  have htext : (text (ρ := ρ) [d]).read? (d :: rest) = some ⟨[d], [], rest⟩ := read?_text_append [d] rest
  induction set generalizing c with
  | nil =>
      obtain rfl := List.mem_singleton.mp h
      exact htext
  | cons e set ih =>
      by_cases hd : d = c
      · subst hd
        exact read?_choice_of_some htext
      · have hskip : (text (ρ := ρ) [c]).read? (d :: rest) = none := read?_char_eq_none fun h => hd (Option.some.inj h)
        rw [oneOf, read?_choice_of_none hskip, ih ((List.mem_cons.mp h).resolve_left hd)]

theorem read?_oneOf_of_not_mem (h : d ∉ c :: set) (rest : List Char) :
    (oneOf (ρ := ρ) c set).read? (d :: rest) = none := by
  induction set generalizing c with
  | nil => exact read?_char_eq_none fun hd => h (List.mem_singleton.mpr (Option.some.inj hd))
  | cons e set ih =>
      obtain ⟨hd, hset⟩ := not_or.mp (mt List.mem_cons.mpr h)
      have hskip : (text (ρ := ρ) [c]).read? (d :: rest) = none := read?_char_eq_none fun h => hd (Option.some.inj h)
      rw [oneOf, read?_choice_of_none hskip, ih hset]

/-! ## Repetitions -/

theorem read?_many_of_none (hp : p.read? cs = none) : p.many.read? cs = some (.nothing cs) := by
  rw [read?, readMany, hp]

theorem read?_many_of_some (hp : p.read? cs = some a) (htext : a.text ≠ [])
    (hmany : p.many.read? a.rest = some b) : p.many.read? cs = some (a.followedBy b) := by
  rw [read?, Option.some.injEq] at hmany
  rw [read?, readMany, hp]
  simp only [if_pos (length_rest_lt hp htext), hmany]

/-- A repetition that takes something takes it at least once. -/
theorem read?_oneOrMore (hmany : p.many.read? cs = some a) (htext : a.text ≠ []) :
    p.oneOrMore.read? cs = some a := by
  rw [read?, Option.some.injEq, readMany] at hmany
  cases hp : p.read? cs with
  | none =>
      rw [hp] at hmany
      cases hmany
      exact absurd rfl htext
  | some first =>
      simp only [hp] at hmany
      split at hmany
      · cases hmany
        exact read?_seq hp rfl
      · cases hmany
        exact absurd rfl htext

theorem read?_oneOrMore_of_none (hp : p.read? cs = none) : p.oneOrMore.read? cs = none :=
  read?_seq_of_none hp

theorem read?_many_oneOf (hfront : ∀ d ∈ front, d ∈ c :: set) (hrest : ∀ d ∈ rest.head?, d ∉ c :: set) :
    (oneOf (ρ := ρ) c set).many.read? (front ++ rest) = some ⟨front, [], rest⟩ := by
  induction front with
  | nil =>
      apply read?_many_of_none
      cases rest with
      | nil => exact read?_oneOf_nil c set
      | cons d rest => exact read?_oneOf_of_not_mem (hrest d rfl) rest
  | cons d front ih =>
      obtain ⟨hd, hfront⟩ := List.forall_mem_cons.mp hfront
      rw [List.cons_append, read?_many_of_some (read?_oneOf_of_mem hd _) (List.cons_ne_nil _ _) (ih hfront)]
      rfl

/-- What stands before the first place at which an expression can be read. -/
theorem read?_upTo (hfront : ∀ back, back <:+ front → back ≠ [] → p.read? (back ++ rest) = none)
    (hrest : rest = [] ∨ (p.read? rest).isSome) : (upTo p).read? (front ++ rest) = some ⟨front, [], rest⟩ := by
  induction front with
  | nil =>
      apply read?_many_of_none
      rw [List.nil_append]
      cases hp : p.read? rest with
      | some a => exact read?_seq_of_none (read?_absent_of_isSome (by rw [hp]; rfl))
      | none =>
          obtain rfl : rest = [] := hrest.resolve_right (by rw [hp]; exact Bool.false_ne_true)
          exact read?_seq_of_none_behind (read?_absent_of_none hp) rfl
  | cons c front ih =>
      have hskip : p.absent.read? (c :: front ++ rest) = some (.nothing (c :: front ++ rest)) :=
        read?_absent_of_none (hfront _ List.suffix_rfl (List.cons_ne_nil _ _))
      have hstep : (p.absent.seq any).read? (c :: front ++ rest) = some ⟨[c], [], front ++ rest⟩ :=
        read?_seq (b := ⟨[c], [], front ++ rest⟩) hskip rfl
      have hmany := ih fun back hback hne => hfront back (hback.trans (List.suffix_cons c front)) hne
      rw [upTo, read?_many_of_some hstep (List.cons_ne_nil _ _) hmany]
      rfl

theorem read?_upTo_oneOf (c : Char) (set : List Char) (hfront : ∀ d ∈ front, d ∉ c :: set)
    (hrest : ∀ d ∈ rest.head?, d ∈ c :: set) :
    (upTo (oneOf (ρ := ρ) c set)).read? (front ++ rest) = some ⟨front, [], rest⟩ := by
  apply read?_upTo
  · intro back hback hne
    obtain ⟨d, back, rfl⟩ := List.exists_cons_of_ne_nil hne
    exact read?_oneOf_of_not_mem (hfront d (hback.subset List.mem_cons_self)) (back ++ rest)
  · cases rest with
    | nil => exact .inl rfl
    | cons d rest =>
        rw [read?_oneOf_of_mem (hrest d rfl) rest]
        exact .inr rfl

/-! ## Entries between commas -/

theorem read?_upTo_comma (hfront : ',' ∉ front) (hrest : ∀ c ∈ rest.head?, c = ',') :
    (upTo (text (ρ := ρ) [','])).read? (front ++ rest) = some ⟨front, [], rest⟩ := by
  refine read?_upTo_oneOf ',' [] ?_ fun c hc => List.mem_singleton.mpr (hrest c hc)
  intro c hc hmem
  obtain rfl := List.mem_singleton.mp hmem
  exact hfront hc

/-- Entries behind commas are read one by one, when an entry in front of a comma is read up to it, and a last one up to
what is kept of it. -/
theorem read?_entries {node : List Char → Node ρ} {keep leave : List Char → List Char}
    (hentry : ∀ entry rest, ',' ∉ entry → p.read? (entry ++ ',' :: rest) = some ⟨entry, [node entry], ',' :: rest⟩)
    (hlast : ∀ entry, ',' ∉ entry → p.read? entry = some ⟨keep entry, [node (keep entry)], leave entry⟩)
    (hkept : ∀ entry, ',' ∉ entry → ',' ∉ keep entry) (hleft : ∀ entry, ',' ∉ entry → ',' ∉ leave entry)
    (hkeep : ∀ first rest, keep (first ++ ',' :: rest) = first ++ ',' :: keep rest)
    (hleave : ∀ first rest, leave (first ++ ',' :: rest) = leave rest) (cs : List Char) :
    ((text [',']).seq p).many.read? (',' :: cs) =
      some ⟨',' :: keep cs, ((keep cs).splitOn ',').map node, leave cs⟩ := by
  have hcomma (cs : List Char) : (text (ρ := ρ) [',']).read? (',' :: cs) = some ⟨[','], [], cs⟩ :=
    read?_text_append [','] cs
  induction cs using entries_induction with
  | single cs hcs =>
      have hstep := read?_seq (hcomma cs) (hlast cs hcs)
      have hstop : ((text [',']).seq p).read? (leave cs) = none :=
        read?_seq_of_none (read?_char_eq_none fun h => hleft cs hcs (List.mem_of_mem_head? h))
      rw [read?_many_of_some hstep (List.cons_ne_nil _ _) (read?_many_of_none hstop),
        List.splitOn_eq_singleton (hkept cs hcs)]
      simp
  | cons first rest hfirst ih =>
      have hstep := read?_seq (hcomma _) (hentry first rest hfirst)
      rw [read?_many_of_some hstep (List.cons_ne_nil _ _) ih, hkeep, hleave, splitOn_cons hfirst]
      simp

theorem read?_wholeEntries {node : List Char → Node ρ}
    (hentry : ∀ entry rest, ',' ∉ entry → p.read? (entry ++ ',' :: rest) = some ⟨entry, [node entry], ',' :: rest⟩)
    (hlast : ∀ entry, ',' ∉ entry → p.read? entry = some ⟨entry, [node entry], []⟩) (cs : List Char) :
    ((text [',']).seq p).many.read? (',' :: cs) = some ⟨',' :: cs, (cs.splitOn ',').map node, []⟩ :=
  @read?_entries ρ p node id (fun _ => []) hentry hlast (fun _ h => h) (fun _ _ => List.not_mem_nil) (fun _ _ => rfl)
    (fun _ _ => rfl) cs

/-- A list of entries is read to its end. -/
theorem read?_list {node : List Char → Node ρ}
    (hentry : ∀ entry rest, ',' ∉ entry → p.read? (entry ++ ',' :: rest) = some ⟨entry, [node entry], ',' :: rest⟩)
    (hlast : ∀ entry, ',' ∉ entry → p.read? entry = some ⟨entry, [node entry], []⟩) (cs : List Char) :
    (p.seq (((text [',']).seq p).many.seq finish)).read? cs = some ⟨cs, (cs.splitOn ',').map node, []⟩ := by
  have hfinish : (finish : Peg ρ).read? [] = some (.nothing []) := rfl
  by_cases hcs : ',' ∈ cs
  · obtain ⟨first, rest, rfl, hfirst⟩ := List.eq_append_cons_of_mem hcs
    rw [read?_seq (hentry first rest hfirst) (read?_seq (read?_wholeEntries hentry hlast rest) hfinish),
      splitOn_cons hfirst]
    simp
  · have hstop : ((text [',']).seq p).many.read? [] = some (.nothing []) :=
      read?_many_of_none (read?_seq_of_none rfl)
    rw [read?_seq (hlast cs hcs) (read?_seq hstop hfinish), List.splitOn_eq_singleton hcs]
    simp

end Peg

end BugReport.Grammar
