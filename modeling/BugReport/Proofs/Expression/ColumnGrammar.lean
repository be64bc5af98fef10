import BugReport.Expression.Columns
import BugReport.Proofs.Expression.Grammar

/-! # The grammar of column lists

A list of columns is a list of edits if a sign stands in front of it, and else a new list. The grammar reads every
text, and what it reads is what the list is read as.
-/

namespace BugReport

open Grammar Grammar.Peg

/-- The rules of the grammar. -/
inductive ColumnRule where
  | op
  | name
  | title
  | ref
  | edit
  | delta
  | list
  deriving DecidableEq

namespace ColumnGrammar

def op : Peg ColumnRule :=
  rule .op (oneOf '+' ['-'])

def comma : Peg ColumnRule :=
  text [',']

def colon : Peg ColumnRule :=
  text [':']

/-- A name or a title, which ends at the next separator. -/
def label (part : ColumnRule) : Peg ColumnRule :=
  rule part (upTo (comma.choice colon))

/-- What follows a title up to the next entry. -/
def extra : Peg ColumnRule :=
  colon.seq (upTo comma)

def ref : Peg ColumnRule :=
  rule .ref ((label .name).seq ((colon.seq (label .title)).opt.seq extra.opt))

def edit : Peg ColumnRule :=
  rule .edit (op.opt.seq ref)

def delta : Peg ColumnRule :=
  rule .delta (op.seq (edit.seq ((comma.seq edit).many.seq finish)))

def list : Peg ColumnRule :=
  rule .list (ref.seq ((comma.seq ref).many.seq finish))

def expression : Peg ColumnRule :=
  delta.choice list

end ColumnGrammar

/-- The column that a tree stands for. -/
def ColumnRef.ofNode (n : Node ColumnRule) : ColumnRef :=
  ⟨String.ofList (Text.trim ((n.child? .name).elim [] Node.text)),
    (n.child? .title).map fun title => String.ofList title.text⟩

def ColumnOp.ofNode (n : Node ColumnRule) : ColumnOp :=
  if n.text = ['-'] then .remove else .add

/-- The edit that a tree stands for, if it has a column. -/
def ColumnEdit.ofNode? (default : ColumnOp) (n : Node ColumnRule) : Option ColumnEdit :=
  (n.child? .ref).map fun column => ⟨(n.child? .op).elim default ColumnOp.ofNode, .ofNode column⟩

/-- The list that a tree stands for. Entries without a name are dropped. -/
def ColumnsExpr.ofNode (n : Node ColumnRule) : ColumnsExpr :=
  match n.rule with
  | .delta =>
    let default := (n.child? .op).elim .add ColumnOp.ofNode
    .delta (((n.childrenOf .edit).filterMap (ColumnEdit.ofNode? default)).filter (·.column.name != ""))
  | _ => .replace (((n.childrenOf .ref).map ColumnRef.ofNode).filter (·.name != ""))

/-- Reads a list by the grammar, if it is one. -/
def ColumnsExpr.read? (s : String) : Option ColumnsExpr :=
  (ColumnGrammar.expression.read? (Text.trim s.toList)).bind fun a => a.nodes.head?.map ColumnsExpr.ofNode

/-! ## Entries -/

/-- An entry is a name, or a name and a title, or a name, a title and something that does not count. -/
theorem ColumnRef.entry_cases {motive : List Char → Prop} (plain : ∀ name, ':' ∉ name → motive name)
    (titled : ∀ name title, ':' ∉ name → ':' ∉ title → motive (name ++ ':' :: title))
    (surplus : ∀ name title more, ':' ∉ name → ':' ∉ title → motive (name ++ ':' :: (title ++ ':' :: more)))
    (cs : List Char) : motive cs := by
  by_cases hfirst : ':' ∈ cs
  · obtain ⟨name, tail, rfl, hname⟩ := List.eq_append_cons_of_mem hfirst
    by_cases hsecond : ':' ∈ tail
    · obtain ⟨title, more, rfl, htitle⟩ := List.eq_append_cons_of_mem hsecond
      exact surplus name title more hname htitle
    · exact titled name tail hname hsecond
  · exact plain cs hfirst

theorem splitOn_colon {name : List Char} (h : ':' ∉ name) (cs : List Char) :
    (name ++ ':' :: cs).splitOn ':' = name :: cs.splitOn ':' := by
  rw [List.splitOn_append_cons_self, List.splitOn_eq_singleton h, List.singleton_append]

namespace ColumnRef

variable {name title : List Char}

theorem ofList_plain (h : ':' ∉ name) : ofList name = ⟨String.ofList (Text.trim name), none⟩ := by
  rw [ofList, List.splitOn_eq_singleton h]

theorem ofList_titled (hname : ':' ∉ name) (htitle : ':' ∉ title) :
    ofList (name ++ ':' :: title) = ⟨String.ofList (Text.trim name), some (String.ofList title)⟩ := by
  rw [ofList, splitOn_colon hname, List.splitOn_eq_singleton htitle]

/-- What follows a title does not count. -/
theorem ofList_surplus (hname : ':' ∉ name) (htitle : ':' ∉ title) (more : List Char) :
    ofList (name ++ ':' :: (title ++ ':' :: more)) =
      ⟨String.ofList (Text.trim name), some (String.ofList title)⟩ := by
  rw [ofList, splitOn_colon hname, splitOn_colon htitle]

end ColumnRef

namespace ColumnOp

variable {cs front rest : List Char} {o : ColumnOp}

theorem sign_mem (o : ColumnOp) : o.sign ∈ ['+', '-'] := by
  cases o with
  | add => decide
  | remove => decide

theorem take?_eq_some_iff : ColumnOp.take? cs = some (o, rest) ↔ cs = o.sign :: rest := by
  constructor
  · intro h
    unfold ColumnOp.take? at h
    split at h
    · cases h
      rfl
    · cases h
      rfl
    · cases h
  · rintro rfl
    cases o with
    | add => rfl
    | remove => rfl

theorem take?_eq_none (h : ∀ c ∈ cs.head?, c ∉ ['+', '-']) : take? cs = none := by
  rw [Option.eq_none_iff_forall_ne_some]
  rintro ⟨o, rest⟩ hsome
  obtain rfl := take?_eq_some_iff.mp hsome
  exact h o.sign rfl (sign_mem o)

/-- Whether a text starts with a sign is settled in front of a separator. -/
theorem take?_append (hrest : ∀ c ∈ rest.head?, c ∉ ['+', '-']) (front : List Char) :
    take? (front ++ rest) = (take? front).map fun taken => (taken.1, taken.2 ++ rest) := by
  cases front with
  | nil => exact take?_eq_none hrest
  | cons c front =>
      cases hfront : take? (c :: front) with
      | some taken =>
          obtain ⟨o, front⟩ := taken
          rw [take?_eq_some_iff.mp hfront]
          exact take?_eq_some_iff.mpr rfl
      | none =>
          apply take?_eq_none
          rintro d hd hmem
          obtain rfl : c = d := Option.some.inj hd
          rcases List.mem_pair.mp hmem with rfl | rfl
          · cases hfront
          · cases hfront

end ColumnOp

namespace ColumnGrammar

variable {cs entry front rest : List Char} {part : ColumnRule} {o : ColumnOp}

/-! ## Columns -/

/-- The tree of a column. -/
def refNode (cs : List Char) : Node ColumnRule :=
  match cs.splitOn ':' with
  | name :: title :: _ => ⟨.ref, cs, [⟨.name, name, []⟩, ⟨.title, title, []⟩]⟩
  | _ => ⟨.ref, cs, [⟨.name, cs, []⟩]⟩

theorem ofNode_refNode (cs : List Char) : ColumnRef.ofNode (refNode cs) = .ofList cs := by
  cases cs using ColumnRef.entry_cases with
  | plain name hname =>
      rw [refNode, List.splitOn_eq_singleton hname, ColumnRef.ofList_plain hname]
      rfl
  | titled name title hname htitle =>
      rw [refNode, splitOn_colon hname, List.splitOn_eq_singleton htitle, ColumnRef.ofList_titled hname htitle]
      rfl
  | surplus name title more hname htitle =>
      rw [refNode, splitOn_colon hname, splitOn_colon htitle, ColumnRef.ofList_surplus hname htitle]
      rfl

theorem read?_label (part : ColumnRule) (rest : List Char) (hcomma : ',' ∉ front) (hcolon : ':' ∉ front)
    (hrest : ∀ c ∈ rest.head?, c ∈ [',', ':']) :
    (label part).read? (front ++ rest) = some ⟨front, [⟨part, front, []⟩], rest⟩ := by
  refine read?_rule (a := ⟨front, [], rest⟩) (read?_upTo_oneOf ',' [':'] ?_ hrest)
  intro c hc hmem
  rcases List.mem_pair.mp hmem with rfl | rfl
  · exact hcomma hc
  · exact hcolon hc

theorem read?_colon (cs : List Char) : colon.read? (':' :: cs) = some ⟨[':'], [], cs⟩ :=
  read?_text_append [':'] cs

theorem read?_title (rest : List Char) (hcomma : ',' ∉ front) (hcolon : ':' ∉ front)
    (hrest : ∀ c ∈ rest.head?, c ∈ [',', ':']) :
    (colon.seq (label .title)).opt.read? (':' :: (front ++ rest)) =
      some ⟨':' :: front, [⟨.title, front, []⟩], rest⟩ :=
  read?_opt_of_some (read?_seq (read?_colon (front ++ rest)) (read?_label .title rest hcomma hcolon hrest))

theorem read?_extra (hcomma : ',' ∉ cs) (hrest : ∀ c ∈ rest.head?, c = ',') :
    extra.opt.read? (':' :: (cs ++ rest)) = some ⟨':' :: cs, [], rest⟩ :=
  read?_opt_of_some (read?_seq (read?_colon (cs ++ rest)) (read?_upTo_comma hcomma hrest))

/-- A column is read up to the comma behind it. -/
theorem read?_ref (hentry : ',' ∉ entry) (rest : List Char) (hrest : ∀ c ∈ rest.head?, c = ',') :
    ref.read? (entry ++ rest) = some ⟨entry, [refNode entry], rest⟩ := by
  have hbehind : ∀ c ∈ rest.head?, c ∈ [',', ':'] := fun c hc => by simp [hrest c hc]
  have hnoColon : colon.read? rest = none := read?_char_eq_none fun h => absurd (hrest ':' h) (by decide)
  have hnoTitle : (colon.seq (label .title)).opt.read? rest = some (.nothing rest) :=
    read?_opt_of_none (read?_seq_of_none hnoColon)
  have hnoExtra : extra.opt.read? rest = some (.nothing rest) := read?_opt_of_none (read?_seq_of_none hnoColon)
  cases entry using ColumnRef.entry_cases with
  | plain name hname =>
      have hread := read?_label .name rest hentry hname hbehind
      rw [ref, read?_rule (read?_seq hread (read?_seq hnoTitle hnoExtra)), refNode,
        List.splitOn_eq_singleton hname]
      simp
  | titled name title hname htitle =>
      obtain ⟨hcommaName, hcommaTitle⟩ : ',' ∉ name ∧ ',' ∉ title := by simpa using hentry
      have hread := read?_label .name (':' :: (title ++ rest)) hcommaName hname (by simp)
      have hreadTitle := read?_title rest hcommaTitle htitle hbehind
      rw [List.append_assoc, List.cons_append, ref,
        read?_rule (read?_seq hread (read?_seq hreadTitle hnoExtra)), refNode, splitOn_colon hname,
        List.splitOn_eq_singleton htitle]
      simp
  | surplus name title more hname htitle =>
      obtain ⟨hcommaName, hcommaTitle, hcommaMore⟩ : ',' ∉ name ∧ ',' ∉ title ∧ ',' ∉ more := by simpa using hentry
      have hread := read?_label .name (':' :: (title ++ ':' :: (more ++ rest))) hcommaName hname (by simp)
      have hreadTitle := read?_title (':' :: (more ++ rest)) hcommaTitle htitle (by simp)
      have hreadMore := read?_extra hcommaMore hrest
      simp only [List.append_assoc, List.cons_append]
      rw [ref, read?_rule (read?_seq hread (read?_seq hreadTitle hreadMore)), refNode, splitOn_colon hname,
        splitOn_colon htitle]
      simp

/-! ## Edits -/

def opNode (o : ColumnOp) : Node ColumnRule :=
  ⟨.op, [o.sign], []⟩

/-- The tree of an edit. -/
def editNode (cs : List Char) : Node ColumnRule :=
  match ColumnOp.take? cs with
  | some (o, rest) => ⟨.edit, cs, [opNode o, refNode rest]⟩
  | none => ⟨.edit, cs, [refNode cs]⟩

theorem ofNode_opNode (o : ColumnOp) : ColumnOp.ofNode (opNode o) = o := by
  cases o with
  | add => rfl
  | remove => rfl

theorem rule_refNode (cs : List Char) : (refNode cs).rule = .ref := by
  rw [refNode]
  split
  · rfl
  · rfl

theorem ofNode?_editNode (default : ColumnOp) (cs : List Char) :
    ColumnEdit.ofNode? default (editNode cs) = some (.ofList default cs) := by
  rw [editNode, ColumnEdit.ofList]
  cases ColumnOp.take? cs with
  | none =>
      have hop : (Node.mk .edit cs [refNode cs]).child? .op = none := by simp [Node.child?, rule_refNode]
      have href : (Node.mk .edit cs [refNode cs]).child? .ref = some (refNode cs) := by
        simp [Node.child?, rule_refNode]
      simp only [ColumnEdit.ofNode?, hop, href, Option.map_some, ofNode_refNode]
      rfl
  | some taken =>
      obtain ⟨o, rest⟩ := taken
      have hop : (Node.mk .edit cs [opNode o, refNode rest]).child? .op = some (opNode o) := rfl
      have href : (Node.mk .edit cs [opNode o, refNode rest]).child? .ref = some (refNode rest) := by
        simp [Node.child?, opNode, rule_refNode]
      simp only [ColumnEdit.ofNode?, hop, href, Option.map_some, ofNode_refNode, Option.elim_some, ofNode_opNode]
      rfl

theorem read?_op (o : ColumnOp) (cs : List Char) : op.read? (o.sign :: cs) = some ⟨[o.sign], [opNode o], cs⟩ := by
  exact read?_rule (read?_oneOf_of_mem o.sign_mem cs)

theorem read?_op_of_none (h : ColumnOp.take? cs = none) : op.read? cs = none := by
  apply read?_rule_of_none
  cases cs with
  | nil => rfl
  | cons c cs =>
      apply read?_oneOf_of_not_mem
      intro hmem
      rcases List.mem_pair.mp hmem with rfl | rfl
      · cases h
      · cases h

theorem read?_edit (hentry : ',' ∉ entry) (rest : List Char) (hrest : ∀ c ∈ rest.head?, c = ',') :
    edit.read? (entry ++ rest) = some ⟨entry, [editNode entry], rest⟩ := by
  cases htake : ColumnOp.take? entry with
  | none =>
      have hread : op.opt.read? (entry ++ rest) = some (.nothing (entry ++ rest)) := by
        apply read?_opt_of_none
        apply read?_op_of_none
        rw [ColumnOp.take?_append fun c hc => by simp [hrest c hc], htake, Option.map_none]
      rw [edit, read?_rule (read?_seq hread (read?_ref hentry rest hrest)), editNode, htake]
      rfl
  | some taken =>
      obtain ⟨o, column⟩ := taken
      obtain rfl := ColumnOp.take?_eq_some_iff.mp htake
      have hcolumn : ',' ∉ column := fun hmem => hentry (List.mem_cons_of_mem _ hmem)
      rw [edit, List.cons_append,
        read?_rule (read?_seq (read?_opt_of_some (read?_op o _)) (read?_ref hcolumn rest hrest)), editNode, htake]
      rfl

/-! ## Lists -/

theorem read?_columns (cs : List Char) :
    list.read? cs = some ⟨cs, [⟨.list, cs, (cs.splitOn ',').map refNode⟩], []⟩ := by
  have hread : (ref.seq ((comma.seq ref).many.seq finish)).read? cs = some ⟨cs, (cs.splitOn ',').map refNode, []⟩ :=
    read?_list (fun _ _ h => read?_ref h _ (by simp)) (fun _ h => by simpa using read?_ref h [] (by simp)) cs
  rw [list, read?_rule hread]
  rfl

theorem read?_delta (o : ColumnOp) (cs : List Char) :
    delta.read? (o.sign :: cs) =
      some ⟨o.sign :: cs, [⟨.delta, o.sign :: cs, opNode o :: (cs.splitOn ',').map editNode⟩], []⟩ := by
  have hread : (edit.seq ((comma.seq edit).many.seq finish)).read? cs =
      some ⟨cs, (cs.splitOn ',').map editNode, []⟩ :=
    read?_list (fun _ _ h => read?_edit h _ (by simp)) (fun _ h => by simpa using read?_edit h [] (by simp)) cs
  rw [delta, read?_rule (read?_seq (read?_op o cs) hread)]
  rfl

/-- The columns of a list are those of its entries. -/
theorem map_ofNode_refNode (cs : List Char) (entries : List (List Char)) :
    ((Node.mk .list cs (entries.map refNode)).childrenOf .ref).map ColumnRef.ofNode = entries.map .ofList := by
  have hall : ∀ n ∈ entries.map refNode, decide (n.rule = .ref) = true :=
    List.forall_mem_map.mpr fun entry _ => decide_eq_true (rule_refNode entry)
  rw [Node.childrenOf, List.filter_eq_self.mpr hall, List.map_map]
  exact List.map_congr_left fun entry _ => ofNode_refNode entry

theorem rule_editNode (cs : List Char) : (editNode cs).rule = .edit := by
  rw [editNode]
  split
  · rfl
  · rfl

theorem filterMap_ofNode?_editNode (default : ColumnOp) (cs : List Char) (entries : List (List Char)) :
    ((Node.mk .delta cs (opNode o :: entries.map editNode)).childrenOf .edit).filterMap
      (ColumnEdit.ofNode? default) = entries.map (.ofList default) := by
  have hall : ∀ n ∈ entries.map editNode, decide (n.rule = .edit) = true :=
    List.forall_mem_map.mpr fun entry _ => decide_eq_true (rule_editNode entry)
  have hchildren : (Node.mk .delta cs (opNode o :: entries.map editNode)).childrenOf .edit = entries.map editNode :=
    List.filter_eq_self.mpr hall
  rw [hchildren, List.filterMap_map, ← List.filterMap_eq_map]
  exact List.filterMap_congr fun entry _ => ofNode?_editNode default entry

/-- The grammar reads every text, as the list that the text is. -/
theorem ofNode_expression (cs : List Char) :
    ((expression.read? cs).bind fun a => a.nodes.head?.map ColumnsExpr.ofNode) = some (ColumnsExpr.ofTrimmed cs) := by
  cases htake : ColumnOp.take? cs with
  | some taken =>
      obtain ⟨o, rest⟩ := taken
      obtain rfl := ColumnOp.take?_eq_some_iff.mp htake
      have hop : (Node.mk .delta (o.sign :: rest) (opNode o :: (rest.splitOn ',').map editNode)).child? .op =
          some (opNode o) := rfl
      rw [expression, read?_choice_of_some (read?_delta o rest), ColumnsExpr.ofTrimmed, htake]
      simp only [Option.bind_some, List.head?_cons, Option.map_some, ColumnsExpr.ofNode, hop, Option.elim_some,
        ofNode_opNode, filterMap_ofNode?_editNode]
  | none =>
      have hskip : delta.read? cs = none := read?_rule_of_none (read?_seq_of_none (read?_op_of_none htake))
      rw [expression, read?_choice_of_none hskip, read?_columns, ColumnsExpr.ofTrimmed, htake]
      simp only [← map_ofNode_refNode cs]
      rfl

end ColumnGrammar

/-- Every text is a list of the grammar. -/
theorem ColumnsExpr.read?_eq_parse (s : String) : read? s = some (parse s) :=
  ColumnGrammar.ofNode_expression (Text.trim s.toList)

end BugReport
