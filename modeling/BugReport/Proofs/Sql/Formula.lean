import BugReport.Proofs.Sql.Meaning
import BugReport.Text.Blank
import BugReport.Text.Split
import Mathlib.Data.String.Basic

/-! # Reading conditions

The pieces of conditions read back as a database reads them: a column is compared with what is bound to a slot, AND
binds tighter than OR, and what stands in parentheses is one operand. How texts are ordered and which of them fit a
pattern is left to the collation of the database.
-/

namespace BugReport.Sql

/-! ## Collations -/

/-- How a database compares texts: which comes first, and which fit a pattern. -/
structure Collation where
  lt : String → String → Prop
  like : (x : String) → (pattern : String) → Prop
  strictTotal : IsStrictTotalOrder String lt

namespace Collation

/-- Texts in the order of their characters, and patterns as in `likes`. -/
def byCharacters : Collation where
  lt := (· < ·)
  like x pattern := likes pattern.toList x.toList
  strictTotal := inferInstance

variable (collation : Collation)

/-- What an operator says about the text in a column and a bound one. -/
def Relates (operator : Operator) (x text : String) : Prop :=
  match operator with
  | .eq => x = text
  | .ne => x ≠ text
  | .lt => collation.lt x text
  | .gt => collation.lt text x
  | .le => ¬ collation.lt text x
  | .ge => ¬ collation.lt x text
  | .like => collation.like x text
  | .notLike => ¬ collation.like x text

theorem byCharacters_relates_iff {operator : Operator} {x text : String} :
    byCharacters.Relates operator x text ↔ operator.compares x text = true := by
  cases operator <;> simp [Relates, byCharacters, Operator.compares]

/-- Of two different texts exactly one comes first. -/
theorem lt_iff_not_lt {x text : String} (hne : x ≠ text) : collation.lt text x ↔ ¬ collation.lt x text := by
  have := collation.strictTotal
  constructor
  · exact asymm
  · intro hlt
    rcases trichotomous_of collation.lt x text with h | h | h
    · exact absurd h hlt
    · exact absurd h hne
    · exact h

end Collation

/-! ## Formulas -/

/-- What the text of conditions says. -/
inductive Formula where
  | truth
  | isNull (column : Column)
  | isNotNull (column : Column)
  | isPositive (column : Column)
  | comparison (column : Column) (c : Comparison)
  | and (f g : Formula)
  | or (f g : Formula)
  deriving DecidableEq, Repr

namespace Formula

/-- Whether a formula is true of a row. A comparison with nothing is not true. -/
def Holds (collation : Collation) (row : Tuple) (texts : List String) : Formula → Prop
  | truth => True
  | isNull column => row.cell column = none
  | isNotNull column => (row.cell column).isSome
  | isPositive column => row.positive column = true
  | comparison column c =>
    ∃ x ∈ row.cell column, ∃ text ∈ textOfSlot? texts c.slot, collation.Relates c.operator x text
  | and f g => f.Holds collation row texts ∧ g.Holds collation row texts
  | or f g => f.Holds collation row texts ∨ g.Holds collation row texts

variable {collation : Collation} {row : Tuple} {texts : List String} {column : Column}

theorem holds_foldl_or (f : Formula) (fs : List Formula) :
    (fs.foldl or f).Holds collation row texts ↔ ∃ g ∈ f :: fs, g.Holds collation row texts := by
  induction fs generalizing f with
  | nil => simp
  | cons g fs ih => simp [ih, Holds, or_assoc]

theorem holds_foldl_and (f : Formula) (fs : List Formula) :
    (fs.foldl and f).Holds collation row texts ↔ ∀ g ∈ f :: fs, g.Holds collation row texts := by
  induction fs generalizing f with
  | nil => simp
  | cons g fs ih => simp [ih, Holds, and_assoc]

theorem holds_comparison_iff {c : Comparison} {x text : String} (hcell : row.cell column = some x)
    (htext : textOfSlot? texts c.slot = some text) :
    (comparison column c).Holds collation row texts ↔ collation.Relates c.operator x text := by
  simp [Holds, hcell, htext]

theorem holds_comparison_byCharacters {c : Comparison} :
    (comparison column c).Holds .byCharacters row texts ↔ c.Holds row texts column := by
  simp only [Holds, Comparison.Holds, Collation.byCharacters_relates_iff]

end Formula

/-! ## Reading -/

/-- The operator between a column and a slot. Blanks around it do not count. -/
def Operator.ofText? (s : String) : Option Operator :=
  match Text.trimmed s with
  | "=" => some .eq
  | "<>" => some .ne
  | "<" => some .lt
  | ">" => some .gt
  | "<=" => some .le
  | ">=" => some .ge
  | "LIKE" => some .like
  | "NOT LIKE" => some .notLike
  | _ => none

/-- A test of a column by itself, which stands behind it. -/
def Formula.ofTest? (column : Column) (s : String) : Option Formula :=
  match Text.trimmed s with
  | "IS NULL" => some (.isNull column)
  | "IS NOT NULL" => some (.isNotNull column)
  | "> 0" => some (.isPositive column)
  | _ => none

/-- What formulas are read from. -/
inductive Symbol where
  | operand (f : Formula)
  | and
  | or
  | opening
  | closing
  deriving DecidableEq, Repr

def Symbol.ofWord? (word : String) : Option Symbol :=
  match word with
  | "1=1" => some (.operand .truth)
  | "AND" => some .and
  | "OR" => some .or
  | "(" => some .opening
  | ")" => some .closing
  | _ => none

/-- The symbols of a text without columns. A parenthesis is a word of its own. -/
def symbolsOf? (s : String) : Option (List Symbol) :=
  (Text.wordsOf (Text.substitute '(' " ( " (Text.substitute ')' " ) " s))).mapM Symbol.ofWord?

/-- What was read behind an opening parenthesis: the alternatives before the last OR, the conjuncts from there to the
last AND, and the operand behind it. -/
structure Level where
  alternatives : Option Formula := none
  conjuncts : Option Formula := none
  operand : Option Formula := none

namespace Level

/-- An operand cannot stand right behind another one. -/
def put? (l : Level) (f : Formula) : Option Level :=
  if l.operand.isNone then some { l with operand := some f } else none

def conjunction? (l : Level) : Option Formula :=
  l.operand.map fun f => l.conjuncts.elim f (·.and f)

def disjunction? (l : Level) : Option Formula :=
  l.conjunction?.map fun f => l.alternatives.elim f (·.or f)

end Level

/-- Reads a symbol. The levels are those of the parentheses that are open, from the inside out. -/
def step? : List Level → Symbol → Option (List Level)
  | l :: outer, .operand f => (l.put? f).map (· :: outer)
  | l :: outer, .and => l.conjunction?.map fun f => { l with conjuncts := some f, operand := none } :: outer
  | l :: outer, .or => l.disjunction?.map fun f => { alternatives := some f } :: outer
  | l :: outer, .opening => if l.operand.isNone then some ({} :: l :: outer) else none
  | inner :: l :: outer, .closing => inner.disjunction?.bind fun f => (l.put? f).map (· :: outer)
  | _, _ => none

/-- Reads pieces. A column stands before a test of its own, or before an operator and a slot. -/
def read? (levels : List Level) : List Piece → Option (List Level)
  | [] => some levels
  | .column column :: .text s :: pieces =>
    match Operator.ofText? s with
    | none => do
      let levels ← step? levels (.operand (← Formula.ofTest? column s))
      read? levels pieces
    | some operator =>
      match pieces with
      | .slot n :: pieces => do
        let levels ← step? levels (.operand (.comparison column ⟨operator, n⟩))
        read? levels pieces
      | _ => none
  | .text s :: pieces => do
    let symbols ← symbolsOf? s
    let levels ← symbols.foldlM step? levels
    read? levels pieces
  | _ => none

/-- The formula that pieces are the text of. -/
def formula? (pieces : List Piece) : Option Formula := do
  match ← read? [{}] pieces with
  | [l] => l.disjunction?
  | _ => none

theorem Operator.ofText?_text (operator : Operator) : ofText? operator.text = some operator := by
  cases operator <;> decide

section Reading

variable {column : Column} {levels outer : List Level} {l : Level} {f g : Formula} {pieces : List Piece}

theorem read?_text {s : String} {symbols : List Symbol} (h : symbolsOf? s = some symbols) :
    read? levels (.text s :: pieces) = (symbols.foldlM step? levels).bind (read? · pieces) := by
  simp [read?, h]

theorem read?_comparison (c : Comparison) : read? levels (c.pieces column ++ pieces) =
    (step? levels (.operand (.comparison column c))).bind (read? · pieces) := by
  simp [Comparison.pieces, read?, Operator.ofText?_text]

theorem symbolsOf?_and : symbolsOf? " AND " = some [.and] := rfl

theorem read?_and (h : l.conjunction? = some f) : read? (l :: outer) (.text " AND " :: pieces) =
    read? ({ l with conjuncts := some f, operand := none } :: outer) pieces := by
  simp [read?_text symbolsOf?_and, step?, h]

/-- A test behind AND is one operand. -/
theorem read?_and_test {s : String} (h : l.conjunction? = some f) (hoperator : Operator.ofText? s = none)
    (htest : Formula.ofTest? column s = some g) :
    read? (l :: outer) (.text " AND " :: .column column :: .text s :: pieces) =
      read? ({ l with conjuncts := some f, operand := some g } :: outer) pieces := by
  rw [read?_and h]
  simp [read?, hoperator, htest, step?, Level.put?]

/-- What is read in parentheses behind AND is one operand. -/
theorem read?_and_group {inner : Level} {group : List Piece} (h : l.conjunction? = some f)
    (hinner : inner.disjunction? = some g)
    (hgroup : ∀ outer pieces, read? ({} :: outer) (group ++ pieces) = read? (inner :: outer) pieces) :
    read? (l :: outer) (.text " AND (" :: group ++ .text ")" :: pieces) =
      read? ({ l with conjuncts := some f, operand := some g } :: outer) pieces := by
  have hopening : symbolsOf? " AND (" = some [.and, .opening] := rfl
  have hclosing : symbolsOf? ")" = some [.closing] := rfl
  rw [List.cons_append, read?_text hopening]
  simp [step?, h, hgroup, read?_text hclosing, hinner, Level.put?]

end Reading

/-! ## Operands in a row -/

/-- The words that tie operands together. -/
inductive Connective where
  | and
  | or

namespace Connective

def word : Connective → String
  | and => " AND "
  | or => " OR "

def tie : Connective → Formula → Formula → Formula
  | and => .and
  | or => .or

/-- A level on which the operands so far are tied by one connective. -/
def level : Connective → Option Formula → Level
  | and, tied => { conjuncts := tied }
  | or, tied => { alternatives := tied }

variable (connective : Connective) (tied : Option Formula) {column : Column} {outer : List Level} {f : Formula}
  {pieces : List Piece}

theorem disjunction?_level : Level.disjunction? { connective.level tied with operand := some f } =
    some (tied.elim f (connective.tie · f)) := by
  cases connective <;> cases tied <;> rfl

theorem read?_word :
    read? ({ connective.level tied with operand := some f } :: outer) (.text connective.word :: pieces) =
      read? (connective.level (some (tied.elim f (connective.tie · f))) :: outer) pieces := by
  cases connective with
  | and => exact read?_and rfl
  | or =>
      have hword : symbolsOf? " OR " = some [.or] := rfl
      rw [word, read?_text hword]
      rfl

theorem read?_operand (c : Comparison) : read? (connective.level tied :: outer) (c.pieces column ++ pieces) =
    read? ({ connective.level tied with operand := some (.comparison column c) } :: outer) pieces := by
  cases connective <;> simp [read?_comparison, level, step?, Level.put?]

/-- Comparisons in a row are tied from the left. -/
theorem read?_separated (column : Column) (c : Comparison) (cs : List Comparison) :
    ∃ l : Level, l.disjunction? = some ((cs.map (.comparison column)).foldl connective.tie
        (tied.elim (.comparison column c) (connective.tie · (.comparison column c)))) ∧
      ∀ outer pieces, read? (connective.level tied :: outer)
        (separated connective.word ((c :: cs).map (·.pieces column)) ++ pieces) = read? (l :: outer) pieces := by
  induction cs generalizing tied c with
  | nil =>
      refine ⟨_, connective.disjunction?_level tied, fun outer pieces => ?_⟩
      rw [List.map_singleton, separated, List.intercalate_singleton, read?_operand]
  | cons next cs ih =>
      obtain ⟨l, hl, hread⟩ :=
        ih (some (tied.elim (.comparison column c) (connective.tie · (.comparison column c)))) next
      refine ⟨l, hl, fun outer pieces => ?_⟩
      rw [← hread, List.map_cons, List.map_cons, separated, List.intercalate_cons_cons, List.append_assoc,
        List.append_assoc, read?_operand, List.singleton_append, read?_word]
      rfl

end Connective

/-! ## Conditions -/

namespace Condition

/-- What a condition on a column says. A group without comparisons says nothing. -/
def formula? (column : Column) : Condition → Option Formula
  | isNull => some (.isNull column)
  | isNotNull => some (.isNotNull column)
  | isPositive => some (.isPositive column)
  | single c => some (.comparison column c)
  | any (c :: cs) => some ((cs.map (.comparison column)).foldl .or (.comparison column c))
  | all (c :: cs) => some ((cs.map (.comparison column)).foldl .and (.comparison column c))
  | any [] | all [] => none

variable {row : Tuple} {texts : List String} {column : Column} {condition : Condition} {conditions : List Condition}
  {f g : Formula}

theorem formula?_any_holds_iff {cs : List Comparison} {collation : Collation}
    (h : (any cs).formula? column = some g) :
    g.Holds collation row texts ↔ ∃ c ∈ cs, (Formula.comparison column c).Holds collation row texts := by
  match cs with
  | c :: cs =>
      cases h
      rw [Formula.holds_foldl_or, ← List.map_cons (f := Formula.comparison column)]
      simp only [List.mem_map, exists_exists_and_eq_and]

theorem formula?_all_holds_iff {cs : List Comparison} {collation : Collation}
    (h : (all cs).formula? column = some g) :
    g.Holds collation row texts ↔ ∀ c ∈ cs, (Formula.comparison column c).Holds collation row texts := by
  match cs with
  | c :: cs =>
      cases h
      rw [Formula.holds_foldl_and, ← List.map_cons (f := Formula.comparison column), List.forall_mem_map]

theorem formula?_holds_iff (h : condition.formula? column = some g) :
    g.Holds .byCharacters row texts ↔ condition.Holds row texts column := by
  cases condition with
  | isNull | isNotNull | isPositive => cases h; rfl
  | single c => cases h; exact Formula.holds_comparison_byCharacters
  | any cs => simp only [formula?_any_holds_iff h, Formula.holds_comparison_byCharacters, Holds]
  | all cs => simp only [formula?_all_holds_iff h, Formula.holds_comparison_byCharacters, Holds]

/-- A condition is one more conjunct of the level that it stands on. -/
theorem read?_pieces {l : Level} {outer : List Level} (hl : l.conjunction? = some f)
    (h : condition.formula? column = some g) (pieces : List Piece) :
    read? (l :: outer) (condition.pieces column ++ pieces) =
      read? ({ l with conjuncts := some f, operand := some g } :: outer) pieces := by
  match condition with
  | isNull | isNotNull | isPositive =>
      cases h
      exact read?_and_test hl rfl rfl
  | single c =>
      cases h
      rw [Condition.pieces, List.cons_append, read?_and hl, read?_comparison]
      simp [step?, Level.put?]
  | any (c :: cs) =>
      cases h
      obtain ⟨inner, hinner, hgroup⟩ := Connective.or.read?_separated none column c cs
      rw [Condition.pieces, List.append_assoc, List.singleton_append]
      exact read?_and_group hl hinner hgroup
  | all (c :: cs) =>
      cases h
      obtain ⟨inner, hinner, hgroup⟩ := Connective.and.read?_separated none column c cs
      rw [Condition.pieces, List.append_assoc, List.singleton_append]
      exact read?_and_group hl hinner hgroup

/-- Conditions are further conjuncts of the level that they stand on. -/
theorem read?_listPieces {l : Level} (outer : List Level) (hl : l.conjunction? = some f)
    (h : ∀ condition ∈ conditions, (condition.formula? column).isSome) :
    ∃ l' : Level, l'.alternatives = l.alternatives ∧
      l'.conjunction? = some ((conditions.filterMap (formula? column)).foldl .and f) ∧
      read? (l :: outer) (listPieces column conditions) = some (l' :: outer) := by
  induction conditions generalizing l f with
  | nil => exact ⟨l, rfl, hl, rfl⟩
  | cons condition conditions ih =>
      obtain ⟨hcondition, hconditions⟩ := List.forall_mem_cons.mp h
      obtain ⟨g, hg⟩ := Option.isSome_iff_exists.mp hcondition
      let next : Level := { l with conjuncts := some f, operand := some g }
      obtain ⟨l', halternatives, hl', hread⟩ := ih (l := next) (f := f.and g) rfl hconditions
      refine ⟨l', halternatives, ?_, ?_⟩
      · rw [List.filterMap_cons_some hg]
        exact hl'
      · rw [listPieces, List.flatMap_cons, read?_pieces hl hg]
        exact hread

/-- The text of conditions says all that they say. -/
theorem formula?_listPieces (h : ∀ condition ∈ conditions, (condition.formula? column).isSome) :
    Sql.formula? (.text "1=1" :: listPieces column conditions) =
      some ((conditions.filterMap (formula? column)).foldl .and .truth) := by
  have htruth : symbolsOf? "1=1" = some [.operand .truth] := rfl
  obtain ⟨l, halternatives, hl, hread⟩ := read?_listPieces (l := { operand := some .truth }) [] rfl h
  rw [Sql.formula?, read?_text htruth]
  simp [step?, Level.put?, hread, Level.disjunction?, hl, halternatives]

/-- Where texts are compared by their characters, the text of conditions is true of exactly the rows that all of them
hold of. -/
theorem allHold_iff_text (h : ∀ condition ∈ conditions, (condition.formula? column).isSome) :
    ∃ f, Sql.formula? (.text "1=1" :: listPieces column conditions) = some f ∧
      ∀ row texts, AllHold row texts column conditions ↔ f.Holds .byCharacters row texts := by
  refine ⟨_, formula?_listPieces h, fun row texts => ?_⟩
  rw [Formula.holds_foldl_and]
  simp only [List.forall_mem_cons, Formula.Holds, true_and, List.mem_filterMap, forall_exists_index, and_imp]
  constructor
  · intro hall g condition hcondition hg
    exact (formula?_holds_iff hg).mpr (hall condition hcondition)
  · intro hall condition hcondition
    obtain ⟨g, hg⟩ := Option.isSome_iff_exists.mp (h condition hcondition)
    exact (formula?_holds_iff hg).mp (hall g condition hcondition hg)

end Condition

end BugReport.Sql
