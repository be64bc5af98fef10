import BugReport.Proofs.Sql.Slots

/-! # Regular statements

A statement is regular when its parts are fragments: its items and order keys are fixed, its joins are
whole, and its clauses may be written one behind the other. What is written for a regular statement is
then a whole fragment up to its last sign, and its slots are those of its joins and clauses. Conditions
on a vetted column are fragments whatever they compare.
-/

namespace BugReport.Sql

/-! ## Conditions -/

section

variable {column : Column}

theorem Comparison.leads_pieces (h : (Piece.column column).isVetted = true) (c : Comparison)
    (depth : Nat) : Leads ⟨depth, false⟩ (c.pieces column) ⟨depth, true⟩ := by
  have hoperator : Leads ⟨0, true⟩ [.text c.operator.text] ⟨0, false⟩ := by
    cases c.operator <;> decide
  exact (Leads.column h depth).cons
    ((hoperator.anywhere (List.cons_ne_nil _ _) false).cons (Leads.slot c.slot depth))

/-- A list of comparisons in parentheses. -/
theorem Comparison.trailing_list (h : (Piece.column column).isVetted = true)
    (comparisons : List Comparison) {separator : String}
    (hseparator : Leads ⟨0, true⟩ [.text separator] ⟨0, false⟩) :
    Trailing (.text " AND (" ::
      separated separator (comparisons.map (·.pieces column)) ++ [.text ")"]) := by
  have hopen : Leads ⟨0, true⟩ [.text " AND ("] ⟨1, false⟩ := by decide
  have hclose (pending : Bool) : Leads ⟨1, pending⟩ [.text ")"] ⟨0, false⟩ := by
    cases pending <;> decide
  have hgroups : ∀ group ∈ comparisons.map (·.pieces column),
      Leads ⟨1, false⟩ group ⟨1, true⟩ := by
    simpa using fun c _ => c.leads_pieces h 1
  have hlist := Leads.separated hgroups (hseparator.anywhere (List.cons_ne_nil _ _) true)
  exact ((hopen.cons hlist).append (hclose _)).trailing (by simp)

/-- A condition on a vetted column may be written behind anything. -/
theorem Condition.trailing_pieces (h : (Piece.column column).isVetted = true)
    (condition : Condition) : Trailing (condition.pieces column) := by
  have hand : Leads ⟨0, true⟩ [.text " AND "] ⟨0, false⟩ := by decide
  cases condition with
  | isNull =>
      have hnull : Leads ⟨0, false⟩ [.text " IS NULL"] ⟨0, false⟩ := by decide
      exact (hand.cons ((Leads.column h 0).cons hnull)).trailing (by simp)
  | isNotNull =>
      have hnull : Leads ⟨0, false⟩ [.text " IS NOT NULL"] ⟨0, false⟩ := by decide
      exact (hand.cons ((Leads.column h 0).cons hnull)).trailing (by simp)
  | isPositive =>
      have hpositive : Leads ⟨0, false⟩ [.text " > 0"] ⟨0, false⟩ := by decide
      exact (hand.cons ((Leads.column h 0).cons hpositive)).trailing (by simp)
  | single c => exact (hand.cons (c.leads_pieces h 0)).trailing (by simp)
  | any cs => exact Comparison.trailing_list h cs (by decide)
  | all cs => exact Comparison.trailing_list h cs (by decide)

theorem Condition.trailing_listPieces (h : (Piece.column column).isVetted = true)
    (conditions : List Condition) : Trailing (Condition.listPieces column conditions) :=
  Trailing.flatMap fun condition _ => condition.trailing_pieces h

end

/-! ## Joins -/

/-- A derived table may end in conditions: the parenthesis behind them sets them apart. -/
theorem Join.whole_derived {kind : JoinKind} {items : List Item} {body rest condition : List Piece}
    {correlation : String} {b : Bool} (hkind : kind ≠ .cross)
    (hitems : ∀ item ∈ items, Fixed item.pieces) (hbody : Leads ⟨1, false⟩ body ⟨1, b⟩)
    (hrest : Trailing rest) (hcorrelation : isIdentifier correlation.toList = true)
    (hcondition : Fixed condition) :
    Whole (Join.pieces ⟨kind, .derived items (body ++ rest) correlation, condition⟩) := by
  have hselect : Leads ⟨0, false⟩ [.text "(SELECT "] ⟨1, false⟩ := by decide
  have hlist : Whole (separated ", " (items.map Item.pieces)) :=
    Whole.separated (by simpa using fun item hitem => (hitems item hitem).whole)
      (Leads.whole (by decide))
  obtain ⟨last, hlast⟩ := hrest 1 b
  have has : Leads ⟨1, last⟩ [.text ") AS "] ⟨0, false⟩ := by cases last <;> decide
  have hsource : Leads ⟨0, false⟩ (Source.pieces (.derived items (body ++ rest) correlation))
      ⟨0, false⟩ :=
    ((hselect.cons (hlist 1)).append (hbody.append hlast)).append
      (has.cons (Leads.name hcorrelation 0))
  have hon : Leads ⟨0, false⟩ [.text " ON "] ⟨0, false⟩ := by decide
  cases kind with
  | cross => exact absurd rfl hkind
  | left =>
      have hjoin : Leads ⟨0, false⟩ [.text " LEFT JOIN "] ⟨0, false⟩ := by decide
      exact ((hjoin.cons hsource).append (hon.cons hcondition.leads)).whole
  | inner =>
      have hjoin : Leads ⟨0, false⟩ [.text " INNER JOIN "] ⟨0, false⟩ := by decide
      exact ((hjoin.cons hsource).append (hon.cons hcondition.leads)).whole

/-! ## Statements -/

/-- Whether the column of a clause is vetted. The clause on keywords has a column of its own. -/
def Clause.IsVetted : Clause → Prop
  | .column place _ => (Piece.column place).isVetted = true
  | .keyword _ => True

theorem Clause.IsVetted.trailing {clause : Clause} (h : clause.IsVetted) :
    Trailing clause.pieces := by
  cases clause with
  | column place condition => exact condition.trailing_pieces h
  | keyword conditions =>
      have hselect : Leads ⟨0, true⟩
          ([.text " AND EXISTS (SELECT ", .column (.of "keywords" "keywordid"), .text " FROM ",
            .source .keywords "keywords", .text " LEFT JOIN ", .source .keyworddefs "keyworddefs",
            .text " ON "] ++ equation (.of "keywords" "keywordid") (.of "keyworddefs" "id") ++
            .text " WHERE " :: equation (.of "keywords" "bug_id") (.of "bugs" "bug_id"))
          ⟨1, false⟩ := by decide
      have hname : (Piece.column (.of "keyworddefs" "name")).isVetted = true := by decide
      obtain ⟨pending, hconditions⟩ := Condition.trailing_listPieces hname conditions 1 false
      have hclose : Leads ⟨1, pending⟩ [.text ")"] ⟨0, false⟩ := by
        cases pending <;> decide
      have hwhole := (hselect.append hconditions).append hclose
      exact Leads.trailing (by simpa [Clause.pieces] using hwhole) (by simp [Clause.pieces])

namespace Statement

/-- Whether the parts of a statement are fragments. -/
structure Regular (s : Statement) : Prop where
  items : ∀ item ∈ s.items, Fixed item.pieces
  joins : ∀ join ∈ s.joins, Whole join.pieces
  clauses : ∀ clause ∈ s.clauses, clause.IsVetted
  order : ∀ key ∈ s.order, Fixed key.pieces

/-- What is written for a statement up to the sign at its end. -/
def body (s : Statement) : List Piece :=
  if s.counted then
    .text "SELECT COUNT(DISTINCT(id)) AS count FROM (" :: s.listPieces ++ [.text ") AS b"]
  else s.listPieces

/-- What is written for the order of a statement behind its first words. -/
def orderBody (s : Statement) : List Piece :=
  separated "," (s.order.map OrderKey.pieces) ++ [.text " ", .text s.direction.keyword]

theorem orderPieces_eq_orderBody (s : Statement) :
    s.orderPieces = .text " ORDER BY " :: s.orderBody := rfl

theorem pieces_eq_body (s : Statement) : s.pieces = s.body ++ [.text ";"] := by
  unfold pieces body
  split <;> simp

theorem trailing_summedPieces (summed : Bool) : Trailing (summedPieces summed) := by
  cases summed with
  | false => exact fun depth pending => ⟨pending, .nil _⟩
  | true =>
      have hsummed : Leads ⟨0, true⟩ (summedPieces true) ⟨0, false⟩ := by decide
      exact hsummed.trailing (by simp [summedPieces])

namespace Regular

variable {s : Statement}

theorem leads_orderBody (h : s.Regular) : Leads ⟨0, false⟩ s.orderBody ⟨0, false⟩ := by
  have hkeys : Whole (separated "," (s.order.map OrderKey.pieces)) :=
    Whole.separated (by simpa using fun key hkey => (h.order key hkey).whole)
      (Leads.whole (by decide))
  have hdirection : Leads ⟨0, false⟩ [.text " ", .text s.direction.keyword] ⟨0, false⟩ := by
    cases s.direction <;> decide
  exact (hkeys 0).append hdirection

theorem leads_orderPieces (h : s.Regular) (depth : Nat) (before : Bool) :
    Leads ⟨depth, before⟩ s.orderPieces ⟨depth, false⟩ := by
  have horder : Leads ⟨0, true⟩ [.text " ORDER BY "] ⟨0, false⟩ := by decide
  rw [orderPieces_eq_orderBody]
  exact (horder.cons h.leads_orderBody).anywhere (List.cons_ne_nil _ _) before

theorem whole_listPieces (h : s.Regular) : Whole s.listPieces := by
  intro depth
  have hselect : Whole [.text "SELECT DISTINCT "] := Leads.whole (by decide)
  have hitems : Whole (separated ", " (s.items.map Item.pieces)) :=
    Whole.separated (by simpa using fun item hitem => (h.items item hitem).whole) (Leads.whole (by decide))
  have hfrom : Whole [.text " FROM ", .source .bugs "bugs"] := Leads.whole (by decide)
  have hjoins : Whole (s.joins.flatMap Join.pieces) := Whole.flatMap h.joins
  have hwhere : Whole [.text " WHERE 1=1"] := Leads.whole (by decide)
  -- Without clauses nothing is left to set apart, and with them a slot may be. The order does not mind.
  obtain ⟨b, hclauses⟩ : ∃ b, Leads ⟨depth, false⟩ (s.clauses.flatMap Clause.pieces) ⟨depth, b⟩ :=
    Trailing.flatMap (fun clause hclause => (h.clauses clause hclause).trailing) depth false
  obtain ⟨b', hsummed⟩ := trailing_summedPieces s.summed depth b
  have horder := h.leads_orderPieces depth b'
  exact (((((hselect.append hitems).append hfrom).append hjoins depth).append
    ((hwhere depth).cons hclauses)).append hsummed).append horder

/-- What is written for a regular statement is whole up to the sign at its end. -/
theorem whole_body (h : s.Regular) : Whole s.body := by
  unfold body
  split
  · intro depth
    have hcount : Leads ⟨0, false⟩ [.text "SELECT COUNT(DISTINCT(id)) AS count FROM ("] ⟨1, false⟩ := by
      decide
    have hclose : Leads ⟨1, false⟩ [.text ") AS b"] ⟨0, false⟩ := by decide
    exact ((hcount.cons (h.whole_listPieces 1)).append hclose).whole depth
  · exact h.whole_listPieces

theorem slotsOf_orderPieces (h : s.Regular) : slotsOf s.orderPieces = [] := by
  have hkeys : (s.order.map OrderKey.pieces).flatMap slotsOf = [] := by
    simpa using fun key hkey => (h.order key hkey).slots
  simp only [orderPieces, List.cons_append, slotsOf_cons, slotsOf_append, slotsOf_separated, hkeys]
  rfl

theorem slotsOf_listPieces (h : s.Regular) :
    slotsOf s.listPieces =
      slotsOf (s.joins.flatMap Join.pieces) ++ s.clauses.flatMap Clause.slots := by
  have hitems : (s.items.map Item.pieces).flatMap slotsOf = [] := by
    simpa using fun item hitem => (h.items item hitem).slots
  have hsummed : slotsOf (summedPieces s.summed) = [] := by
    cases s.summed <;> rfl
  simp only [listPieces, List.cons_append, slotsOf_cons, slotsOf_append, slotsOf_separated, hitems,
    hsummed, h.slotsOf_orderPieces]
  simp [Piece.slotNumber?]

/-- The slots of a regular statement stand in its joins and in its clauses. -/
theorem slotsOf_pieces (h : s.Regular) :
    slotsOf s.pieces =
      slotsOf (s.joins.flatMap Join.pieces) ++ s.clauses.flatMap Clause.slots := by
  rw [← h.slotsOf_listPieces, pieces_eq_body, body]
  split
  · simp [Piece.slotNumber?]
  · simp [Piece.slotNumber?]

end Regular

end Statement

end BugReport.Sql
