import BugReport.Column.Selection
import Mathlib.Data.List.Nodup

/-! # The arrangement of the columns

A request changes its columns implicitly in any order and settles them once. Which columns there are then, and in
which order, is said here without going through the changes: what is left of the default columns, the columns that
were added implicitly, and those that the caller added, or nothing but the caller's own list. Of the four lists that
an edit works on, each is followed by itself.
-/

namespace BugReport

/-! ## Distinct names -/

variable {names more : List String} {name : String}

theorem insertLast_of_mem (h : name ∈ names) : insertLast names name = names := by
  rw [insertLast, if_pos (List.contains_iff_mem.mpr h)]

theorem insertLast_of_not_mem (h : name ∉ names) : insertLast names name = names ++ [name] := by
  rw [insertLast, if_neg (mt List.contains_iff_mem.mp h)]

theorem nodup_insertLast (h : names.Nodup) (name : String) : (insertLast names name).Nodup := by
  by_cases hname : name ∈ names
  · rw [insertLast_of_mem hname]
    exact h
  · rw [insertLast_of_not_mem hname]
    exact List.concat_eq_append ▸ h.concat hname

theorem nodup_foldl_insertLast (h : names.Nodup) (more : List String) : (more.foldl insertLast names).Nodup :=
  List.foldlRecOn more insertLast h fun _ hnames name _ => nodup_insertLast hnames name

/-- Names that are put at the end one by one stand there once, in the order in which they came first. -/
theorem foldl_insertLast (names more : List String) :
    more.foldl insertLast names = names ++ (more.filter fun name => name ∉ names).eraseDups := by
  induction more generalizing names with
  | nil => simp
  | cons name more ih =>
      rw [List.foldl_cons, ih]
      by_cases hname : name ∈ names
      · rw [insertLast_of_mem hname, List.filter_cons_of_neg (by simpa using hname)]
      · have hrest : (more.filter fun other => other ∉ names ++ [name]) =
            (more.filter fun other => other ∉ names).filter fun other => !other == name := by
          rw [List.filter_filter]
          refine List.filter_congr fun other _ => ?_
          simp [Bool.and_comm, beq_eq_decide]
        rw [insertLast_of_not_mem hname, List.filter_cons_of_pos (by simpa using hname), List.eraseDups_cons,
          hrest, List.append_assoc, List.singleton_append]

theorem foldl_insertLast_nil (more : List String) : more.foldl insertLast [] = more.eraseDups := by
  simp [foldl_insertLast]

theorem nodup_eraseDups (names : List String) : names.eraseDups.Nodup := by
  rw [← foldl_insertLast_nil]
  exact nodup_foldl_insertLast List.nodup_nil names

theorem eraseDups_of_nodup (h : names.Nodup) : names.eraseDups = names := by
  induction names with
  | nil => rfl
  | cons name names ih =>
      obtain ⟨hname, hnames⟩ := List.nodup_cons.mp h
      have hkept : (names.filter fun other => !other == name) = names := by
        refine List.filter_eq_self.mpr fun other hother => ?_
        have hne : other ≠ name := fun heq => hname (heq ▸ hother)
        simpa using hne
      rw [List.eraseDups_cons, hkept, ih hnames]

theorem filter_insertLast (p : String → Bool) (names : List String) (name : String) :
    (insertLast names name).filter p =
      if p name then insertLast (names.filter p) name else names.filter p := by
  by_cases hname : name ∈ names
  · have hmem : p name → name ∈ names.filter p := fun hp => List.mem_filter.mpr ⟨hname, hp⟩
    rw [insertLast_of_mem hname]
    split
    next hp => rw [insertLast_of_mem (hmem hp)]
    · rfl
  · have hmem : name ∉ names.filter p := fun h => hname (List.mem_filter.mp h).1
    rw [insertLast_of_not_mem hname, insertLast_of_not_mem hmem, List.filter_append, List.filter_singleton]
    cases p name with
    | true => rfl
    | false => exact List.append_nil _

theorem filter_eraseDups (p : String → Bool) (names : List String) :
    names.eraseDups.filter p = (names.filter p).eraseDups := by
  have hfold (before : List String) :
      (names.foldl insertLast before).filter p = (names.filter p).foldl insertLast (before.filter p) := by
    induction names generalizing before with
    | nil => rfl
    | cons name names ih =>
        rw [List.foldl_cons, ih, filter_insertLast]
        cases hp : p name with
        | true => rw [List.filter_cons_of_pos hp, List.foldl_cons, if_pos rfl]
        | false => rw [List.filter_cons_of_neg (by simp [hp]), if_neg Bool.false_ne_true]
  rw [← foldl_insertLast_nil, ← foldl_insertLast_nil]
  exact hfold []

/-! ## Edits of the caller -/

/-- What a request says of its columns. Without a value it edits nothing. -/
def Store.columnsExpr (s : Store) : ColumnsExpr :=
  match (s.explicit "columns").filter (· != "") with
  | none => .delta []
  | some value => .parse value

/-- The edits of the default list. A new list makes none. -/
def ColumnsExpr.edits : ColumnsExpr → List ColumnEdit
  | delta edits => edits
  | replace _ => []

namespace ColumnEdit

/-- The columns to which edits apply an operation, in the order of the edits. -/
def columnsOf (op : ColumnOp) (edits : List ColumnEdit) : List String :=
  (edits.filter fun edit => edit.op = op).map fun edit => edit.column.name

theorem columnsOf_append (op : ColumnOp) (edits more : List ColumnEdit) :
    columnsOf op (edits ++ more) = columnsOf op edits ++ columnsOf op more := by
  simp [columnsOf]

theorem columnsOf_singleton (op : ColumnOp) (edit : ColumnEdit) :
    columnsOf op [edit] = if edit.op = op then [edit.column.name] else [] := by
  by_cases h : edit.op = op
  · simp [columnsOf, h]
  · simp [columnsOf, h]

end ColumnEdit

namespace ColumnSelection

open ColumnEdit (columnsOf columnsOf_append columnsOf_singleton)

variable {s : ColumnSelection} {edits more : List ColumnEdit}

@[simp] theorem added_entitle (s : ColumnSelection) (c : ColumnRef) : (s.entitle c).added = s.added := by
  unfold entitle
  split <;> rfl

@[simp] theorem removed_entitle (s : ColumnSelection) (c : ColumnRef) : (s.entitle c).removed = s.removed := by
  unfold entitle
  split <;> rfl

/-- What edits come to, list by list. -/
structure Editing.ComesTo (e : Editing) (edits : List ColumnEdit) (e' : Editing) : Prop where
  base : e'.base = e.base.filter fun c => c ∉ columnsOf .remove edits
  /-- An implicit addition is lifted with the default column, and not without one. -/
  added : e'.selection.added =
    e.selection.added.filter fun c => ¬ (c ∈ e.base ∧ c ∈ columnsOf .remove edits)
  removed : e'.selection.removed = e.selection.removed.filter fun c => c ∉ columnsOf .add edits
  wanted : e'.wanted = e.wanted ++ columnsOf .add edits

namespace Editing

variable {e e' e'' : Editing}

theorem ComesTo.nil (e : Editing) : e.ComesTo [] e := by
  constructor <;> simp [columnsOf]

theorem ComesTo.append (h : e.ComesTo edits e') (h' : e'.ComesTo more e'') :
    e.ComesTo (edits ++ more) e'' where
  base := by
    rw [h'.base, h.base, List.filter_filter]
    refine List.filter_congr fun c _ => ?_
    simp [columnsOf_append, Bool.and_comm]
  added := by
    rw [h'.added, h.added, h.base, List.filter_filter]
    refine List.filter_congr fun c _ => ?_
    rw [← Bool.decide_and, decide_eq_decide, columnsOf_append, List.mem_append, List.mem_filter,
      decide_eq_true_iff]
    tauto
  removed := by
    rw [h'.removed, h.removed, List.filter_filter]
    refine List.filter_congr fun c _ => ?_
    simp [columnsOf_append, Bool.and_comm]
  wanted := by rw [h'.wanted, h.wanted, columnsOf_append, List.append_assoc]

/-- One edit. A removal is looked for in the base list as it is by then. -/
theorem comesTo_apply (h : e.base.Nodup) (edit : ColumnEdit) : e.ComesTo [edit] (e.apply edit) := by
  obtain ⟨op, column⟩ := edit
  cases op with
  | add => constructor <;> simp [apply, columnsOf_singleton, bne, beq_eq_decide]
  | remove =>
      by_cases hmem : column.name ∈ e.base
      · have herase := h.erase_eq_filter column.name
        constructor <;> simp [apply, columnsOf_singleton, hmem, herase, bne, beq_eq_decide]
        -- The default list holds the column, so its implicit addition goes, too.
        refine List.filter_congr fun c _ => ?_
        by_cases hc : c = column.name <;> simp [hc, hmem]
      · have hother (c : String) : c ∉ e.base ∨ c ≠ column.name := by
          by_cases hc : c = column.name
          · exact .inl (hc ▸ hmem)
          · exact .inr hc
        constructor <;> simp [apply, columnsOf_singleton, hmem]
        · exact (List.filter_eq_self.mpr fun c hc => by simpa [hc] using hother c).symm
        · exact (List.filter_eq_self.mpr fun c _ => by simpa using hother c).symm

theorem comesTo_run (h : e.base.Nodup) (edits : List ColumnEdit) : e.ComesTo edits (e.run edits) := by
  induction edits generalizing e with
  | nil => exact .nil e
  | cons edit edits ih =>
      have hstep := comesTo_apply h edit
      have hnodup : (e.apply edit).base.Nodup := by
        rw [hstep.base]
        exact h.filter _
      exact hstep.append (ih hnodup)

end Editing

/-! ## The arrangement -/

/-- The columns for some edits of the default list: what is left of it, then what was added implicitly and does not
stand there, and last what the caller added and does not stand there, either. Columns that were removed implicitly
are left out unless the caller adds them. A default column that the caller removes takes its implicit addition
with it. -/
def arrangement (defaults added removed : List String) (edits : List ColumnEdit) : List String :=
  let kept := defaults.filter fun c => c ∉ columnsOf .remove edits
  let more := (added.filter fun c => c ∉ kept ∧ ¬ (c ∈ defaults ∧ c ∈ columnsOf .remove edits)).eraseDups
  let listed := (kept ++ more).filter fun c => c ∉ removed ∨ c ∈ columnsOf .add edits
  listed ++ ((columnsOf .add edits).filter fun c => c ∉ listed).eraseDups

/-- The columns that an expression asks for. A list of the caller's is taken as it is, but for repeated names. -/
def arranged (defaults added removed : List String) : ColumnsExpr → List String
  | .delta edits => arrangement defaults added removed edits
  | .replace columns => (columns.map ColumnRef.name).eraseDups

variable {defaults added removed : List String} {c : String}

theorem changed_eq (s : ColumnSelection) {base : List String} (h : base.Nodup) :
    s.changed base = (base ++ (s.added.filter fun c => c ∉ base).eraseDups).filter fun c => c ∉ s.removed := by
  rw [changed, List.foldl_append, foldl_insertLast_nil, eraseDups_of_nodup h, foldl_insertLast]
  refine List.filter_congr fun c _ => ?_
  simp

/-- What edits come to is the arrangement that they ask for. -/
theorem Editing.ComesTo.result_eq {e : Editing}
    (h : ComesTo { selection := s, base := defaults } edits e) (hdefaults : defaults.Nodup)
    (hadded : s.added = added.eraseDups) (hremoved : s.removed = removed.eraseDups) :
    e.result = arrangement defaults added removed edits := by
  have hmore : (e.selection.added.filter fun c => c ∉ e.base).eraseDups =
      (added.filter fun c => c ∉ e.base ∧ ¬ (c ∈ defaults ∧ c ∈ columnsOf .remove edits)).eraseDups := by
    rw [h.added, hadded, List.filter_filter, filter_eraseDups, eraseDups_of_nodup (nodup_eraseDups _)]
    simp only [Bool.decide_and]
  have hlisted : e.selection.changed e.base =
      (e.base ++ (e.selection.added.filter fun c => c ∉ e.base).eraseDups).filter
        fun c => c ∉ removed ∨ c ∈ columnsOf .add edits := by
    rw [changed_eq _ (h.base ▸ hdefaults.filter _), h.removed, hremoved]
    refine List.filter_congr fun c _ => ?_
    simp [List.mem_filter, imp_iff_or_not, Bool.or_comm]
  rw [result, foldl_insertLast, h.wanted, hlisted, hmore, h.base]
  rfl

theorem mem_arrangement : c ∈ arrangement defaults added removed edits ↔
    c ∈ columnsOf .add edits ∨
      c ∉ removed ∧ (c ∈ defaults ∧ c ∉ columnsOf .remove edits ∨ c ∈ added ∧ c ∉ defaults) := by
  simp only [arrangement, List.mem_append, List.mem_eraseDups, List.mem_filter, decide_eq_true_iff]
  tauto

/-- What is put behind distinct names without those that stand there already keeps them distinct. -/
theorem nodup_append_eraseDups {names : List String} (h : names.Nodup) (more : List String) (p : String → Bool)
    (hp : ∀ name, p name = true → name ∉ names) : (names ++ (more.filter p).eraseDups).Nodup := by
  refine h.append (nodup_eraseDups _) fun name hname hmore => ?_
  exact hp name (List.mem_filter.mp (List.mem_eraseDups.mp hmore)).2 hname

theorem nodup_arrangement (h : defaults.Nodup) : (arrangement defaults added removed edits).Nodup := by
  refine nodup_append_eraseDups (List.Nodup.filter _ ?_) _ _ fun name hname => of_decide_eq_true hname
  exact nodup_append_eraseDups (h.filter _) _ _ fun name hname => (of_decide_eq_true hname).1

theorem nodup_arranged (h : defaults.Nodup) (expr : ColumnsExpr) :
    (arranged defaults added removed expr).Nodup := by
  cases expr with
  | delta edits => exact nodup_arrangement h
  | replace columns => exact nodup_eraseDups _

/-! ## Implicit changes -/

/-- An implicit change of the columns. -/
inductive Change where
  | add (column : String)
  | remove (column : String)
  deriving DecidableEq, Repr

namespace Change

def added? : Change → Option String
  | add column => some column
  | remove _ => none

def removed? : Change → Option String
  | add _ => none
  | remove column => some column

variable {change : Change} {changes : List Change}

theorem added?_eq_some_iff : change.added? = some c ↔ change = .add c := by
  cases change <;> simp [added?]

theorem removed?_eq_some_iff : change.removed? = some c ↔ change = .remove c := by
  cases change <;> simp [removed?]

theorem mem_filterMap_added? : c ∈ changes.filterMap added? ↔ .add c ∈ changes := by
  simp only [List.mem_filterMap, added?_eq_some_iff, exists_eq_right]

theorem mem_filterMap_removed? : c ∈ changes.filterMap removed? ↔ .remove c ∈ changes := by
  simp only [List.mem_filterMap, removed?_eq_some_iff, exists_eq_right]

end Change

/-- The selection that a change leaves behind. -/
def make (s : ColumnSelection) : Change → ColumnSelection
  | .add column => s.add column
  | .remove column => s.remove column

/-- The selection that changes lead to, starting with the default columns. -/
def after (changes : List Change) : ColumnSelection :=
  changes.foldl make {}

variable {changes : List Change} {store : Store}

/-- A list to which each change puts the column that it has for it holds the columns of all changes. -/
theorem foldl_make_eq (list : ColumnSelection → List String) (column? : Change → Option String)
    (hstep : ∀ (s : ColumnSelection) (change : Change),
      list (s.make change) = (column? change).elim (list s) (insertLast (list s)))
    (s : ColumnSelection) (changes : List Change) :
    list (changes.foldl make s) = (changes.filterMap column?).foldl insertLast (list s) := by
  induction changes generalizing s with
  | nil => rfl
  | cons change changes ih =>
      rw [List.foldl_cons, ih, hstep, List.filterMap_cons]
      cases column? change <;> rfl

/-- A settled list is out of the reach of changes. -/
theorem settled_foldl (s : ColumnSelection) (changes : List Change) :
    (changes.foldl make s).settled = s.settled :=
  List.foldlRecOn (motive := fun s' => s'.settled = s.settled) changes make rfl
    fun _ h change _ => by cases change <;> exact h

theorem added_after (changes : List Change) :
    (after changes).added = (changes.filterMap Change.added?).eraseDups := by
  rw [← foldl_insertLast_nil]
  exact foldl_make_eq added Change.added? (fun _ change => by cases change <;> rfl) {} changes

theorem removed_after (changes : List Change) :
    (after changes).removed = (changes.filterMap Change.removed?).eraseDups := by
  rw [← foldl_insertLast_nil]
  exact foldl_make_eq removed Change.removed? (fun _ change => by cases change <;> rfl) {} changes

theorem settle_of_settled {columns : List String} (h : s.settled = some columns) (store : Store) :
    (s.settle store).1 = columns := by
  simp [settle, h]

theorem settled_settle (s : ColumnSelection) (store : Store) :
    (s.settle store).2.1.settled = some (s.settle store).1 := by
  unfold settle
  split
  next h => exact h
  · rfl

theorem nodup_defaultColumns : defaultColumns.Nodup := by
  decide +kernel

theorem settle_after (changes : List Change) (store : Store) :
    ((after changes).settle store).1 = arranged defaultColumns (changes.filterMap Change.added?)
      (changes.filterMap Change.removed?) store.columnsExpr := by
  have hunsettled : (after changes).settled = none := settled_foldl {} changes
  have hedited (edits : List ColumnEdit) :
      (Editing.run { selection := after changes, base := defaultColumns } edits).result =
        arranged defaultColumns (changes.filterMap Change.added?) (changes.filterMap Change.removed?)
          (.delta edits) :=
    (Editing.comesTo_run nodup_defaultColumns edits).result_eq nodup_defaultColumns (added_after changes)
      (removed_after changes)
  simp only [settle, hunsettled, compute, Store.columnsExpr]
  cases (store.explicit "columns").filter (· != "") with
  | none => exact hedited []
  | some value =>
      dsimp only
      cases ColumnsExpr.parse value with
      | delta edits => exact hedited edits
      | replace columns => exact foldl_insertLast_nil _

theorem columnsOf_add_subset (changes : List Change) (store : Store) :
    columnsOf .add store.columnsExpr.edits ⊆ ((after changes).settle store).1 := by
  intro c hc
  rw [settle_after]
  cases hexpr : store.columnsExpr with
  | delta edits =>
      rw [hexpr] at hc
      exact mem_arrangement.mpr (.inl hc)
  | replace columns =>
      rw [hexpr] at hc
      cases hc

/-- A request shows distinct columns, those among them that the caller adds, in the arrangement that its implicit
changes and the caller's expression come to. Once they are settled, no further change makes a difference. -/
theorem settle_arranges (changes later : List Change) (store store' : Store) :
    ((after changes).settle store).1 = arranged defaultColumns (changes.filterMap Change.added?)
        (changes.filterMap Change.removed?) store.columnsExpr ∧
      ((after changes).settle store).1.Nodup ∧
      columnsOf .add store.columnsExpr.edits ⊆ ((after changes).settle store).1 ∧
      ((later.foldl make ((after changes).settle store).2.1).settle store').1 =
        ((after changes).settle store).1 := by
  have harranged := settle_after changes store
  refine ⟨harranged, ?_, columnsOf_add_subset changes store, ?_⟩
  · rw [harranged]
    exact nodup_arranged nodup_defaultColumns _
  · exact settle_of_settled ((settled_foldl _ later).trans (settled_settle _ store)) store'

example : ((after [.add "deadline", .remove "product", .add "status", .remove "url"]).settle
      (Store.empty.applyLines ["columns=+to,-status,+product,-priority,+to"]).1).1 =
    ["id", "severity", "version", "product", "summary", "deadline", "to"] := by
  decide +kernel

/-! ## Removed columns -/

/-- A column that the caller removes and does not add is shown exactly when it is no default column and was added
implicitly. -/
theorem removed_column_shown_iff (hedits : store.columnsExpr = .delta edits)
    (hremoved : c ∈ columnsOf .remove edits) (honly : c ∉ columnsOf .add edits) :
    c ∈ ((after changes).settle store).1 ↔
      .add c ∈ changes ∧ .remove c ∉ changes ∧ c ∉ defaultColumns := by
  rw [settle_after, hedits, arranged, mem_arrangement, Change.mem_filterMap_added?,
    Change.mem_filterMap_removed?]
  tauto

/-- A default column that was added implicitly, too, beside a column that is removed in vain. -/
theorem removed_column_shown_iff_status :
    "status" ∈ ((after [.add "status", .add "deadline"]).settle
        (Store.empty.applyLines ["columns=-status,+to,-deadline"]).1).1 ↔
      .add "status" ∈ [Change.add "status", .add "deadline"] ∧
        .remove "status" ∉ [Change.add "status", .add "deadline"] ∧ "status" ∉ defaultColumns := by
  have hedits : (Store.empty.applyLines ["columns=-status,+to,-deadline"]).1.columnsExpr =
      .delta [⟨.remove, "status", none⟩, ⟨.add, "to", none⟩, ⟨.remove, "deadline", none⟩] := by
    decide +kernel
  exact removed_column_shown_iff hedits (by decide) (by decide)

/-- A column that is removed in vain: it stands in no default list, and its implicit addition stays. -/
theorem removed_column_stays :
    (Store.empty.applyLines ["columns=-deadline"]).1.columnsExpr =
        .delta [⟨.remove, "deadline", none⟩] ∧
      "deadline" ∈ ((after [.add "deadline"]).settle
        (Store.empty.applyLines ["columns=-deadline"]).1).1 := by
  decide +kernel

end ColumnSelection

end BugReport
