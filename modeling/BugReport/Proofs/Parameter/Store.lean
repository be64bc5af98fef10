import BugReport.Parameter.Store

/-! # The store while a request is compiled

Compiling writes to four parameters of its store and settles others. Every other parameter, the group,
and a sort list that is settled stay as they are. The settled values of a store fit together because
settling the sort list settles the group with it.
-/

namespace BugReport.Store

open Parameter (Assignment kind? counts)

variable {s s' s'' : Store}

/-! ## Stores that requests have -/

/-- The stores that the operations on stores lead to. -/
inductive Reachable : Store → Prop where
  | empty : Reachable .empty
  | set {s s' : Store} {name raw : String} (hs : Reachable s) (h : s.set name raw = .ok s') :
      Reachable s'
  | infer {s : Store} (name value : String) (hs : Reachable s) : Reachable (s.infer name value)
  | settleSort {s : Store} (hs : Reachable s) : Reachable s.settleSort
  | settleOrder {s : Store} (hs : Reachable s) : Reachable s.settleOrder
  | settleGroup {s : Store} (hs : Reachable s) : Reachable s.settleGroup
  | settleGroupOrder {s : Store} (hs : Reachable s) : Reachable s.settleGroupOrder

section

variable {motive : Store → Prop}
  (hset : ∀ {s s' : Store} {name raw : String}, motive s → s.set name raw = .ok s' → motive s')

include hset

theorem trySet_induction (h : motive s) (name raw : String) : motive (s.trySet name raw).1 := by
  unfold trySet
  cases hs : s.set name raw with
  | ok s' => exact hset h hs
  | error diagnostic => exact h

/-- What setting a parameter preserves, lines preserve. -/
theorem applyLines_induction (h : motive s) (lines : List String) :
    motive (s.applyLines lines).1 := by
  induction lines generalizing s with
  | nil => exact h
  | cons line lines ih =>
      have hline : motive (s.applyLine line).1 := by
        unfold applyLine
        split
        · exact h
        · exact trySet_induction hset h _ _
      exact ih hline

end

theorem Reachable.applyLines (h : s.Reachable) (lines : List String) :
    (s.applyLines lines).1.Reachable :=
  applyLines_induction .set h lines

/-! ## What compiling keeps -/

/-- The parameters that are inferred while a request is compiled. -/
def inferredNames : List String := ["sort", "order", "grouporder"]

/-- The parameters that compiling writes to. -/
def writtenNames : List String := "sortable" :: inferredNames

/-- What compiling keeps of a store. -/
structure Kept (s s' : Store) : Prop where
  reachable : s.Reachable → s'.Reachable
  explicit : ∀ name, name ≠ "sortable" → s'.explicit name = s.explicit name
  implicit : ∀ name, name ∉ inferredNames → s'.implicit name = s.implicit name
  group? : s'.group? = s.group?
  sort : ∀ sort, s.settledSort = some sort → s'.settledSort = some sort

namespace Kept

theorem refl (s : Store) : s.Kept s :=
  ⟨id, fun _ _ => rfl, fun _ _ => rfl, rfl, fun _ h => h⟩

theorem trans (h : s.Kept s') (h' : s'.Kept s'') : s.Kept s'' where
  reachable hs := h'.reachable (h.reachable hs)
  explicit name hname := (h'.explicit name hname).trans (h.explicit name hname)
  implicit name hname := (h'.implicit name hname).trans (h.implicit name hname)
  group? := h'.group?.trans h.group?
  sort sort hsort := h'.sort sort (h.sort sort hsort)

theorem get? (h : s.Kept s') {name : String} (hname : name ∉ writtenNames) :
    s'.get? name = s.get? name := by
  obtain ⟨hsortable, hinferred⟩ := not_or.mp (mt List.mem_cons.mpr hname)
  rw [Store.get?, Store.get?, h.explicit name hsortable, h.implicit name hinferred]

theorem present? (h : s.Kept s') {name : String} (hname : name ∉ writtenNames) :
    s'.present? name = s.present? name := by
  rw [Store.present?, Store.present?, h.get? hname]

end Kept

theorem kept_infer {name : String} (hname : name ∈ inferredNames) (value : String) :
    s.Kept (s.infer name value) where
  reachable := .infer name value
  explicit other _ := by
    unfold infer
    split <;> rfl
  implicit other hother := by
    have hne : other ≠ name := fun heq => hother (heq ▸ hname)
    unfold infer
    split
    · simp [Assignment.set, hne]
    · rfl
  group? := by
    have hgroup : "group" ≠ name := by
      rintro rfl
      exact absurd hname (by decide)
    unfold infer
    split
    · simp [group?, given?, Assignment.set, hgroup]
    · rfl
  sort sort hsort := by
    unfold infer
    split <;> exact hsort

/-- Only the mark of sortable tables is set explicitly. -/
theorem kept_trySet_sortable (raw : String) : s.Kept (s.trySet "sortable" raw).1 := by
  have hreachable : s.Reachable → (s.trySet "sortable" raw).1.Reachable :=
    fun hs => trySet_induction .set hs _ _
  unfold trySet set at hreachable ⊢
  cases hvalid : Parameter.validate "sortable" raw with
  | error diagnostic => exact .refl s
  | ok value =>
      rw [hvalid] at hreachable
      refine ⟨hreachable, ?_, fun _ _ => rfl, ?_, fun _ h => h⟩
      · intro other hother
        simp [Assignment.set, hother]
      · simp [group?, given?, Assignment.set]

theorem kept_settleGroup (s : Store) : s.Kept s.settleGroup :=
  ⟨.settleGroup, fun _ _ => rfl, fun _ _ => rfl, rfl, fun _ h => h⟩

theorem kept_settleGroupOrder (s : Store) : s.Kept s.settleGroupOrder :=
  ⟨.settleGroupOrder, fun _ _ => rfl, fun _ _ => rfl, rfl, fun _ h => h⟩

theorem kept_settleOrder (s : Store) : s.Kept s.settleOrder :=
  ⟨.settleOrder, fun _ _ => rfl, fun _ _ => rfl, rfl, fun _ h => h⟩

theorem kept_settleSort (s : Store) : s.Kept s.settleSort := by
  have hreachable : s.Reachable → s.settleSort.Reachable := .settleSort
  unfold settleSort at hreachable ⊢
  cases hsort : s.settledSort with
  | some sort => exact .refl s
  | none =>
      have hgroupOrder : s.Kept (if s.settleGroup.group?.isSome then s.settleGroup.settleGroupOrder
          else s.settleGroup) := by
        split
        · exact (kept_settleGroup s).trans (kept_settleGroupOrder _)
        · exact kept_settleGroup s
      rw [hsort] at hreachable
      refine ⟨hreachable, hgroupOrder.explicit, hgroupOrder.implicit, hgroupOrder.group?, ?_⟩
      intro sort hsome
      rw [hsort] at hsome
      cases hsome

theorem settledSort_settleSort (s : Store) : s.settleSort.settledSort = some s.sort := by
  unfold settleSort
  split
  next sort hsort => simp [Store.sort, hsort]
  · rfl

theorem sort_of_settledSort {sort : String} (h : s.settledSort = some sort) : s.sort = sort := by
  simp [Store.sort, h]

/-! ## Settled values -/

/-- Whether a sort list starts with a group and its direction. -/
def StartsWithGroup (group sort : String) : Prop :=
  ∃ (direction : Direction) (base : String),
    sort = group ++ " " ++ direction.keyword ++ "," ++ base

/-- Whether what is settled fits together: a settled sort list starts with the settled group. -/
def Coherent (s : Store) : Prop :=
  ∀ sort, s.settledSort = some sort → ∃ group?, s.settledGroup = some group? ∧
    ∀ group ∈ group?, StartsWithGroup group sort

theorem sort_of_settledSort_none (h : s.settledSort = none) {group : String}
    (hgroup : s.group? = some group) : StartsWithGroup group s.sort := by
  refine ⟨s.groupOrder, (s.givenOrDefault? "sort").getD "", ?_⟩
  simp [Store.sort, h, hgroup]

theorem Coherent.settleSort (h : s.Coherent) : s.settleSort.Coherent := by
  unfold Store.settleSort
  split
  · exact h
  next hnone =>
      rintro sort hsort
      obtain rfl : s.sort = sort := Option.some.inj hsort
      refine ⟨s.group?, ?_, fun group hgroup => sort_of_settledSort_none hnone hgroup⟩
      dsimp only
      split <;> rfl

theorem Coherent.settleGroup (h : s.Coherent) : s.settleGroup.Coherent := by
  intro sort hsort
  obtain ⟨group?, hgroup, hstart⟩ := h sort hsort
  exact ⟨group?, by simp [Store.settleGroup, Store.group?, hgroup], hstart⟩

/-- Each operation keeps what is settled, so it still fits together. -/
theorem Reachable.coherent (h : s.Reachable) : s.Coherent := by
  induction h with
  | empty => intro sort hsort; cases hsort
  | set hs hset ih =>
      unfold Store.set at hset
      split at hset
      · cases hset
        exact ih
      · cases hset
  | infer name value hs ih =>
      unfold Store.infer
      split <;> exact ih
  | settleSort hs ih => exact ih.settleSort
  | settleOrder hs ih => exact ih
  | settleGroup hs ih => exact ih.settleGroup
  | settleGroupOrder hs ih => exact ih

/-- The sort list starts with the group, whether it is settled or not. -/
theorem Coherent.startsWithGroup (h : s.Coherent) {group : String} (hgroup : s.group? = some group) :
    StartsWithGroup group s.sort := by
  cases hsort : s.settledSort with
  | none => exact sort_of_settledSort_none hsort hgroup
  | some sort =>
      obtain ⟨group?, hsettled, hstart⟩ := h sort hsort
      rw [sort_of_settledSort hsort]
      refine hstart group ?_
      simpa [Store.group?, hsettled] using hgroup

end BugReport.Store
