import BugReport.Proofs.Parameter.Store

/-! # Histories of a store

A store is written to and read from in any order. Whatever is first read of the sort list, the group or one of
the directions is what is read from then on, and the sort list carries the group and the direction that are read
at any time. Only the sort parameter itself is taken as it was when the list was first read.
-/

namespace BugReport.Store

open Parameter (counts default?)

/-- The values that are settled when they are first read. -/
inductive Reading where
  | sort
  | order
  | group
  | groupOrder
  deriving DecidableEq, Repr

/-- What a reading gives. -/
def Reading.Answer : Reading → Type
  | sort => String
  | order | groupOrder => Direction
  | group => Option String

/-- The operations on a store. -/
inductive Operation where
  | set (name raw : String)
  | infer (name value : String)
  | applyLines (lines : List String)
  | read (reading : Reading)
  deriving DecidableEq, Repr

/-- What a store answers to a reading. -/
def answer (s : Store) : (reading : Reading) → reading.Answer
  | .sort => s.sort
  | .order => s.order
  | .group => s.group?
  | .groupOrder => s.groupOrder

/-- The store that a reading leaves behind. -/
def settle (s : Store) : Reading → Store
  | .sort => s.settleSort
  | .order => s.settleOrder
  | .group => s.settleGroup
  | .groupOrder => s.settleGroupOrder

/-- The store that an operation leaves behind. -/
def perform (s : Store) : Operation → Store
  | .set name raw => (s.trySet name raw).1
  | .infer name value => s.infer name value
  | .applyLines lines => (s.applyLines lines).1
  | .read reading => s.settle reading

/-- The store that operations lead to, starting with the empty one. -/
def after (operations : List Operation) : Store :=
  operations.foldl perform .empty

/-- Whether a reading among some operations gave an answer. -/
def Answered (operations : List Operation) (reading : Reading) (given : reading.Answer) : Prop :=
  ∃ earlier later, operations = earlier ++ .read reading :: later ∧
    (after earlier).answer reading = given

variable {s s' : Store} {reading : Reading} {given : reading.Answer} {operations : List Operation}

theorem after_append (earlier later : List Operation) :
    after (earlier ++ later) = later.foldl perform (after earlier) :=
  List.foldl_append

theorem Reachable.settle (h : s.Reachable) (reading : Reading) : (s.settle reading).Reachable := by
  cases reading with
  | sort => exact h.settleSort
  | order => exact h.settleOrder
  | group => exact h.settleGroup
  | groupOrder => exact h.settleGroupOrder

/-- What setting and inferring a parameter keep is kept by every operation that is not a reading. -/
theorem perform_induction {motive : Store → Prop}
    (hset : ∀ {s s' : Store} {name raw : String}, motive s → s.set name raw = .ok s' → motive s')
    (hinfer : ∀ {s : Store} (name value : String), motive s → motive (s.infer name value)) (h : motive s)
    (operation : Operation) (hread : ∀ reading, operation = .read reading → motive (s.settle reading)) :
    motive (s.perform operation) := by
  cases operation with
  | set name raw => exact trySet_induction hset h name raw
  | infer name value => exact hinfer name value h
  | applyLines lines => exact applyLines_induction hset h lines
  | read reading => exact hread reading rfl

theorem Reachable.perform (h : s.Reachable) (operation : Operation) : (s.perform operation).Reachable :=
  perform_induction .set (fun name value h => h.infer name value) h operation fun reading _ => h.settle reading

theorem reachable_after (operations : List Operation) : (after operations).Reachable :=
  List.foldlRecOn operations perform .empty fun _ h operation _ => h.perform operation

/-! ## What is settled stays -/

/-- What is settled for a reading. -/
def settled? (s : Store) : (reading : Reading) → Option reading.Answer
  | .sort => s.settledSort
  | .order => s.settledOrder
  | .group => s.settledGroup
  | .groupOrder => s.settledGroupOrder

theorem answer_of_settled (h : s.settled? reading = some given) : s.answer reading = given := by
  cases reading with
  | sort => exact sort_of_settledSort h
  | order => exact Option.getD_eq_iff.mpr (.inl h)
  | group => exact Option.getD_eq_iff.mpr (.inl h)
  | groupOrder => exact Option.getD_eq_iff.mpr (.inl h)

theorem settled?_settle_self (s : Store) (reading : Reading) :
    (s.settle reading).settled? reading = some (s.answer reading) := by
  cases reading with
  | sort => exact settledSort_settleSort s
  | order => rfl
  | group => rfl
  | groupOrder => rfl

theorem settled?_settleGroup (h : s.settled? reading = some given) :
    s.settleGroup.settled? reading = some given := by
  cases reading with
  | group => exact congrArg some (answer_of_settled h)
  | _ => exact h

theorem settled?_settleGroupOrder (h : s.settled? reading = some given) :
    s.settleGroupOrder.settled? reading = some given := by
  cases reading with
  | groupOrder => exact congrArg some (answer_of_settled h)
  | _ => exact h

theorem settled?_settleOrder (h : s.settled? reading = some given) :
    s.settleOrder.settled? reading = some given := by
  cases reading with
  | order => exact congrArg some (answer_of_settled h)
  | _ => exact h

theorem settled?_settleSort (h : s.settled? reading = some given) :
    s.settleSort.settled? reading = some given := by
  unfold settleSort
  split
  · exact h
  next hnone =>
      have hgroup : (if s.settleGroup.group?.isSome then s.settleGroup.settleGroupOrder
          else s.settleGroup).settled? reading = some given := by
        split
        · exact settled?_settleGroupOrder (settled?_settleGroup h)
        · exact settled?_settleGroup h
      cases reading with
      | sort => exact absurd (hnone.symm.trans h) nofun
      | _ => exact hgroup

theorem settled?_set {name raw : String} (h : s.set name raw = .ok s') (reading : Reading) :
    s'.settled? reading = s.settled? reading := by
  unfold set at h
  split at h
  · cases h
    cases reading <;> rfl
  · cases h

theorem settled?_infer (s : Store) (name value : String) (reading : Reading) :
    (s.infer name value).settled? reading = s.settled? reading := by
  unfold infer
  split
  · cases reading <;> rfl
  · rfl

theorem settled?_settle (h : s.settled? reading = some given) (other : Reading) :
    (s.settle other).settled? reading = some given := by
  cases other with
  | sort => exact settled?_settleSort h
  | order => exact settled?_settleOrder h
  | group => exact settled?_settleGroup h
  | groupOrder => exact settled?_settleGroupOrder h

/-- Writing leaves alone what is settled, and so does reading. -/
theorem settled?_perform (h : s.settled? reading = some given) (operation : Operation) :
    (s.perform operation).settled? reading = some given := by
  refine perform_induction (motive := fun s => s.settled? reading = some given) ?_ ?_ h operation ?_
  · intro _ _ _ _ h hset
    exact (settled?_set hset reading).trans h
  · intro s name value h
    exact (settled?_infer s name value reading).trans h
  · intro other _
    exact settled?_settle h other

theorem settled?_foldl (h : s.settled? reading = some given) (later : List Operation) :
    (later.foldl perform s).settled? reading = some given :=
  List.foldlRecOn (motive := fun s => s.settled? reading = some given) later perform h
    fun _ h operation _ => settled?_perform h operation

theorem settled?_after (h : Answered operations reading given) :
    (after operations).settled? reading = some given := by
  obtain ⟨earlier, later, rfl, rfl⟩ := h
  rw [after_append, List.foldl_cons]
  exact settled?_foldl (settled?_settle_self _ _) later

/-! ## The sort list -/

/-- The sort list is settled by reading it and by nothing else. -/
theorem settledSort_perform {operation : Operation} (hother : operation ≠ .read .sort)
    (h : s.settledSort = none) : (s.perform operation).settledSort = none := by
  refine perform_induction (motive := fun s => s.settledSort = none) ?_ ?_ h operation ?_
  · intro _ _ _ _ h hset
    exact (settled?_set hset .sort).trans h
  · intro s name value h
    exact (settled?_infer s name value .sort).trans h
  · rintro reading rfl
    cases reading with
    | sort => exact absurd rfl hother
    | _ => exact h

theorem settledSort_after (h : .read .sort ∉ operations) : (after operations).settledSort = none :=
  List.foldlRecOn (motive := fun s => s.settledSort = none) operations perform rfl
    fun _ hnone _ hmem => settledSort_perform (fun heq => h (heq ▸ hmem)) hnone

/-- The first reading of the sort list settles the group with it. -/
theorem settledGroup_settleSort (h : s.settledSort = none) : s.settleSort.settledGroup = some s.group? := by
  unfold settleSort
  rw [h]
  dsimp only
  split <;> rfl

/-- If there is a group, its direction is settled, too. -/
theorem settledGroupOrder_settleSort (h : s.settledSort = none) (hgroup : s.group?.isSome = true) :
    s.settleSort.settledGroupOrder = some s.groupOrder := by
  have hsame : s.settleGroup.group? = s.group? := (kept_settleGroup s).group?
  unfold settleSort
  rw [h]
  dsimp only
  rw [hsame, if_pos hgroup]
  rfl

/-- The sort list as it is first read. -/
theorem sort_of_unsettled {base : String} (h : s.settledSort = none)
    (hbase : s.givenOrDefault? "sort" = some base) :
    s.sort = match s.group? with
      | some group => group ++ " " ++ s.groupOrder.keyword ++ "," ++ base
      | none => base := by
  cases hgroup : s.group? <;> simp [sort, h, hbase, hgroup]

theorem exists_sort_base (s : Store) : ∃ base, s.givenOrDefault? "sort" = some base := by
  cases hgiven : s.given? "sort" with
  | some base => exact ⟨base, by rw [givenOrDefault?, hgiven]; rfl⟩
  | none => exact ⟨"priority,status", by rw [givenOrDefault?, hgiven]; decide⟩

/-! ## Readings -/

/-- What a reading of the sort list settles is what is read at any time. -/
theorem eq_of_answered {earlier later : List Operation} (reading : Reading) {settled given : reading.Answer}
    (hsettled : (after earlier).settleSort.settled? reading = some settled)
    (h : Answered (earlier ++ .read .sort :: later) reading given) : given = settled := by
  have hafter : (after (earlier ++ .read .sort :: later)).settled? reading = some settled := by
    rw [after_append, List.foldl_cons]
    exact settled?_foldl hsettled later
  exact Option.some.inj ((settled?_after h).symm.trans hafter)

/-- All readings of one value agree, and one more would give the same. The sort list is made of the group and of the
direction that are read of it at any time, before or after, and of the sort parameter as it was set, inferred or left
to its default when the list was first read. -/
theorem readings_settled (operations : List Operation) :
    (∀ (reading : Reading) (first second : reading.Answer),
      Answered operations reading first → Answered operations reading second → first = second) ∧
    (∀ (reading : Reading) (given : reading.Answer),
      Answered operations reading given → (after operations).answer reading = given) ∧
    ∀ earlier later, operations = earlier ++ .read .sort :: later → .read .sort ∉ earlier →
      ∃ base, (after earlier).givenOrDefault? "sort" = some base ∧
        ∀ (sort : String) (group? : Option String),
          Answered operations .sort sort → Answered operations .group group? →
          match group? with
          | none => sort = base
          | some group => ∀ direction : Direction, Answered operations .groupOrder direction →
              sort = group ++ " " ++ direction.keyword ++ "," ++ base := by
  have hlast (reading : Reading) (given : reading.Answer) (h : Answered operations reading given) :
      (after operations).answer reading = given := answer_of_settled (settled?_after h)
  have hagree (reading : Reading) (first second : reading.Answer)
      (hfirst : Answered operations reading first) (hsecond : Answered operations reading second) :
      first = second := (hlast reading first hfirst).symm.trans (hlast reading second hsecond)
  refine ⟨hagree, hlast, ?_⟩
  intro earlier later heq hfirst
  have hunsettled := settledSort_after hfirst
  obtain ⟨base, hbase⟩ := exists_sort_base (after earlier)
  refine ⟨base, hbase, ?_⟩
  intro sort group? hsort hgroup
  subst heq
  have hsort : sort = (after earlier).sort := eq_of_answered .sort (settledSort_settleSort _) hsort
  have hgroup : group? = (after earlier).group? :=
    eq_of_answered .group (settledGroup_settleSort hunsettled) hgroup
  rw [hsort, sort_of_unsettled hunsettled hbase, ← hgroup]
  cases hcase : group? with
  | none => rfl
  | some group =>
      intro direction hdirection
      have hsome : (after earlier).group?.isSome = true := by rw [← hgroup, hcase]; rfl
      have horder : direction = (after earlier).groupOrder :=
        eq_of_answered .groupOrder (settledGroupOrder_settleSort hunsettled hsome) hdirection
      rw [horder]

/-- The direction of the group and the sort parameter change between two readings of the sort list. -/
theorem readings_settled_grouped :
    ∃ operations : List Operation, Answered operations .group (some "product") ∧
      Answered operations .groupOrder .asc ∧
      ∀ sort : String, Answered operations .sort sort → sort = "product ASC,modified" := by
  let earlier : List Operation := [.set "group" "product", .infer "sort" "modified"]
  let later : List Operation := [.set "grouporder" "desc", .infer "sort" "votes", .read .group, .read .groupOrder,
    .read .sort]
  have hgroup : Answered (earlier ++ .read .sort :: later) .group (some "product") :=
    ⟨earlier ++ [.read .sort, .set "grouporder" "desc", .infer "sort" "votes"], [.read .groupOrder, .read .sort], rfl,
      rfl⟩
  have horder : Answered (earlier ++ .read .sort :: later) .groupOrder .asc :=
    ⟨earlier ++ [.read .sort, .set "grouporder" "desc", .infer "sort" "votes", .read .group], [.read .sort], rfl, rfl⟩
  obtain ⟨base, hbase, hsort⟩ := (readings_settled (earlier ++ .read .sort :: later)).2.2 earlier later rfl (by decide)
  have hmodified : (after earlier).givenOrDefault? "sort" = some "modified" := by decide +kernel
  obtain rfl : base = "modified" := Option.some.inj (hbase.symm.trans hmodified)
  refine ⟨earlier ++ .read .sort :: later, hgroup, horder, ?_⟩
  intro sort hanswered
  have hlist := hsort sort (some "product") hanswered hgroup .asc horder
  rw [hlist]
  decide

end BugReport.Store
