import BugReport.Proofs.Report.Protocol
import Mathlib.Data.List.Induction

/-! # The numbers of fields over many reports

Reports that run one after the other hand on the numbers of fields. A run changes what is kept only when
nothing is kept, its connection comes about and its query for the numbers succeeds; then it keeps what the
rows say. Over any sequence of runs this happens at most once.
-/

namespace BugReport

/-! ## What rows say -/

namespace FieldIds

/-- A row gives a number to a name: it holds the name and an integer of 64 bits. -/
structure Gives (row : Row) (name : String) (id : Int) : Prop where
  id_eq : row.lookup "id" = some (.integer id)
  id_range : -9223372036854775808 ≤ id ∧ id ≤ 9223372036854775807
  name_eq : row.lookup "name" = some (.text name)

/-- The last of the rows that give a number to a name gives it this one. -/
def LastGiven (rows : List Row) (name : String) (id : Int) : Prop :=
  ∃ before row after, rows = before ++ row :: after ∧ Gives row name id ∧
    ∀ later ∈ after, ∀ other, ¬ Gives later name other

variable {row : Row} {rows : List Row} {name : String} {id : Int}

theorem int64?_eq_some {cell : Cell} : cell.int64? = some id ↔
    cell = .integer id ∧ (-9223372036854775808 ≤ id ∧ id ≤ 9223372036854775807) := by
  cases cell with
  | integer i =>
      simp only [Cell.int64?, Option.ite_none_right_eq_some, Option.some.injEq, Cell.integer.injEq]
      constructor
      · rintro ⟨hrange, rfl⟩
        exact ⟨rfl, hrange⟩
      · rintro ⟨rfl, hrange⟩
        exact ⟨hrange, rfl⟩
  | _ => simp [Cell.int64?]

theorem text?_eq_some {cell : Cell} : cell.text? = some name ↔ cell = .text name := by
  cases cell <;> simp [Cell.text?]

theorem ofRow?_eq_some : ofRow? row = some (name, id) ↔ Gives row name id := by
  simp only [ofRow?, Option.bind_eq_bind, Option.bind_eq_some_iff, int64?_eq_some, text?_eq_some,
    Option.pure_def, Option.some.injEq, Prod.mk.injEq]
  constructor
  · rintro ⟨_, ⟨_, hid, rfl, hrange⟩, _, ⟨_, hname, rfl⟩, rfl, rfl⟩
    exact ⟨hid, hrange, hname⟩
  · rintro ⟨hid, hrange, hname⟩
    exact ⟨id, ⟨_, hid, rfl, hrange⟩, name, ⟨_, hname, rfl⟩, rfl, rfl⟩

/-- The number that a row gives to a name. -/
def numberFor? (name : String) (row : Row) : Option Int :=
  (ofRow? row).bind fun (given, id) => if name = given then some id else none

theorem numberFor?_eq_some : numberFor? name row = some id ↔ Gives row name id := by
  rw [← ofRow?_eq_some, numberFor?]
  cases ofRow? row with
  | none => simp
  | some entry => simp [Prod.ext_iff, eq_comm]

theorem ofRows_append (rows : List Row) (row : Row) :
    (ofRows (rows ++ [row])).lookup name = (numberFor? name row).or ((ofRows rows).lookup name) := by
  cases hrow : ofRow? row with
  | none => simp [ofRows, numberFor?, hrow]
  | some entry =>
      simp only [ofRows, numberFor?, hrow, List.filterMap_append, List.filterMap_cons_some hrow, List.filterMap_nil,
        List.foldl_append, List.foldl_cons, List.foldl_nil, lookup_putEntry, Option.bind_some]
      split <;> rfl

/-- The last row for a name counts. -/
theorem lookup_ofRows : (ofRows rows).lookup name = some id ↔ LastGiven rows name id := by
  have hreverse : (ofRows rows).lookup name = rows.reverse.findSome? (numberFor? name) := by
    induction rows using List.reverseRecOn with
    | nil => rfl
    | append_singleton rows row ih =>
        rw [ofRows_append, ih, List.reverse_append, List.reverse_singleton, List.singleton_append,
          List.findSome?_cons]
        cases numberFor? name row <;> rfl
  rw [hreverse, List.findSome?_eq_some_iff]
  constructor
  · rintro ⟨after, row, before, hrows, hrow, hafter⟩
    refine ⟨before.reverse, row, after.reverse, ?_, numberFor?_eq_some.mp hrow, ?_⟩
    · rw [← List.reverse_reverse rows, hrows]
      simp
    · intro later hlater other hgives
      have hnone := hafter later (List.mem_reverse.mp hlater)
      rw [numberFor?_eq_some.mpr hgives] at hnone
      cases hnone
  · rintro ⟨before, row, after, rfl, hrow, hafter⟩
    refine ⟨after.reverse, row, before.reverse, by simp, numberFor?_eq_some.mpr hrow, ?_⟩
    intro later hlater
    exact Option.eq_none_iff_forall_ne_some.mpr fun other hother =>
      hafter later (List.mem_reverse.mp hlater) other (numberFor?_eq_some.mp hother)

end FieldIds

/-! ## Runs -/

/-- A report to be run: a request, the database it asks, and the instant. -/
structure Job where
  request : Request
  connector : Connector
  now : Int

namespace Job

def run (job : Job) (cache : FieldIdCache) : ReportRun :=
  job.request.run job.connector cache job.now

/-- Whether a run asks for the numbers of fields. -/
def Asks (job : Job) (cache : FieldIdCache) : Prop :=
  job.connector.fieldIdsQuery ∈ (job.run cache).statements

instance (job : Job) (cache : FieldIdCache) : Decidable (job.Asks cache) :=
  inferInstanceAs (Decidable (_ ∈ _))

/-- The rows that a run is answered when it asks for the numbers of fields. -/
def fetched? (job : Job) (cache : FieldIdCache) : Option (List Row) :=
  if job.Asks cache then
    (job.connector.execute job.connector.fieldIdsQuery.1 job.connector.fieldIdsQuery.2).toOption
  else none

/-- The numbers that are kept after jobs that ran one after the other. -/
def cacheAfter (cache : FieldIdCache) (jobs : List Job) : FieldIdCache :=
  jobs.foldl (fun cache job => (job.run cache).cache) cache

/-- What was answered to jobs that asked for the numbers of fields, in their order. -/
def fetched (cache : FieldIdCache) : List Job → List (List Row)
  | [] => []
  | job :: jobs => (job.fetched? cache).toList ++ fetched (job.run cache).cache jobs

/-! ## One run -/

variable (job : Job) (cache : FieldIdCache) (jobs : List Job)

/-- A run asks for the numbers of fields when none are kept and it is connected. -/
theorem asks_iff : job.Asks cache ↔ cache = none ∧ job.connector.connect = .ok () := by
  have hrun := job.request.run_protocol job.connector cache job.now
  unfold Asks run
  cases hconnect : job.connector.connect with
  | error e =>
      rw [hconnect] at hrun
      simp [hrun, ReportRun.statements]
  | ok =>
      rw [hconnect] at hrun
      rw [← List.count_pos_iff, hrun.fieldIdsQuery_count]
      cases cache <;> simp

theorem cache_run : (job.run cache).cache = cache.or ((job.fetched? cache).map FieldIds.ofRows) := by
  cases hconnect : job.connector.connect with
  | error e =>
      have hasks : ¬ job.Asks cache := by simp [asks_iff, hconnect]
      simp [run, Request.run, hconnect, fetched?, hasks]
  | ok =>
      rw [run, (job.request.run_of_connected job.connector cache job.now hconnect).1]
      cases cache with
      | some ids => rfl
      | none =>
          have hasks : job.Asks none := (job.asks_iff none).mpr ⟨rfl, hconnect⟩
          rw [fetched?, if_pos hasks, Connector.fieldIds?, Connector.fieldIdsQuery]
          cases job.connector.execute (FieldIds.statement job.connector.tableName) [] <;> rfl

theorem fetched?_some (ids : FieldIds) : job.fetched? (some ids) = none :=
  if_neg fun hasks => by simpa using ((job.asks_iff _).mp hasks).1

/-! ## Many runs -/

/-- With numbers that are kept nothing is fetched, and they stay. -/
theorem fetched_some (ids : FieldIds) (jobs : List Job) :
    fetched (some ids) jobs = [] ∧ cacheAfter (some ids) jobs = some ids := by
  induction jobs with
  | nil => exact ⟨rfl, rfl⟩
  | cons job jobs ih =>
      have hcache : (job.run (some ids)).cache = some ids := by rw [cache_run, Option.some_or]
      rw [fetched, fetched?_some, cacheAfter, List.foldl_cons, hcache]
      exact ih

/-- What is kept after some runs is what was kept before, or else what the first answer says. Nothing is
fetched behind an answer. -/
theorem cacheAfter_eq (cache : FieldIdCache) (jobs : List Job) :
    cacheAfter cache jobs = cache.or ((fetched cache jobs).head?.map FieldIds.ofRows) ∧
      (fetched cache jobs).length ≤ 1 := by
  induction jobs generalizing cache with
  | nil => simp [cacheAfter, fetched]
  | cons job jobs ih =>
      have hstep := job.cache_run cache
      cases hfetched : job.fetched? cache with
      | none =>
          have hkept : (job.run cache).cache = cache := by simpa [hfetched] using hstep
          rw [fetched, hfetched, cacheAfter, List.foldl_cons, hkept]
          exact ih cache
      | some rows =>
          cases cache with
          | some ids => rw [fetched?_some] at hfetched; cases hfetched
          | none =>
              have hkept : (job.run none).cache = some (FieldIds.ofRows rows) := by
                simpa [hfetched] using hstep
              obtain ⟨hnothing, hstays⟩ := fetched_some (FieldIds.ofRows rows) jobs
              rw [fetched, hfetched, hkept, hnothing, cacheAfter, List.foldl_cons, hkept]
              exact ⟨hstays, Nat.le_refl 1⟩

theorem cacheAfter_append (cache : FieldIdCache) (before after : List Job) :
    cacheAfter cache (before ++ after) = cacheAfter (cacheAfter cache before) after :=
  List.foldl_append

theorem cacheAfter_singleton (cache : FieldIdCache) (job : Job) :
    cacheAfter cache [job] = (job.run cache).cache := rfl

/-- How the numbers that are kept fare over jobs that run one after the other. -/
structure KeepsFirst (start : FieldIdCache) (jobs : List Job) : Prop where
  /-- Nothing is kept as long as no query for the numbers succeeded. -/
  empty : cacheAfter start jobs = none ↔ start = none ∧ fetched start jobs = []
  /-- The first answer is the only one, and what is kept is what its rows say. -/
  first : ∀ rows more, fetched start jobs = rows :: more → more = [] ∧
    ∃ ids, cacheAfter start jobs = some ids ∧
      ∀ name id, ids.lookup name = some id ↔ FieldIds.LastGiven rows name id
  /-- A connected run asks for the numbers until there is an answer, and no other run does. -/
  asks : ∀ before job after, jobs = before ++ job :: after →
    (job.Asks (cacheAfter start before) ↔
      start = none ∧ fetched start before = [] ∧ job.connector.connect = .ok ())
  /-- A query that fails leaves nothing behind. -/
  failed : ∀ before job after, jobs = before ++ job :: after → cacheAfter start before = none →
    ∀ e, job.connector.execute job.connector.fieldIdsQuery.1 job.connector.fieldIdsQuery.2 = .error e →
      cacheAfter start (before ++ [job]) = none
  /-- What is kept once is kept for good. -/
  stays : ∀ before after ids, jobs = before ++ after → cacheAfter start before = some ids →
    cacheAfter start jobs = some ids

theorem cacheAfter_eq_none (start : FieldIdCache) (jobs : List Job) :
    cacheAfter start jobs = none ↔ start = none ∧ fetched start jobs = [] := by
  rw [(cacheAfter_eq start jobs).1, Option.or_eq_none_iff, Option.map_eq_none_iff, List.head?_eq_none_iff]

/-- Over any jobs, in any order and with any outcomes, the numbers of fields are fetched until this succeeds
once, and they never change behind that. -/
theorem cache_over_runs (start : FieldIdCache) (jobs : List Job) : KeepsFirst start jobs where
  empty := cacheAfter_eq_none start jobs
  first := by
    intro rows more hfetched
    obtain ⟨hcache, hlength⟩ := cacheAfter_eq start jobs
    cases start with
    | some ids =>
        rw [(fetched_some ids jobs).1] at hfetched
        cases hfetched
    | none =>
        rw [hfetched] at hcache hlength
        refine ⟨List.eq_nil_of_length_eq_zero (by simpa using hlength), _, hcache, ?_⟩
        exact fun name id => FieldIds.lookup_ofRows
  asks := by
    intro before job after _
    rw [asks_iff, cacheAfter_eq_none, and_assoc]
  failed := by
    intro before job after _ hempty e hfailed
    have hfetched : job.fetched? none = none := by
      unfold fetched?
      split
      · rw [hfailed]
        rfl
      · rfl
    rw [cacheAfter_append, hempty, cacheAfter_singleton, cache_run, hfetched]
    rfl
  stays := by
    intro before after ids hjobs hkept
    rw [hjobs, cacheAfter_append, hkept]
    exact (fetched_some ids after).2

end Job

end BugReport
