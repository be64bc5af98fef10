import BugReport.Proofs.Query.Binding

/-! # The order of compiled statements

The order reads as the entries of the sort list that are kept, each with the direction that it carries,
and with the direction of the request behind the last one. So the last entry has two directions when it
carries one, and that is the only way in which an order is not well-formed.
-/

namespace BugReport

open Sql

/-- The entries of a sort list that are kept: those whose first word is an identifier. -/
def keptEntries (sort : String) : List String :=
  (Text.parts ',' sort).filter fun entry =>
    (Text.wordsOf entry).head?.any fun column => isIdentifier column.toList

/-- The direction that an entry carries as its second word. -/
def carriedDirection? (entry : String) : Option Direction :=
  (Text.wordsOf entry)[1]?.bind Direction.ofWord?

/-- The keys of the entries of a sort list, where they have one. -/
def sortKeys (sort : String) : List OrderKey :=
  (Text.parts ',' sort).filterMap fun entry => (SortEntry.compile entry).1

/-- The text of the order in a compiled statement. -/
def Query.orderText (q : Query) : String :=
  write .plain q.statement.orderBody

/-! ## Sort lists and keys -/

theorem SortEntry.isSome_compile (entry : String) :
    (SortEntry.compile entry).1.isSome =
      (Text.wordsOf entry).head?.any fun column => isIdentifier column.toList := by
  rw [SortEntry.compile_fst]
  cases (Text.wordsOf entry).head? with
  | none => rfl
  | some column =>
      rw [Option.bind_some, keyOf?, Option.isSome_map, Option.any_some, Identifier.ofName?]
      split
      next h => rw [h]; rfl
      next h => rw [Bool.not_eq_true _ |>.mp h]; rfl

theorem SortEntry.direction_of_compile {entry : String} {key : OrderKey}
    (h : (SortEntry.compile entry).1 = some key) : key.direction = carriedDirection? entry := by
  rw [SortEntry.compile_fst] at h
  obtain ⟨column, -, hkey⟩ := Option.bind_eq_some_iff.mp h
  obtain ⟨i, -, rfl⟩ := Option.map_eq_some_iff.mp hkey
  rfl

/-- The last result of a partial function is that of the last entry for which it has one. -/
theorem getLast?_filterMap_eq {α β : Type} (f : α → Option β) (xs : List α) :
    (xs.filterMap f).getLast? = (xs.filter fun x => (f x).isSome).getLast?.bind f := by
  induction xs using List.reverseRecOn with
  | nil => rfl
  | append_singleton xs x ih =>
      cases hx : f x with
      | none => simpa [hx] using ih
      | some y => simp [hx]

theorem compileOrder_fst (sort : String) : (compileOrder sort).1 =
    if (sortKeys sort).isEmpty then [defaultOrderKey] else sortKeys sort := by
  have hkeys : ((Text.parts ',' sort).map SortEntry.compile).filterMap Prod.fst = sortKeys sort := by
    rw [List.filterMap_map]
    rfl
  simp only [compileOrder, hkeys]

theorem compileOrder_of_sortKeys_ne_nil {sort : String} (h : sortKeys sort ≠ []) :
    (compileOrder sort).1 = sortKeys sort := by
  rw [compileOrder_fst, if_neg (by simpa using h)]

theorem compileOrder_ne_nil (sort : String) : (compileOrder sort).1 ≠ [] := by
  rw [compileOrder_fst]
  split
  · exact List.cons_ne_nil _ _
  next h => simpa using h

theorem keptEntries_eq_filter_isSome (sort : String) : keptEntries sort =
    (Text.parts ',' sort).filter fun entry => (SortEntry.compile entry).1.isSome := by
  simp only [keptEntries, SortEntry.isSome_compile]

theorem length_sortKeys (sort : String) : (sortKeys sort).length = (keptEntries sort).length := by
  rw [sortKeys, keptEntries_eq_filter_isSome, List.length_filterMap_eq_countP,
    List.countP_eq_length_filter]

/-- The direction that the last key of an order has is the one that the last kept entry carries. -/
theorem direction_getLast?_compileOrder (sort : String) :
    (∀ key ∈ (compileOrder sort).1.getLast?, key.direction = none) ↔
      ∀ entry ∈ (keptEntries sort).getLast?, carriedDirection? entry = none := by
  have hlast : (sortKeys sort).getLast? =
      (keptEntries sort).getLast?.bind fun entry => (SortEntry.compile entry).1 := by
    rw [sortKeys, keptEntries_eq_filter_isSome, getLast?_filterMap_eq]
  cases hentry : (keptEntries sort).getLast? with
  | none =>
      -- No entry is kept: the default key stands alone, and it has no direction.
      rw [hentry, Option.bind_none, List.getLast?_eq_none_iff] at hlast
      simp [compileOrder_fst, hlast, defaultOrderKey]
  | some entry =>
      have hmem := List.mem_of_getLast? hentry
      rw [keptEntries_eq_filter_isSome, List.mem_filter] at hmem
      obtain ⟨key, hkey⟩ := Option.isSome_iff_exists.mp hmem.2
      rw [hentry, Option.bind_some, hkey] at hlast
      have hne : sortKeys sort ≠ [] := fun hnil => by simp [hnil] at hlast
      rw [compileOrder_of_sortKeys_ne_nil hne, hlast]
      simp [SortEntry.direction_of_compile hkey]

/-! ## The order of a request -/

/-- Putting the statement together settles the direction but not what the store sorts by. -/
theorem Draft.order_assemble (d : Draft) :
    d.assemble.2.order = (compileOrder d.assemble.1.store.sort).1 := rfl

theorem Draft.direction_assemble (d : Draft) : d.assemble.2.direction = d.assemble.1.store.order := rfl

theorem order_compile (store : Store) (now : Int) :
    (compile store now).query.statement.order = (compileOrder (compile store now).store.sort).1 := by
  rw [statement_compile, store_compile]
  exact Draft.order_assemble _

theorem direction_compile (store : Store) (now : Int) :
    (compile store now).query.statement.direction = (compile store now).store.order := by
  rw [statement_compile, store_compile]
  exact Draft.direction_assemble _

/-- What the order of a request reads as, whether it is well-formed or not. -/
theorem orderEntries?_orderText (store : Store) (now : Int) :
    orderEntries? (compile store now).query.orderText =
      some (entriesOf (compile store now).store.order
        (compileOrder (compile store now).store.sort).1) := by
  have hread := (regular_compile store now).orderEntries?_orderBody
  rw [order_compile, direction_compile] at hread
  exact hread (compileOrder_ne_nil _) (sortable_compileOrder _)

/-- The order of a request is its text behind ORDER BY up to the end of the statement. It lists the sort
list's expressions with one direction each, which is the one that the entry carries if it does, exactly
when the last kept entry carries none. -/
theorem wellOrdered_iff_last_carries_none (store : Store) (now : Int) (naming : Naming) :
    (∃ listing, (compile store now).query.sql naming =
      listing ++ " ORDER BY " ++ (compile store now).query.orderText ++
        (compile store now).query.statement.closing) ∧
    (WellOrdered (compileOrder (compile store now).store.sort).1 (compile store now).query.orderText ↔
      ∀ entry ∈ (keptEntries (compile store now).store.sort).getLast?,
        carriedDirection? entry = none) := by
  have hregular := regular_compile store now
  have hne := compileOrder_ne_nil (compile store now).store.sort
  have hsortable := sortable_compileOrder (compile store now).store.sort
  rw [← order_compile] at hne hsortable
  refine ⟨(compile store now).query.statement.exists_text_eq naming hsortable, ?_⟩
  rw [← direction_getLast?_compileOrder, ← order_compile]
  exact hregular.wellOrdered_iff hne hsortable

/-- A last entry that carries a direction is followed by two. -/
theorem order_repeats_direction :
    (compile (Store.empty.applyLines ["sort=priority desc"]).1 0).query.orderText =
      "priority DESC ASC" ∧
    ¬ WellOrdered
      (compileOrder (compile (Store.empty.applyLines ["sort=priority desc"]).1 0).store.sort).1
      (compile (Store.empty.applyLines ["sort=priority desc"]).1 0).query.orderText := by
  have hread : orderEntries? "priority DESC ASC" =
      some [⟨chars "priority", [.desc, .asc]⟩] := by decide +kernel
  have hnot (keys : List OrderKey) : ¬ WellOrdered keys "priority DESC ASC" := by
    rintro ⟨entries, hentries, -, hall⟩
    rw [hread] at hentries
    cases hentries
    cases hall with
    | cons hkey _ => exact absurd hkey.single (by decide)
  generalize hcompiled : compile (Store.empty.applyLines ["sort=priority desc"]).1 0 = c
  have htext : c.query.orderText = "priority DESC ASC" := by
    rw [← hcompiled]
    decide +kernel
  exact ⟨htext, htext ▸ hnot _⟩

end BugReport
