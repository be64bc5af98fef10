import BugReport.Proofs.Parameter.Setting
import BugReport.Proofs.Query.Contributions
import BugReport.Proofs.Report.Selected

/-! # A parameter that is set adds its conditions

Setting a parameter that was not set leaves what the others add as it is: its own conditions come in at one
place. They are added in one turn of the loop over the parameters, so the field that the turn requires is still
required at the end, and what it finds wrong is still told.
-/

namespace BugReport

open Parameter (Kind kind? schema)

variable {s s' store : Store} {now : Int} {naming : Sql.Naming} {name raw value : String} {kind : Kind}

namespace Parameter

theorem nodup_schema : (schema.map Prod.fst).Nodup := by decide

/-- The entry of a parameter is the only one of its name. -/
theorem exists_schema_eq (hkind : kind? name = some kind) :
    ∃ front back, schema = front ++ (name, kind) :: back ∧ ∀ entry ∈ front ++ back, entry.1 ≠ name := by
  obtain ⟨front, back, hsplit⟩ := List.append_of_mem (mem_of_lookup hkind)
  have hnodup := nodup_schema
  rw [hsplit, List.map_append, List.map_cons, List.nodup_middle, List.nodup_cons, ← List.map_append] at hnodup
  refine ⟨front, back, hsplit, ?_⟩
  rintro entry hentry rfl
  exact hnodup.1 (List.mem_map.mpr ⟨entry, hentry, rfl⟩)

/-- A parameter that filters rows does not say which columns are custom fields. -/
theorem not_mem_customNames (hkind : kind? name = some kind) (h : kind.filtersRows = true) :
    name ∉ Store.customNames := by
  have hnames : ∀ name ∈ Store.customNames, ∀ kind ∈ kind? name, kind.filtersRows = false := by decide
  intro hmem
  rw [hnames name hmem kind hkind] at h
  cases h

theorem not_mem_writtenNames (hkind : kind? name = some kind) (h : kind.filtersRows = true) :
    name ∉ Store.writtenNames := by
  intro hmem
  rw [filtersRows_writtenNames name hmem kind hkind] at h
  cases h

end Parameter

/-! ## The place of the conditions -/

namespace Draft

theorem entryText_of_unset (h : s.present? name = none) :
    entryText naming now s (name, kind) = [] := by
  rw [entryText, h]

theorem entryText_set_of_ne (hset : s.set name raw = .ok s') (hname : name ∉ Store.customNames)
    {entry : String × Kind} (hne : entry.1 ≠ name) :
    entryText naming now s' entry = entryText naming now s entry := by
  rw [entryText, entryText, Store.present?_set_of_ne hset hne, Store.ofStore_set hset hname]

theorem searchText_set_of_ne (hset : s.set name raw = .ok s') (hne : "search" ≠ name) :
    searchText naming s' = searchText naming s := by
  rw [searchText, searchText, Store.present?_set_of_ne hset hne]

end Draft

open Draft

theorem exists_whereText_set (hset : s.set name raw = .ok s') (hkind : kind? name = some kind)
    (hrows : kind.filtersRows = true) (hne : "search" ≠ name) (hunset : s.present? name = none)
    (now : Int) (hnaming : naming.Avoids ['\'', '?']) :
    ∃ before after, ((compile s now).query.whereText naming).toList = before ++ after ∧
      ((compile s' now).query.whereText naming).toList =
        before ++ entryText naming now s' (name, kind) ++ after := by
  have hcustom := Parameter.not_mem_customNames hkind hrows
  obtain ⟨front, back, hsplit, hothers⟩ := Parameter.exists_schema_eq hkind
  have hkept {entries : List (String × Kind)} (hentries : entries ⊆ front ++ back) :
      entries.flatMap (entryText naming now s') = entries.flatMap (entryText naming now s) :=
    List.flatMap_congr fun entry hentry => entryText_set_of_ne hset hcustom (hothers entry (hentries hentry))
  refine ⟨front.flatMap (entryText naming now s),
    back.flatMap (entryText naming now s) ++ searchText naming s, ?_, ?_⟩
  · rw [toList_whereText s now hnaming, hsplit, List.flatMap_append, List.flatMap_cons,
      entryText_of_unset hunset, List.nil_append, List.append_assoc]
  · rw [toList_whereText s' now hnaming, hsplit, List.flatMap_append, List.flatMap_cons,
      hkept (List.subset_append_left _ _), hkept (List.subset_append_right _ _),
      searchText_set_of_ne hset hne]
    simp only [List.append_assoc]

/-! ## The turn of a parameter -/

theorem diagnostics_compile (store : Store) (now : Int) :
    (compile store now).diagnostics = (drafted store now).assemble.1.diagnostics := by
  simp only [compile, drafted]

theorem growsTo_drafted_of_filtered (store : Store) (now : Int) :
    ((Draft.start store).prepare.applyParameters now).GrowsTo (drafted store now) :=
  (growsTo_conclude _).trans (growsTo_arrange _)

/-- Each parameter that is set has its turn. -/
theorem exists_turn_drafted (hkind : kind? name = some kind) (hname : name ∉ Store.writtenNames)
    (hvalue : store.present? name = some value) (now : Int) :
    ∃ d : Draft, (Draft.start store).GrowsTo d ∧
      (d.applyParameter now (name, kind, value)).GrowsTo (drafted store now) := by
  have hprepared := (Draft.start store).growsTo_prepare
  have hpresent : (name, kind, value) ∈ presentParameters (Draft.start store).prepare.store :=
    mem_presentParameters.mpr ⟨hkind, (hprepared.store.present? hname).trans hvalue⟩
  obtain ⟨d, hbefore, hafter⟩ := GrowsTo.exists_turn (fun d p => d.growsTo_applyParameter now p)
    (Draft.start store).prepare hpresent
  exact ⟨d, hprepared.trans hbefore, hafter.trans (growsTo_drafted_of_filtered store now)⟩

namespace Draft

variable {d : Draft} {r : Restriction}

/-- What a filter leaves behind in its draft. -/
structure Records (d : Draft) (r : Restriction) (name : String) : Prop where
  required : ∀ f, Field.ofName? name = some f → d.required.contains f = true
  told : r.diagnostics ⊆ d.diagnostics

theorem records_addFilter (d : Draft) (h : restriction? 0 now name value kind = some r) :
    (d.addFilter now name value kind).Records r name := by
  have hbehind : restriction? (d.showFiltered name value kind).values.length now name value kind =
      some (r.renumber ((d.showFiltered name value kind).values.length + ·)) := by
    rw [restriction?_behind, h, Option.map_some]
  constructor
  · intro f hf
    simp only [addFilter, filterField, hbehind]
    exact contains_requireName hf
  · simp only [addFilter, filterField, hbehind]
    exact List.subset_append_right _ _

theorem Records.of_growsTo {d' : Draft} (h : d.Records r name) (hgrows : d.GrowsTo d') :
    d'.Records r name :=
  ⟨fun f hf => hgrows.required f (h.required f hf), fun _ hd => hgrows.diagnostics.subset (h.told hd)⟩

end Draft

/-- A parameter whose turn is a filter leaves behind what the filter does. -/
theorem records_drafted {other stored read : String} {rows : Kind} {r : Restriction}
    (hkind : kind? other = some rows) (hrows : rows.filtersRows = true)
    (hvalue : store.present? other = some stored)
    (hturn : ∀ d : Draft, d.custom = .ofStore store →
      d.applyParameter now (other, rows, stored) = d.addFilter now name read kind)
    (hr : restriction? 0 now name read kind = some r) : (drafted store now).Records r name := by
  have hname := Parameter.not_mem_writtenNames hkind hrows
  obtain ⟨d, hbefore, hafter⟩ := exists_turn_drafted hkind hname hvalue now
  rw [hturn d hbefore.custom] at hafter
  exact (d.records_addFilter hr).of_growsTo hafter

end BugReport
