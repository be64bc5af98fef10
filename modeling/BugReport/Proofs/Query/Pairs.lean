import BugReport.Proofs.Expression.Tidied
import BugReport.Proofs.Query.Inserted
import Mathlib.Data.List.Infix

/-! # Pairs filter like parameters

A pair of the `filters` parameter and the parameter that it names go different ways: the value of the parameter
is trimmed at both ends and may be tidied, that of the pair keeps the blanks in front. For the kinds that
restrict by themselves, both ways add the same conditions. The other kinds of filters have their own rules, which
pairs do not reach.
-/

namespace BugReport

open Parameter (Kind counts kind? storedForm validate)
open Text (isBlank trim trimLeft trimRight trimmed trimmedRight)
open Draft (filterText restriction?)

variable {s s' : Store} {now : Int} {naming : Sql.Naming} {name value v w : String} {kind : Kind}

/-! ## Values -/

namespace Draft

/-- Blanks at the ends of a value do not change what it adds. -/
theorem filterText_of_trimmed_eq (h : trimmed v = trimmed w) (naming : Sql.Naming) (now : Int)
    (name : String) (kind : Kind) : filterText naming now name v kind = filterText naming now name w kind := by
  have htrim := Text.trim_eq_of_trimmed_eq h
  have hmatch : MatchExpr.parse v = MatchExpr.parse w := congrArg MatchExpr.ofTrimmed htrim
  have hdate : DateExpr.parse v = DateExpr.parse w := congrArg DateExpr.ofTrimmed htrim
  cases kind with
  | field | fieldId | fieldDepends =>
      simp only [filterText, restriction?, Restriction.ofMatch, hmatch]
  | fieldDate => simp only [filterText, restriction?, Restriction.ofDate, hdate]
  | fieldNumber =>
      simp only [filterText, restriction?, Restriction.ofNumber, h]
      split
      · rfl
      · rfl
  | _ => rfl

theorem filterText_of_restriction?_eq (h : restriction? 0 now name v kind = restriction? 0 now name w kind)
    (naming : Sql.Naming) : filterText naming now name v kind = filterText naming now name w kind := by
  rw [filterText, filterText, h]

/-- Whether the later entries of a value lead plainly, if they are tidied. -/
def LeadsPlainly (value : String) (kind : Kind) : Prop :=
  kind = .field → ∀ entry ∈ ((trim value.toList).splitOn ',').tail, Term.LeadsPlainly entry

instance (value : String) (kind : Kind) : Decidable (LeadsPlainly value kind) :=
  inferInstanceAs (Decidable (kind = .field → ∀ entry ∈ _, Term.LeadsPlainly entry))

/-- A value restricts as it does when it is stored. -/
theorem restriction?_storedForm (hkind : kind? name = some kind) (hlead : LeadsPlainly value kind)
    (bound : Nat) (now : Int) :
    restriction? bound now name (storedForm name (trimmed value)) kind =
      restriction? bound now name (trimmed value) kind := by
  have hstored (hplain : kind.tidiesCommas = false) : storedForm name (trimmed value) = trimmed value := by
    simp [storedForm, hkind, hplain]
  cases kind with
  | field =>
      have hparse : MatchExpr.parse (trimmed value) = MatchExpr.parse value :=
        congrArg MatchExpr.ofTrimmed (Text.trim_eq_of_trimmed_eq (Text.trimmed_trimmed value))
      have htidied : storedForm name (trimmed value) = Parameter.tidyCommas (trimmed value) := by
        simp [storedForm, hkind, Kind.tidiesCommas]
      simp only [restriction?, Restriction.ofMatch, htidied, hparse, MatchExpr.parse_tidyCommas (hlead rfl)]
  | columns => rfl
  | _ => rw [hstored rfl]

end Draft

/-! ## Pairs -/

theorem Sql.isBlank_of_mem_identifier {cs : List Char} (h : Sql.isIdentifier cs = true) {c : Char}
    (hc : c ∈ cs) : isBlank c = false := by
  apply isBlank_of_isPlainChar
  simp only [isPlainChar, isWordChar, Sql.isWord_of_mem_identifier h hc, Bool.true_or]

namespace Parameter

theorem not_percent_mem (hkind : kind? name = some kind) : '%' ∉ name.toList :=
  Sql.not_mem_identifier (Draft.isIdentifier_of_kind? hkind) (by decide)

theorem trimmed_pairOf (hkind : kind? name = some kind) (value : String) :
    trimmed (pairOf name value) = pairOf name (trimmedRight value) := by
  have hname := Draft.isIdentifier_of_kind? hkind
  have hleft : trimLeft name.toList = name.toList :=
    Text.dropWhile_of_not fun c hc => Sql.isBlank_of_mem_identifier hname hc
  have happart (value : List Char) : name.toList ++ ['%', '3', 'D'] ++ value =
      (name.toList ++ ['%', '3']) ++ 'D' :: value := by simp
  have hmark (value : List Char) : name.toList ++ ['%', '3', 'D'] ++ value =
      name.toList ++ '%' :: ('3' :: 'D' :: value) := by simp
  rw [← String.toList_inj, trimmed, String.toList_ofList, toList_pairOf, toList_pairOf, trimmedRight,
    String.toList_ofList, trim, hmark, Text.trimLeft_append_cons _ _ (by decide), hleft, ← hmark, happart,
    Text.trimRight_append_cons _ _ (by decide), ← happart]

theorem validate_pairOf (hkind : kind? name = some kind) {accepted : String}
    (h : validate "filters" value = .ok accepted) :
    validate "filters" (pairOf name value) = .ok (trimmed (pairOf name value)) := by
  have hfilters : kind? "filters" = some .filters := rfl
  have hadmits : ∀ c ∈ trim value.toList, Policy.filter.admitsChar c = true := by
    rw [eq_trimmed_of_validate h] at h
    exact (validate_eq_ok_iff hfilters (by decide)).mp h
  have hmark : ['%', '3', 'D'].all Policy.filter.admitsChar = true := by decide
  apply (validate_eq_ok_iff hfilters (by decide)).mpr
  intro c hc
  rw [← String.toList_ofList (l := trim _), ← trimmed, trimmed_pairOf hkind, toList_pairOf, trimmedRight,
    String.toList_ofList] at hc
  rcases List.mem_append.mp hc with hfront | hvalue
  · rcases List.mem_append.mp hfront with hname | hmem
    · have hword := Sql.isWord_of_mem_identifier (Draft.isIdentifier_of_kind? hkind) hname
      simp only [Kind.policy, Policy.admitsChar, isWordChar, hword, Bool.true_or]
    · exact List.all_eq_true.mp hmark c hmem
  · -- Of the value the pair keeps the blanks in front, which the class of filters holds.
    cases hblank : isBlank c with
    | true => simp only [Kind.policy, Policy.admitsChar, hblank, Bool.or_true, Bool.true_or]
    | false =>
        have hmem := (Text.mem_trimRight hblank).mp hvalue
        exact hadmits c ((Text.mem_trimRight hblank).mpr ((Text.mem_trimLeft hblank).mpr hmem))

end Parameter

namespace Parameter.Kind

/-- Whether a value restricts its field by itself. -/
def restricts : Kind → Bool
  | field | fieldId | fieldDate | fieldNumber | fieldDepends => true
  | _ => false

end Parameter.Kind

namespace Draft

variable {d : Draft} {custom : CustomFields}

theorem applyParameter_of_restricts (h : kind.restricts = true) (d : Draft) (now : Int) (name value : String) :
    d.applyParameter now (name, kind, value) = d.addFilter now name value kind := by
  cases kind with
  | field | fieldId | fieldDate | fieldNumber | fieldDepends => rfl
  | _ => cases h

/-- A parameter whose turn is a filter adds the conditions of the filter. -/
theorem parameterText_of_turn {parameter : String × Kind × String}
    (hturn : ∀ d : Draft, d.custom = custom →
      d.applyParameter now parameter = d.addFilter now name value kind) (naming : Sql.Naming) :
    parameterText naming now custom parameter = filterText naming now name value kind := by
  have hstart : ({ Draft.start .empty with custom } : Draft).Sound := ⟨by simp [Draft.start], rfl⟩
  have hadded : _ = _ ++ parameterText naming now custom parameter :=
    shownClauses_applyParameter hstart now parameter
  rw [hturn _ rfl, shownClauses_addFilter hstart] at hadded
  exact (List.append_cancel_left hadded).symm

section

variable (hkind : kind? name = some kind) (hwhole : ∀ sep ∈ ["%26", "%3D"], ¬ sep.toList <:+: value.toList)

include hkind hwhole

theorem reads_pairOf : Text.partsSeq "%26" (pairOf name value) = [pairOf name value] ∧
    Text.cutSeq "%3D" (pairOf name value) = some (name, value) ∧ Text.cutSeq "%3D" value = none := by
  have hpercent := Parameter.not_percent_mem hkind
  exact ⟨partsSeq_pairOf hpercent (hwhole "%26" (by decide)), cutSeq_pairOf hpercent value,
    cutSeq_eq_none (hwhole "%3D" (by decide))⟩

/-- A pair is a filter on the field that it names. -/
theorem applyParameter_pairOf (hfield : kind.isField = true) (hplain : custom.holds name = false)
    (hcustom : d.custom = custom) (now : Int) :
    d.applyParameter now ("filters", .filters, pairOf name value) = d.addFilter now name value kind := by
  obtain ⟨hpairs, hcut, hrest⟩ := reads_pairOf hkind hwhole
  rw [applyParameter, hpairs, List.foldl_cons, List.foldl_nil]
  simp [applyPair, hcut, hrest, hcustom, hplain, hkind, hfield]

end

/-- A filter of another kind adds nothing by itself. -/
theorem filterText_of_not_restricts (h : kind.restricts = false) (naming : Sql.Naming) (now : Int)
    (name value : String) : filterText naming now name value kind = [] := by
  cases kind with
  | field | fieldId | fieldDate | fieldNumber | fieldDepends => cases h
  | _ => rfl

theorem isSome_restriction? (bound : Nat) (now : Int) (name value : String) (kind : Kind) :
    (restriction? bound now name value kind).isSome = kind.restricts := by
  cases kind <;> rfl

end Draft

/-! ## Requests -/

/-- What a filter does to a request: its conditions come in at one place, with their values, its field is
fetched, and what is wrong with its value is told. -/
structure Compiled.Narrows (c base : Compiled) (naming : Sql.Naming) (now : Int) (f : Field) (value : String)
    (kind : Kind) : Prop where
  inserted : ∃ before after, (base.query.whereText naming).toList = before ++ after ∧
    (c.query.whereText naming).toList = before ++ filterText naming now f.name value kind ++ after
  required : c.query.required.contains f = true
  told : ∃ read, trimmed read = trimmed value ∧
    ∀ r, restriction? 0 now f.name read kind = some r → r.diagnostics ⊆ c.diagnostics

/-- A value that can be asked for by a parameter or by a pair: neither is set, the parameter is no custom field,
and both admit the value, which holds none of the sequences that end a pair or its value. -/
structure Store.Takes (s : Store) (name value : String) : Prop where
  unset : ∀ other ∈ [name, "filters"], s.present? other = none
  plain : (CustomFields.ofStore s).holds name = false
  counted : counts (trimmed value) = true
  admitted : ∀ other ∈ [name, "filters"], validate other value = .ok (trimmed value)
  whole : ∀ sep ∈ ["%26", "%3D"], ¬ sep.toList <:+: value.toList

instance (s : Store) (name value : String) : Decidable (s.Takes name value) :=
  decidable_of_iff ((∀ other ∈ [name, "filters"], s.present? other = none) ∧
    (CustomFields.ofStore s).holds name = false ∧ counts (trimmed value) = true ∧
    (∀ other ∈ [name, "filters"], validate other value = .ok (trimmed value)) ∧
    ∀ sep ∈ ["%26", "%3D"], ¬ sep.toList <:+: value.toList)
    ⟨fun ⟨hunset, hplain, hcounted, hadmitted, hwhole⟩ => ⟨hunset, hplain, hcounted, hadmitted, hwhole⟩,
      fun h => ⟨h.unset, h.plain, h.counted, h.admitted, h.whole⟩⟩

/-- The parameters that restrict by themselves are named like their fields. -/
theorem exists_field_of_restricts (hkind : kind? name = some kind) (h : kind.restricts = true) :
    ∃ f, Field.ofName? name = some f := by
  have hschema : ∀ entry ∈ Parameter.schema, entry.2.restricts = true →
      (Field.ofName? entry.1).isSome = true := by decide
  exact Option.isSome_iff_exists.mp (hschema _ (mem_of_lookup hkind) h)

theorem filtersRows_of_restricts (h : kind.restricts = true) :
    kind.isField = true ∧ kind.filtersRows = true := by
  cases kind with
  | field | fieldId | fieldDate | fieldNumber | fieldDepends => decide
  | _ => cases h

/-- A parameter narrows a request if its turn is a filter. -/
theorem narrows_of_set {other raw stored read : String} {rows : Kind} {f : Field}
    (hset : s.set other raw = .ok s') (hrows : kind? other = some rows) (hfilters : rows.filtersRows = true)
    (hother : "search" ≠ other) (hunset : s.present? other = none) (hstored : s'.present? other = some stored)
    (hturn : ∀ d : Draft, d.custom = .ofStore s' →
      d.applyParameter now (other, rows, stored) = d.addFilter now f.name read kind)
    (hread : ∃ v, trimmed v = trimmed value ∧
      restriction? 0 now f.name read kind = restriction? 0 now f.name v kind)
    (hrestricts : kind.restricts = true) (hnaming : naming.Avoids ['\'', '?']) :
    (compile s' now).Narrows (compile s now) naming now f value kind := by
  rw [← Draft.isSome_restriction? 0 now f.name read] at hrestricts
  obtain ⟨r, hr⟩ := Option.isSome_iff_exists.mp hrestricts
  obtain ⟨v, hv, hsame⟩ := hread
  have hrecords := records_drafted hrows hfilters hstored hturn hr
  have htext : Draft.entryText naming now s' (other, rows) = filterText naming now f.name value kind := by
    rw [Draft.entryText, hstored, ← Draft.filterText_of_trimmed_eq hv,
      ← Draft.filterText_of_restriction?_eq hsame]
    exact Draft.parameterText_of_turn hturn naming
  constructor
  · obtain ⟨before, after, hbase, hwhere⟩ :=
      exists_whereText_set hset hrows hfilters hother hunset now hnaming
    exact ⟨before, after, hbase, htext ▸ hwhere⟩
  · rw [required_compile]
    exact hrecords.required f (Field.ofName?_name f)
  · refine ⟨v, hv, fun r' hr' => ?_⟩
    rw [← hsame, hr] at hr'
    obtain rfl := Option.some.inj hr'
    rw [diagnostics_compile]
    exact List.Subset.trans hrecords.told (Draft.growsTo_assemble _).diagnostics.subset

namespace Store.Takes

section

variable (htakes : s.Takes name value) (hkind : kind? name = some kind)

include htakes hkind

/-- The turn of a pair is a filter by the value without the blanks at its end. -/
theorem turn_pairOf (hfield : kind.isField = true) (hset : s.set "filters" (pairOf name value) = .ok s')
    (now : Int) :
    s'.present? "filters" = some (pairOf name (trimmedRight value)) ∧
      ∀ d : Draft, d.custom = .ofStore s' →
        d.applyParameter now ("filters", .filters, pairOf name (trimmedRight value)) =
          d.addFilter now name (trimmedRight value) kind := by
  constructor
  · have hcounts : counts (pairOf name (trimmedRight value)) = true :=
      Parameter.counts_of_mem (c := '%') (by decide) (by simp [toList_pairOf])
    rw [← Parameter.trimmed_pairOf hkind value] at hcounts ⊢
    exact present?_set_self hset hcounts
  · intro d hcustom
    rw [ofStore_set hset (by decide)] at hcustom
    have hwhole : ∀ sep ∈ ["%26", "%3D"], ¬ sep.toList <:+: (trimmedRight value).toList := by
      intro sep hsep hfound
      rw [trimmedRight, String.toList_ofList] at hfound
      exact htakes.whole sep hsep (hfound.trans (Text.trimRight_isPrefix _).isInfix)
    exact Draft.applyParameter_pairOf hkind hwhole hfield htakes.plain hcustom now

variable {f : Field} (hnaming : naming.Avoids ['\'', '?'])

include hnaming

theorem narrows_set_pairOf (hrestricts : kind.restricts = true) (hf : Field.ofName? name = some f)
    (hset : s.set "filters" (pairOf name value) = .ok s') (now : Int) :
    (compile s' now).Narrows (compile s now) naming now f value kind := by
  have hfilters : kind? "filters" = some .filters := rfl
  obtain rfl := Field.name_of_ofName? hf
  obtain ⟨hstored, hturn⟩ := htakes.turn_pairOf hkind (filtersRows_of_restricts hrestricts).1 hset now
  exact narrows_of_set hset hfilters rfl (by decide) (htakes.unset _ (by simp)) hstored hturn
    ⟨_, Text.trimmed_trimmedRight value, rfl⟩ hrestricts hnaming

theorem narrows_set (hrestricts : kind.restricts = true) (hf : Field.ofName? name = some f)
    (hlead : Draft.LeadsPlainly value kind) (hset : s.set name value = .ok s') (now : Int) :
    (compile s' now).Narrows (compile s now) naming now f value kind := by
  have hsearch : "search" ≠ name := by
    rintro rfl
    cases hkind
    cases hrestricts
  obtain rfl := Field.name_of_ofName? hf
  have hstored := present?_set_self hset (Parameter.counts_storedForm htakes.counted f.name)
  have hturn (d : Draft) (_ : d.custom = .ofStore s') :
      d.applyParameter now (f.name, kind, storedForm f.name (trimmed value)) =
        d.addFilter now f.name (storedForm f.name (trimmed value)) kind :=
    Draft.applyParameter_of_restricts hrestricts d now _ _
  exact narrows_of_set hset hkind (filtersRows_of_restricts hrestricts).2 hsearch (htakes.unset _ (by simp))
    hstored hturn ⟨_, Text.trimmed_trimmed value, Draft.restriction?_storedForm hkind hlead 0 now⟩
    hrestricts hnaming

/-- A pair for any other filter adds no conditions. -/
theorem whereText_set_pairOf (hfield : kind.isField = true) (hother : kind.restricts = false)
    (hset : s.set "filters" (pairOf name value) = .ok s') (now : Int) :
    (compile s' now).query.whereText naming = (compile s now).query.whereText naming := by
  have hfilters : kind? "filters" = some .filters := rfl
  obtain ⟨hstored, hturn⟩ := htakes.turn_pairOf hkind hfield hset now
  have hnothing : Draft.entryText naming now s' ("filters", .filters) = [] := by
    rw [Draft.entryText, hstored, ← Draft.filterText_of_not_restricts hother naming now name]
    exact Draft.parameterText_of_turn hturn naming
  obtain ⟨before, after, hbase, hwhere⟩ :=
    exists_whereText_set hset hfilters rfl (by decide) (htakes.unset _ (by simp)) now hnaming
  rw [hnothing, List.append_nil] at hwhere
  exact String.toList_inj.mp (hwhere.trans hbase.symm)

end

end Store.Takes

/-- A pair adds to a request what the parameter that it names would add, if this parameter restricts by itself. -/
theorem pairs_filter_like_parameters (hkind : kind? name = some kind) (hrestricts : kind.restricts = true)
    (htakes : s.Takes name value) (hlead : Draft.LeadsPlainly value kind) (now : Int)
    (hnaming : naming.Avoids ['\'', '?']) :
    ∃ paired direct f, s.set "filters" (pairOf name value) = .ok paired ∧ s.set name value = .ok direct ∧
      Field.ofName? name = some f ∧
      (compile paired now).Narrows (compile s now) naming now f value kind ∧
      (compile direct now).Narrows (compile s now) naming now f value kind := by
  obtain ⟨f, hf⟩ := exists_field_of_restricts hkind hrestricts
  obtain ⟨paired, hpaired⟩ := Store.set_of_validate (s := s)
    (Parameter.validate_pairOf hkind (htakes.admitted "filters" (by simp)))
  obtain ⟨direct, hdirect⟩ := Store.set_of_validate (s := s) (htakes.admitted name (by simp))
  exact ⟨paired, direct, f, hpaired, hdirect, hf,
    htakes.narrows_set_pairOf hkind hnaming hrestricts hf hpaired now,
    htakes.narrows_set hkind hnaming hrestricts hf hlead hdirect now⟩

/-- A list with blanks around its entries. -/
theorem pairs_filter_cc : Store.empty.Takes "cc" " a, b " ∧
    ∃ paired direct f, Store.empty.set "filters" (pairOf "cc" " a, b ") = .ok paired ∧
      Store.empty.set "cc" " a, b " = .ok direct ∧ Field.ofName? "cc" = some f ∧
      (compile paired 0).Narrows (compile .empty 0) .plain 0 f " a, b " .field ∧
      (compile direct 0).Narrows (compile .empty 0) .plain 0 f " a, b " .field := by
  have htakes : Store.empty.Takes "cc" " a, b " := by decide +kernel
  exact ⟨htakes, pairs_filter_like_parameters rfl rfl htakes (by decide +kernel) 0
    (Sql.Naming.avoids_of_all (by intro t; cases t <;> decide))⟩

/-- A pair for the keywords is dropped without a word, though the parameter restricts the rows. And a pair keeps a
blank behind a comma that no term may start with, which a list loses. -/
theorem pairs_differ :
    (((kind? "keywords").any Kind.isField) = true ∧ Parameter.default? "keywords" = none ∧
      Store.empty.Takes "keywords" "x" ∧
      (compile (Store.empty.applyLines ["filters=keywords%3Dx"]).1 0).diagnostics = [] ∧
      (compile (Store.empty.applyLines ["filters=keywords%3Dx"]).1 0).query.whereText .plain =
        (compile .empty 0).query.whereText .plain ∧
      (compile (Store.empty.applyLines ["keywords=x"]).1 0).query.whereText .plain ≠
        (compile .empty 0).query.whereText .plain) ∧
    Store.empty.Takes "cc" "a,\u00a0b" ∧
    (compile (Store.empty.applyLines ["filters=cc%3Da,\u00a0b"]).1 0).query.whereText .plain ≠
      (compile (Store.empty.applyLines ["cc=a,\u00a0b"]).1 0).query.whereText .plain := by
  have hplain : Sql.Naming.plain.Avoids ['\'', '?'] :=
    Sql.Naming.avoids_of_all (by intro t; cases t <;> decide)
  refine ⟨⟨by decide, by decide, by decide +kernel, by decide +kernel, ?_, ?_⟩, by decide +kernel, ?_⟩
  · rw [← String.toList_inj, toList_whereText _ 0 hplain, toList_whereText _ 0 hplain]
    decide +kernel
  · rw [ne_eq, ← String.toList_inj, toList_whereText _ 0 hplain, toList_whereText _ 0 hplain]
    decide +kernel
  · rw [ne_eq, ← String.toList_inj, toList_whereText _ 0 hplain, toList_whereText _ 0 hplain]
    decide +kernel

end BugReport
