import BugReport.Proofs.Report.Selected

/-! # Distinct labels

A fetched row has one text for each label, so two selected entries with one label are one entry too many. The
labels of fields are apart from each other, and custom fields are added once each. What is left are custom
fields with the name of a label: a pair of the `filters` parameter is not held against the fields, and no
custom field is held against the labels that fields have under other names than their own.
-/

namespace BugReport

open Sql (Item Identifier isIdentifier)
open Parameter (Kind)

/-! ## Labels of fields -/

namespace Field

/-- Two fields have a label in common only if both are forms of the flags. -/
theorem labels_disjoint : ∀ f g : Field, f ≠ g → ∀ label ∈ f.labels, label ∈ g.labels →
    f = .flag ∧ g = .quickflag ∨ f = .quickflag ∧ g = .flag := by
  decide +kernel

theorem nodup_labels : ∀ f : Field, f.labels.Nodup := by
  decide +kernel

theorem isIdentifier_of_mem_labels : ∀ f : Field, ∀ label ∈ f.labels,
    label ≠ "id" ∧ isIdentifier label.toList = true := by
  decide +kernel

theorem nodup_all : all.Nodup := by
  decide +kernel

end Field

/-- The short form of the flags is not selected beside the full one. -/
theorem FieldSet.selects_quickflag {required : FieldSet} (h : required.selects .flag = true) :
    required.selects .quickflag = false := by
  have hflag : required.contains .flag = true := h
  simp [selects, hflag]

/-- The labels of all fields that a statement selects. -/
def FieldSet.labels (required : FieldSet) : List String :=
  (Field.all.filter required.selects).flatMap Field.labels

namespace FieldSet

variable {required : FieldSet} {label : String}

theorem mem_labels :
    label ∈ required.labels ↔ ∃ f, required.selects f = true ∧ label ∈ f.labels := by
  simp [labels, Field.mem_all]

theorem nodup_labels (required : FieldSet) : required.labels.Nodup := by
  rw [labels, List.nodup_flatMap]
  refine ⟨fun f _ => f.nodup_labels, ?_⟩
  apply (Field.nodup_all.filter required.selects).imp_of_mem
  intro f g hf hg hne label hlabel hlabel'
  have hselected : required.selects f = true := (List.mem_filter.mp hf).2
  have hselected' : required.selects g = true := (List.mem_filter.mp hg).2
  rcases Field.labels_disjoint f g hne label hlabel hlabel' with ⟨rfl, rfl⟩ | ⟨rfl, rfl⟩
  · rw [selects_quickflag hselected] at hselected'
    cases hselected'
  · rw [selects_quickflag hselected'] at hselected
    cases hselected

end FieldSet

/-! ## Custom fields -/

namespace Draft

variable {d : Draft}

theorem nodup_customFields_addCustomField (h : d.customFields.Nodup) (name : String) :
    (d.addCustomField name).customFields.Nodup := by
  unfold addCustomField
  split
  next i _ =>
      split
      · exact h
      next hnew =>
          rw [List.contains_iff_mem] at hnew
          exact List.nodup_append.mpr ⟨h, List.nodup_singleton i, by
            rintro j hj _ hi rfl
            exact hnew (List.mem_singleton.mp hi ▸ hj)⟩
  · exact h

theorem nodup_customFields_foldl {α : Type} {f : Draft → α → Draft}
    (hstep : ∀ (d : Draft) x, d.customFields.Nodup → (f d x).customFields.Nodup)
    (h : d.customFields.Nodup) (xs : List α) : (xs.foldl f d).customFields.Nodup := by
  induction xs generalizing d with
  | nil => exact h
  | cons x xs ih => exact ih (hstep d x h)

theorem nodup_customFields_applyPair (now : Int) (pair : String) (h : d.customFields.Nodup) :
    (d.applyPair now pair).customFields.Nodup := by
  apply applyPair_cases (motive := fun d' _ => d'.customFields.Nodup) d now pair
  · intro told
    exact h
  · intro name rest _ _ _
    rw [customFields_addFilter]
    exact nodup_customFields_addCustomField h name
  · intro name rest kind _ _
    rw [customFields_addFilter]
    exact h

theorem nodup_customFields_applyParameter (now : Int) (parameter : String × Kind × String)
    (h : d.customFields.Nodup) : (d.applyParameter now parameter).customFields.Nodup := by
  obtain ⟨name, kind, value⟩ := parameter
  unfold applyParameter
  dsimp only
  split
  · exact nodup_customFields_foldl (fun _ pair => nodup_customFields_applyPair now pair) h _
  · rw [customFields_addClauses, customFields_filterField]
    exact h
  · rw [customFields_addFilter]
    exact h

theorem nodup_customFields_arrange (h : d.customFields.Nodup) : d.arrange.1.customFields.Nodup := by
  have hcolumn (d : Draft) (column : String) (h : d.customFields.Nodup) :
      (d.fetchColumn column).customFields.Nodup := by
    unfold fetchColumn
    split
    · exact h
    · split
      · exact nodup_customFields_addCustomField h column
      · exact h
  have hgroup (d : Draft) (column : String) (h : d.customFields.Nodup) :
      (d.fetchGroup column).customFields.Nodup := by
    unfold fetchGroup
    split
    · exact nodup_customFields_addCustomField h column
    · exact h
  rw [← customFields_settled] at h
  rw [arrange_fst, customFields_applyBar]
  exact nodup_customFields_foldl hgroup (nodup_customFields_foldl hcolumn h _) _

theorem labels_assemble (d : Draft) :
    d.assemble.2.labels = "id" :: (d.required.labels ++ d.customFields.map Identifier.text) := by
  have hfields : (d.required.items (personName d.store)).map Item.label = d.required.labels := by
    simp only [FieldSet.items, FieldSet.labels, List.map_flatMap, Field.labels_items]
  have hcustom : (d.customFields.map fun i => Item.ofColumn "bugs" i.text i.text).map Item.label =
      d.customFields.map Identifier.text := by
    rw [List.map_map]
    rfl
  rw [← hfields, ← hcustom, ← List.map_append]
  rfl

/-- Labels are distinct if and only if no custom field has the name of one. -/
theorem nodup_labels_assemble (h : d.customFields.Nodup) :
    d.assemble.2.labels.Nodup ↔
      ∀ i ∈ d.customFields, i.text ≠ "id" ∧ i.text ∉ d.required.labels := by
  have hid : "id" ∉ d.required.labels := by
    intro hmem
    obtain ⟨f, -, hlabel⟩ := FieldSet.mem_labels.mp hmem
    exact (f.isIdentifier_of_mem_labels _ hlabel).1 rfl
  have hinjective : Function.Injective Identifier.text := by
    rintro ⟨text, _⟩ ⟨_, _⟩ rfl
    rfl
  have hcustom : (d.customFields.map Identifier.text).Nodup := h.map hinjective
  rw [labels_assemble, List.nodup_cons, List.nodup_append]
  constructor
  · rintro ⟨hnotId, -, -, hapart⟩ i hi
    have htext : i.text ∈ d.customFields.map Identifier.text := List.mem_map_of_mem hi
    refine ⟨fun heq => hnotId (List.mem_append_right _ (heq ▸ htext)), ?_⟩
    exact fun hlabel => hapart _ hlabel _ htext rfl
  · intro hapart
    refine ⟨?_, d.required.nodup_labels, hcustom, ?_⟩
    · intro hmem
      rcases List.mem_append.mp hmem with hfield | hnamed
      · exact hid hfield
      · obtain ⟨i, hi, htext⟩ := List.mem_map.mp hnamed
        exact (hapart i hi).1 htext
    · rintro label hlabel _ hnamed rfl
      obtain ⟨i, hi, rfl⟩ := List.mem_map.mp hnamed
      exact (hapart i hi).2 hlabel

end Draft

/-! ## Requests -/

theorem nodup_customFields_drafted (store : Store) (now : Int) :
    (drafted store now).customFields.Nodup := by
  have hprepared : (Draft.start store).prepare.customFields.Nodup := by
    rw [Draft.customFields_prepare]
    exact List.nodup_nil
  have hfiltered : ((Draft.start store).prepare.applyParameters now).customFields.Nodup :=
    Draft.nodup_customFields_foldl (fun _ parameter => Draft.nodup_customFields_applyParameter now parameter)
      hprepared _
  rw [← Draft.customFields_conclude] at hfiltered
  exact Draft.nodup_customFields_arrange hfiltered

/-- Whether a label belongs to the id or to a field that is selected. -/
def Compiled.OwnsLabel (c : Compiled) (label : String) : Prop :=
  label = "id" ∨ ∃ f, c.query.required.selects f = true ∧ label ∈ f.labels

/-- Whether a name is fetched as a custom field: it stands for one, and a pair of the `filters` parameter
names it, or no field has it and it is a resolved column or an entry of the group. -/
def Compiled.FetchesCustom (c : Compiled) (store : Store) (name : String) : Prop :=
  (CustomFields.ofStore store).holds name = true ∧
    (store.FiltersPair name ∨ Field.ofName? name = none ∧
      (name ∈ c.query.columns ∨ name ∈ Draft.groupEntries c.store))

theorem Compiled.isIdentifier_of_ownsLabel {c : Compiled} {label : String} (h : c.OwnsLabel label) :
    isIdentifier label.toList = true := by
  rcases h with rfl | ⟨f, -, hlabel⟩
  · decide
  · exact (f.isIdentifier_of_mem_labels label hlabel).2

theorem nodup_labels_compile (store : Store) (now : Int) :
    (compile store now).query.statement.labels.Nodup ↔
      ∀ i ∈ (compile store now).query.customFields, ¬ (compile store now).OwnsLabel i.text := by
  rw [statement_compile, Draft.nodup_labels_assemble (nodup_customFields_drafted store now),
    ← customFields_compile]
  apply forall₂_congr
  intro i _
  rw [FieldSet.mem_labels, ← required_compile, Compiled.OwnsLabel, not_or]

/-- With the settings that requests start from, labels are distinct. -/
theorem nodup_labels_of_defaults {store : Store} (himplicit : store.get? "implicitcustom" ≠ some "true")
    (hstart : store.get? "customprefix" = some "cf_") (hlisted : store.present? "customfields" = none)
    (now : Int) : (compile store now).query.statement.labels.Nodup := by
  have hlabels : ∀ f : Field, ∀ label ∈ f.labels, Text.startsWith "cf_" label = false := by
    decide +kernel
  have hholds (name : String) :
      (CustomFields.ofStore store).holds name = Text.startsWith "cf_" name := by
    simp [CustomFields.ofStore, CustomFields.holds, himplicit, hstart, hlisted]
  rw [nodup_labels_compile]
  intro i hi howned
  have hcustom := (mem_customFields_compile.mp hi).1
  rw [hholds] at hcustom
  rcases howned with hid | ⟨f, -, hlabel⟩
  · rw [hid] at hcustom
    exact absurd hcustom (by decide)
  · rw [hlabels f _ hlabel] at hcustom
    cases hcustom

/-- The labels of a request's statement are distinct if and only if none of the labels of the id and the
selected fields is fetched as a custom field, too. -/
theorem nodup_labels_iff (store : Store) (now : Int) :
    (compile store now).query.statement.labels.Nodup ↔
      ∀ label, (compile store now).OwnsLabel label →
        ¬ (compile store now).FetchesCustom store label := by
  rw [nodup_labels_compile]
  constructor
  · intro hapart label howned hfetched
    have hidentifier := Compiled.isIdentifier_of_ownsLabel howned
    exact hapart ⟨label, hidentifier⟩ (mem_customFields_compile.mpr hfetched) howned
  · intro hapart i hi howned
    exact hapart i.text howned (mem_customFields_compile.mp hi)

/-- A custom field that is filtered by under the name of a field is selected beside it, and so is one under
the label of a field with another name. -/
theorem labels_repeat_custom_names :
    ¬ (compile (Store.empty.applyLines ["customfields=status", "filters=status%3DNEW"]).1
        0).query.statement.labels.Nodup ∧
    ¬ (compile (Store.empty.applyLines ["customfields=raisedby", "columns=from,raisedby"]).1
        0).query.statement.labels.Nodup := by
  decide +kernel

end BugReport
