import BugReport.Query.Compile

/-! # What rules leave alone

The rules around the filters infer parameters, require fields, show and hide columns, give formats and tell
what is wrong. An observation that sees none of this is the same before and after each of them, so it has to
be followed through the filters, the search and the custom fields only.
-/

namespace BugReport.Draft

open Parameter (Kind)

variable {α β : Type} {view : Draft → β} {f : Draft → α → Draft}

/-- Repeating a rule that leaves an observation alone leaves it alone. -/
theorem view_foldl (hstep : ∀ d x, view (f d x) = view d) (d : Draft) (xs : List α) :
    view (xs.foldl f d) = view d := by
  induction xs generalizing d with
  | nil => rfl
  | cons x xs ih => exact (ih (f d x)).trans (hstep d x)

/-- An observation that sees neither the store nor the required fields, the columns, the formats and the
diagnostics. -/
structure Apart (view : Draft → β) : Prop where
  store : ∀ d store, view { d with store } = view d
  required : ∀ d required, view { d with required } = view d
  selection : ∀ d selection, view { d with selection } = view d
  formats : ∀ d formats, view { d with formats } = view d
  diagnostics : ∀ d diagnostics, view { d with diagnostics } = view d

namespace Apart

variable (h : Apart view) (d : Draft)

include h

/-! ## Single changes -/

theorem warn (diagnostics : List Diagnostic) : view (d.warn diagnostics) = view d :=
  h.diagnostics d _

theorem require (field : Field) : view (d.require field) = view d :=
  h.required d _

theorem requireName (name : String) : view (d.requireName name) = view d :=
  h.required d _

theorem addColumn (column : String) : view (d.addColumn column) = view d :=
  h.selection d _

theorem removeColumn (column : String) : view (d.removeColumn column) = view d :=
  h.selection d _

theorem putFormat (column format : String) : view (d.putFormat column format) = view d :=
  h.formats d _

/-! ## Before the filters -/

theorem applyLink (entry : String) : view (d.applyLink entry) = view d := by
  unfold Draft.applyLink
  split
  · exact (h.addColumn _ _).trans (h.putFormat d _ _)
  · exact (h.addColumn _ _).trans (h.putFormat d _ _)

theorem applyLinks : view d.applyLinks = view d := by
  unfold Draft.applyLinks
  split
  · exact view_foldl h.applyLink d _
  · rfl

theorem applyLastCommentFormat : view d.applyLastCommentFormat = view d := by
  unfold Draft.applyLastCommentFormat
  split
  · dsimp only
    split
    · exact h.require d _
    · exact (h.putFormat _ _ _).trans (h.require d _)
  · rfl

theorem applyGroup : view d.applyGroup = view d := by
  unfold Draft.applyGroup
  dsimp only
  split
  · exact (h.warn _ _).trans (h.store d _)
  · exact h.store d _

theorem applyFormat (parameter column : String) : view (applyFormat parameter column d) = view d := by
  unfold Draft.applyFormat
  split
  · exact h.putFormat d _ _
  · rfl

theorem prepare : view d.prepare = view d := by
  have hgroup : view d.applyLinks.applyLastCommentFormat.applyGroup = view d :=
    (h.applyGroup _).trans ((h.applyLastCommentFormat _).trans (h.applyLinks d))
  exact (h.applyFormat _ _ _).trans ((h.applyFormat _ _ _).trans hgroup)

/-! ## Beside the filters -/

theorem showFiltered (name value : String) (kind : Kind) :
    view (d.showFiltered name value kind) = view d := by
  have hshown : view (d.showFiltered name value .field) = view d := by
    simp only [Draft.showFiltered]
    split
    · split
      · exact (h.store _ _).trans (h.addColumn d name)
      · exact h.addColumn d name
    · exact h.removeColumn d name
  cases kind with
  | field | fieldDate | fieldNumber => exact hshown
  | _ => rfl

/-! ## After the filters -/

theorem applyListFormat : view d.applyListFormat = view d := by
  unfold Draft.applyListFormat
  split
  · exact (h.require _ _).trans (h.require d _)
  · rfl

theorem applyFlag : view d.applyFlag = view d := by
  unfold Draft.applyFlag
  split
  · exact (h.addColumn _ _).trans ((h.addColumn _ _).trans ((h.addColumn _ _).trans (h.require d _)))
  · rfl

theorem applyLastComment : view d.applyLastComment = view d := by
  unfold Draft.applyLastComment
  split
  · exact h.require d _
  · rfl

theorem applyGroupOrder : view d.applyGroupOrder = view d := by
  unfold Draft.applyGroupOrder
  split
  · exact h.store d _
  · rfl

/-- The search is the only rule behind the filters that binds a value. -/
theorem conclude (hsearch : ∀ d : Draft, view d.applySearch = view d) : view d.conclude = view d := by
  have hbefore : view d.applyListFormat.applyFlag.applyLastComment = view d :=
    (h.applyLastComment _).trans ((h.applyFlag _).trans (h.applyListFormat d))
  exact (h.require _ _).trans ((h.require _ _).trans
    ((h.applyGroupOrder _).trans ((hsearch _).trans hbefore)))

/-! ## Columns -/

theorem applySort : view d.applySort = view d :=
  (view_foldl (fun _ _ => (h.requireName _ _).trans (h.addColumn _ _)) _ _).trans (h.store d _)

theorem hideGroup : view d.hideGroup = view d :=
  view_foldl (fun _ _ => (h.requireName _ _).trans (h.removeColumn _ _)) d _

theorem settleColumns : view d.settleColumns.1 = view d :=
  (h.warn _ _).trans (h.selection d _)

theorem applyBar : view d.applyBar = view d := by
  unfold Draft.applyBar
  split
  · exact h.requireName d _
  · rfl

section

variable (hcustom : ∀ (d : Draft) customFields, view { d with customFields } = view d)

include hcustom

theorem addCustomField (name : String) : view (d.addCustomField name) = view d := by
  unfold Draft.addCustomField
  split
  · split
    · rfl
    · exact hcustom d _
  · exact h.warn d _

theorem fetchColumn (column : String) : view (d.fetchColumn column) = view d := by
  unfold Draft.fetchColumn
  split
  · exact h.requireName d column
  · split
    · exact h.addCustomField d hcustom column
    · rfl

theorem fetchGroup (column : String) : view (d.fetchGroup column) = view d := by
  unfold Draft.fetchGroup
  split
  · exact h.addCustomField d hcustom column
  · rfl

theorem arrange : view d.arrange.1 = view d := by
  have hsettled : view d.applySort.hideGroup.settleColumns.1 = view d :=
    (h.settleColumns _).trans ((h.hideGroup _).trans (h.applySort d))
  simp only [Draft.arrange]
  rw [h.applyBar, view_foldl (fun d column => h.fetchGroup d hcustom column),
    view_foldl (fun d column => h.fetchColumn d hcustom column), hsettled]

end

end Apart

end BugReport.Draft
