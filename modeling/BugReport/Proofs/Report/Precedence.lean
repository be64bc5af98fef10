import BugReport.Proofs.Parameter.Lines
import BugReport.Report.Request

/-! # The caller over the configuration

What the arguments of a request store last for a parameter is what it holds. Where they store nothing, the configured
parameters do: those of the site and behind them those of the instance, of which again the last one counts. What is
refused counts as if it had not been there, and the instance and the alternate are for the arguments to say.
-/

namespace BugReport

open Parameter (counts)

namespace Store

variable {lines more : List String} {line name value : String} {told : Diagnostic}

/-! ## The last text -/

/-- Whether a text is the last one that lines store for a parameter. -/
def LastStored (lines : List String) (name value : String) : Prop :=
  ∃ earlier line later, lines = earlier ++ line :: later ∧ Stores line name value ∧
    ∀ other ∈ later, ∀ text, ¬ Stores other name text

theorem lastValue?_append (lines more : List String) (name : String) :
    lastValue? (lines ++ more) name = (lastValue? more name <|> lastValue? lines name) := by
  simp [lastValue?, List.lookup_append]

theorem lastValue?_of_not_stores (h : ∀ line ∈ lines, ∀ text, ¬ Stores line name text) :
    lastValue? lines name = none := by
  apply lastValue?_eq_none
  rintro ⟨_, text⟩ hentry rfl
  obtain ⟨line, hline, hassigned⟩ := List.mem_filterMap.mp hentry
  exact h line hline text (assignment?_eq_some_iff.mp hassigned)

theorem lastValue?_singleton (h : Stores line name value) : lastValue? [line] name = some value := by
  simp [lastValue?, assignment?_eq_some_iff.mpr h]

theorem lastValue?_eq_some_iff : lastValue? lines name = some value ↔ LastStored lines name value := by
  constructor
  · intro h
    obtain ⟨after, before, hsplit, hafter⟩ := List.lookup_eq_some_iff.mp h
    rw [List.reverse_eq_iff, List.reverse_append, List.reverse_cons, List.append_assoc] at hsplit
    obtain ⟨front, rest, rfl, -, hrest⟩ := List.filterMap_eq_append_iff.mp hsplit
    obtain ⟨skipped, line, later, rfl, -, hline, hlater⟩ := List.filterMap_eq_cons_iff.mp hrest
    refine ⟨front ++ skipped, line, later, (List.append_assoc ..).symm, assignment?_eq_some_iff.mp hline, ?_⟩
    intro other hother text hstores
    have hmem : (name, text) ∈ later.filterMap assignment? :=
      List.mem_filterMap.mpr ⟨other, hother, assignment?_eq_some_iff.mpr hstores⟩
    rw [hlater] at hmem
    simpa using hafter _ (List.mem_reverse.mp hmem)
  · rintro ⟨earlier, line, later, rfl, hline, hlater⟩
    rw [lastValue?_append, lastValue?_cons, lastValue?_of_not_stores hlater, lastValue?_singleton hline]
    rfl

/-- What is stored last does not depend on lines that store something else. -/
theorem lastValue?_filter {keep : String → Bool}
    (h : ∀ line ∈ lines, ∀ text, Stores line name text → keep line = true) :
    lastValue? (lines.filter keep) name = lastValue? lines name := by
  induction lines with
  | nil => rfl
  | cons line lines ih =>
      obtain ⟨hline, hlines⟩ := List.forall_mem_cons.mp h
      rw [lastValue?_cons, ← ih hlines]
      by_cases hkeep : keep line = true
      · rw [List.filter_cons_of_pos hkeep, lastValue?_cons]
      · have hnone : lastValue? [line] name = none :=
          lastValue?_of_not_stores (by simpa using fun text hstores => hkeep (hline text hstores))
        rw [List.filter_cons_of_neg hkeep, hnone]
        cases lastValue? (lines.filter keep) name <;> rfl

theorem Refused.not_stores (h : Refused line told) (name text : String) : ¬ Stores line name text := by
  intro hstores
  have hassigned := assignment?_eq_some_iff.mpr hstores
  have hrefused := refusal?_eq_some_iff.mpr h
  obtain ⟨⟨key, raw⟩, hcut, hvalid⟩ := Option.bind_eq_some_iff.mp hassigned
  rw [refusal?, hcut, Option.bind_some] at hrefused
  dsimp only at hvalid hrefused
  split at hvalid
  next hok => rw [hok] at hrefused; cases hrefused
  · cases hvalid

/-- A refused line might as well not be there. -/
theorem Refused.lastValue?_eq (h : Refused line told) (earlier later : List String) (name : String) :
    lastValue? (earlier ++ line :: later) name = lastValue? (earlier ++ later) name := by
  have hnone : lastValue? [line] name = none :=
    lastValue?_of_not_stores (by simpa using h.not_stores name)
  rw [lastValue?_append, lastValue?_append, lastValue?_cons, hnone]
  cases lastValue? later name <;> rfl

theorem present?_applyLines (lines : List String) (hdefault : Parameter.default? name = none) :
    (empty.applyLines lines).1.present? name = (lastValue? lines name).filter counts := by
  rw [applyLines_eq, present?, get?, hdefault]
  simp [empty]

end Store

namespace Request

open Store (LastStored Refused Stores lastValue?)

/-! ## Configured parameters -/

/-- Whether an entry is for a parameter that the caller left open. -/
def isOpen (caller : Store) (entry : String) : Bool :=
  match Text.cut '=' entry with
  | none => true
  | some (name, _) => (caller.explicit (Text.trimmed name)).isNone

variable {caller : Store} {entry name value : String}

theorem isOpen_of_stores (h : Stores entry name value) : isOpen caller entry = (caller.explicit name).isNone := by
  obtain ⟨raw, hgives, -⟩ := h
  obtain ⟨key, hcut, rfl⟩ := Store.gives_iff.mp hgives
  simp only [isOpen, hcut]

theorem applyDefault_eq (caller s : Store) (entry : String) :
    applyDefault caller s entry = if isOpen caller entry then s.applyLine entry else (s, []) := by
  unfold applyDefault isOpen Store.applyLine
  cases Text.cut '=' entry with
  | none => rfl
  | some pair =>
      cases hset : caller.explicit (Text.trimmed pair.1) with
      | none => simp [hset]
      | some text => simp [hset]

/-- Configured parameters are lines of which those for parameters that the caller set are left out. -/
theorem applyDefaults_eq (caller s : Store) (entries : List String) :
    applyDefaults caller s entries = s.applyLines (entries.filter (isOpen caller)) := by
  induction entries generalizing s with
  | nil => rfl
  | cons entry entries ih =>
      by_cases hopen : isOpen caller entry = true
      · simp only [applyDefaults, applyDefault_eq, if_pos hopen, List.filter_cons_of_pos hopen,
          Store.applyLines, ih]
      · simp only [applyDefaults, applyDefault_eq, if_neg hopen, List.filter_cons_of_neg hopen, ih,
          List.nil_append]

theorem applyDefaults_self (caller : Store) (entries : List String) :
    (applyDefaults caller caller entries).1 =
      { caller with explicit := fun name => caller.explicit name <|> lastValue? entries name } := by
  simp only [applyDefaults_eq, Store.applyLines_eq]
  congr 1
  funext name
  cases hset : caller.explicit name with
  | some text =>
      have hnone : lastValue? (entries.filter (isOpen caller)) name = none := by
        apply Store.lastValue?_of_not_stores
        intro entry hentry text hstores
        have hopen := (List.mem_filter.mp hentry).2
        rw [isOpen_of_stores hstores, hset] at hopen
        cases hopen
      rw [hnone]
      rfl
  | none =>
      have hsame : lastValue? (entries.filter (isOpen caller)) name = lastValue? entries name := by
        apply Store.lastValue?_filter
        intro entry _ text hstores
        rw [isOpen_of_stores hstores, hset]
        rfl
      rw [hsame]
      cases lastValue? entries name <;> rfl

/-! ## Requests -/

/-- The configured parameters: those of the site, and behind them those of the selected instance. -/
def configured (file : ConfigFile) (selected : Option String) : List String :=
  (file.base.defaults.toList ++ ((file.layer? selected).bind ConfigLayer.defaults).toList).flatMap
    ConfigFile.splitDefaults

theorem defaultParameters_eq (file : ConfigFile) (selected : Option String) :
    file.defaultParameters selected = configured file selected := by
  unfold ConfigFile.defaultParameters configured
  cases file.layer? selected with
  | none => simp
  | some layer => simp

variable {args : List String}

/-- The instance or the alternate that arguments select. -/
theorem filter_lastValue?_eq_some_iff : (lastValue? args name).filter counts = some value ↔
    LastStored args name value ∧ counts value = true := by
  rw [Option.filter_eq_some_iff, Store.lastValue?_eq_some_iff]

theorem settings_ofArgs (file : ConfigFile) (args : List String) :
    (ofArgs file args).settings = (file.resolve ((lastValue? args "instance").filter counts)
      ((lastValue? args "bzalternateconfig").filter counts)).1 := by
  rw [← Store.present?_applyLines args (by decide), ← Store.present?_applyLines args (by decide)]
  rfl

theorem store_ofArgs (file : ConfigFile) (args : List String) :
    (ofArgs file args).store = { Store.empty with
      explicit := fun name => lastValue? args name <|>
        lastValue? (configured file ((lastValue? args "instance").filter counts)) name } := by
  have hcaller : (Store.empty.applyLines args).1 = { Store.empty with explicit := lastValue? args } := by
    rw [Store.applyLines_eq]
    simp [Store.empty]
  rw [← Store.present?_applyLines args (by decide), ← defaultParameters_eq]
  simp only [ofArgs, applyDefaults_self, hcaller]

/-- A request holds for a parameter what the arguments store last, and where they store nothing what the configured
parameters do, those of the site and behind them those of the instance that the arguments select. Refused arguments
and refused entries make no difference to that. The settings are those for the instance and the alternate of the
arguments, whatever the configured parameters say. -/
theorem caller_over_configured (file : ConfigFile) (args : List String) :
    ∃ selected alternate : Option String,
      (∀ name, selected = some name ↔ LastStored args "instance" name ∧ counts name = true) ∧
      (∀ name, alternate = some name ↔ LastStored args "bzalternateconfig" name ∧ counts name = true) ∧
      (ofArgs file args).settings = (file.resolve selected alternate).1 ∧
      (∀ name value, (ofArgs file args).store.explicit name = some value ↔
        LastStored args name value ∨
          (∀ text, ¬ LastStored args name text) ∧ LastStored (configured file selected) name value) ∧
      (∀ earlier line later told, args = earlier ++ line :: later → Refused line told →
        (ofArgs file args).store = (ofArgs file (earlier ++ later)).store ∧
          (ofArgs file args).settings = (ofArgs file (earlier ++ later)).settings) ∧
      ∀ (caller : Store) (earlier : List String) (entry : String) (later : List String) (told : Diagnostic),
        Refused entry told → (applyDefaults caller caller (earlier ++ entry :: later)).1 =
          (applyDefaults caller caller (earlier ++ later)).1 := by
  refine ⟨_, _, fun _ => filter_lastValue?_eq_some_iff, fun _ => filter_lastValue?_eq_some_iff,
    settings_ofArgs file args, ?_, ?_, ?_⟩
  · intro name value
    rw [store_ofArgs]
    simp only [← Store.lastValue?_eq_some_iff]
    cases lastValue? args name with
    | some text => simp
    | none => simp
  · rintro earlier line later told rfl hrefused
    simp only [store_ofArgs, settings_ofArgs, hrefused.lastValue?_eq, and_self]
  · intro caller earlier entry later told hrefused
    simp only [applyDefaults_self, hrefused.lastValue?_eq]

/-- The site names another instance than the caller, and the caller's own sort list is refused. -/
theorem caller_over_configured_instance :
    ∃ (file : ConfigFile) (args : List String), args = ["instance=ops", "sort=a&b"] ∧
      "instance=dev" ∈ configured file none ∧ (ofArgs file args).store.explicit "instance" = some "ops" ∧
      (ofArgs file args).store.explicit "sort" = some "id" := by
  let file : ConfigFile :=
    { base := { defaults := some "sort=votes|instance=dev" }
      instances := [("ops", { defaults := some "sort=id" }), ("dev", {})] }
  let args := ["instance=ops", "sort=a&b"]
  obtain ⟨selected, -, hselected, -, -, hexplicit, -⟩ := caller_over_configured file args
  have hops : LastStored args "instance" "ops" := Store.lastValue?_eq_some_iff.mp (by decide +kernel)
  have hnone : lastValue? args "sort" = none := by decide +kernel
  obtain rfl : selected = some "ops" := (hselected "ops").mpr ⟨hops, by decide⟩
  refine ⟨file, args, rfl, by decide +kernel, (hexplicit _ _).mpr (.inl hops), (hexplicit _ _).mpr (.inr ⟨?_, ?_⟩)⟩
  · intro text htext
    exact absurd (hnone.symm.trans (Store.lastValue?_eq_some_iff.mpr htext)) nofun
  · exact Store.lastValue?_eq_some_iff.mp (by decide +kernel)

end Request

end BugReport
