import BugReport.Proofs.Expression.ColumnGrammar
import Mathlib.Data.List.Induction
import Mathlib.Data.List.TakeWhile

/-! # Column lists as they are written

An entry without a name says nothing, and neither does what follows a title. A list that is written is read back if no
name or title holds a separator or a blank at an end that is trimmed, and if the first name starts with no sign.
-/

namespace BugReport

open Text (isBlank not_mem_blanks trim trim_blanks trimLeft trimRight)

variable {cs entry front back title extra : List Char} {entries : List (List Char)}

/-! ## Entries without a name -/

/-- Blanks, with a title or without one. -/
inductive ColumnRef.Nameless : List Char → Prop where
  | blank {cs : List Char} (hblank : ∀ c ∈ cs, isBlank c = true) : Nameless cs
  | titled {blanks title : List Char} (hblank : ∀ c ∈ blanks, isBlank c = true) (hcomma : ',' ∉ title) :
      Nameless (blanks ++ ':' :: title)

namespace ColumnRef

theorem name_ofList_append {name : List Char} (h : ':' ∉ name) (title : List Char) :
    (ofList (name ++ ':' :: title)).name = String.ofList (trim name) := by
  cases title using entry_cases with
  | plain title htitle => rw [ofList_titled h htitle]
  | titled title more htitle _ => rw [ofList_surplus h htitle]
  | surplus title more _ htitle _ => rw [ofList_surplus h htitle]

namespace Nameless

theorem comma_not_mem (h : Nameless entry) : ',' ∉ entry := by
  cases h with
  | blank hblank => exact not_mem_blanks hblank (by decide)
  | titled hblank hcomma => simp [not_mem_blanks hblank (c := ',') (by decide), hcomma]

theorem name_ofList (h : Nameless entry) : (ofList entry).name = "" := by
  cases h with
  | blank hblank =>
      rw [ofList_plain (not_mem_blanks hblank (by decide)), trim_blanks hblank, String.ofList_nil]
  | titled hblank _ =>
      rw [name_ofList_append (not_mem_blanks hblank (by decide)), trim_blanks hblank, String.ofList_nil]

theorem trimRight (h : Nameless entry) : Nameless (trimRight entry) := by
  cases h with
  | blank hblank => exact .blank fun c hc => hblank c (Text.trimRight_subset entry hc)
  | titled hblank hcomma =>
      rw [Text.trimRight_append_cons _ _ (by decide)]
      exact .titled hblank fun hmem => hcomma (Text.trimRight_subset _ hmem)

theorem take?_eq_none (h : Nameless entry) : ColumnOp.take? entry = none := by
  have hblank {c : Char} (hc : isBlank c = true) : c ∉ ['+', '-'] := by
    intro hmem
    rcases List.mem_pair.mp hmem with rfl | rfl
    · cases hc
    · cases hc
  apply ColumnOp.take?_eq_none
  intro c hc
  cases h with
  | blank hblanks => exact hblank (hblanks c (List.mem_of_mem_head? hc))
  | @titled blanks title hblanks hcomma =>
      cases blanks with
      | nil =>
          obtain rfl : ':' = c := Option.some.inj hc
          decide
      | cons d blanks =>
          obtain rfl : d = c := Option.some.inj hc
          exact hblank (hblanks d List.mem_cons_self)

theorem name_ofList_edit (h : Nameless entry) (default : ColumnOp) :
    (ColumnEdit.ofList default entry).column.name = "" := by
  rw [ColumnEdit.ofList, h.take?_eq_none]
  exact h.name_ofList

end Nameless

end ColumnRef

namespace ColumnsExpr

open ColumnRef (Nameless)

theorem ofTrimmed_append_nameless (h : Nameless entry) (cs : List Char) :
    ofTrimmed (cs ++ ',' :: entry) = ofTrimmed cs := by
  have hsplit (cs : List Char) : (cs ++ ',' :: entry).splitOn ',' = cs.splitOn ',' ++ [entry] := by
    rw [List.splitOn_append_cons_self, List.splitOn_eq_singleton h.comma_not_mem]
  rw [ofTrimmed, ofTrimmed, ColumnOp.take?_append (by simp)]
  cases ColumnOp.take? cs with
  | none => simp [hsplit, h.name_ofList]
  | some taken => simp [hsplit, h.name_ofList_edit]

theorem ofTrimmed_trimLeft_append (h : ∀ entry ∈ entries, Nameless entry) (cs : List Char) :
    ofTrimmed (trimLeft (cs ++ entries.flatMap (',' :: ·))) = ofTrimmed (trimLeft cs) := by
  induction entries using List.reverseRecOn with
  | nil => rw [List.flatMap_nil, List.append_nil]
  | append_singleton entries last ih =>
      obtain ⟨hentries, hlast⟩ := List.forall_mem_append.mp h
      rw [List.flatMap_append, List.flatMap_singleton, ← List.append_assoc, Text.trimLeft_append_cons _ _ (by decide),
        ofTrimmed_append_nameless (hlast last List.mem_cons_self), ih hentries]

/-- Entries without a name that are added to a list change nothing. -/
theorem parse_append_nameless (hcs : trimRight cs = cs) (h : ∀ entry ∈ entries, Nameless entry) :
    parse (String.ofList (cs ++ entries.flatMap (',' :: ·))) = parse (String.ofList cs) := by
  rw [parse, parse, String.toList_ofList, String.toList_ofList]
  rcases List.eq_nil_or_concat entries with rfl | ⟨front, last, rfl⟩
  · rw [List.flatMap_nil, List.append_nil]
  · rw [List.concat_eq_append] at h ⊢
    obtain ⟨hfront, hlast⟩ := List.forall_mem_append.mp h
    have htrim : trim cs = trimLeft cs := by rw [← Text.trimLeft_trimRight, hcs]
    rw [List.flatMap_append, List.flatMap_singleton, ← List.append_assoc, trim,
      Text.trimLeft_append_cons _ _ (by decide), Text.trimRight_append_cons _ _ (by decide),
      ofTrimmed_append_nameless (hlast last List.mem_cons_self).trimRight, ofTrimmed_trimLeft_append hfront, htrim]

end ColumnsExpr

/-! ## What follows a title -/

theorem ColumnRef.ofList_append_surplus (h : ':' ∈ entry) (extra : List Char) :
    ofList (entry ++ ':' :: extra) = ofList entry := by
  cases entry using entry_cases with
  | plain name hname => exact absurd h hname
  | titled name title hname htitle =>
      rw [List.append_assoc, List.cons_append, ofList_surplus hname htitle, ofList_titled hname htitle]
  | surplus name title more hname htitle =>
      rw [List.append_assoc, List.cons_append, List.append_assoc, List.cons_append, ofList_surplus hname htitle,
        ofList_surplus hname htitle]

theorem ColumnEdit.ofList_append_surplus (h : ':' ∈ entry) (default : ColumnOp) (extra : List Char) :
    ofList default (entry ++ ':' :: extra) = ofList default entry := by
  rw [ofList, ofList, ColumnOp.take?_append (by simp)]
  cases htake : ColumnOp.take? entry with
  | none => simp [ColumnRef.ofList_append_surplus h]
  | some taken =>
      obtain ⟨o, column⟩ := taken
      obtain rfl := ColumnOp.take?_eq_some_iff.mp htake
      have hcolumn : ':' ∈ column := by
        refine (List.mem_cons.mp h).resolve_left ?_
        cases o with
        | add => decide
        | remove => decide
      simp [ColumnRef.ofList_append_surplus hcolumn]

namespace ColumnsExpr

/-- What is read from the entries of a list does not change with what follows the title of one of them. -/
theorem map_splitOn_surplus {α : Type} {f : List Char → α}
    (hf : ∀ entry, ':' ∈ entry → f (entry ++ ':' :: extra) = f entry) (htitle : ',' ∉ title) (hextra : ',' ∉ extra)
    (hback : back = [] ∨ ∃ more, back = ',' :: more) (front : List Char) :
    ((front ++ ':' :: (title ++ ':' :: (extra ++ back))).splitOn ',').map f =
      ((front ++ ':' :: (title ++ back)).splitOn ',').map f := by
  induction front using entries_induction with
  | single front hfront =>
      have hentry : ',' ∉ front ++ ':' :: title := by simp [hfront, htitle]
      have hsurplus : ',' ∉ (front ++ ':' :: title) ++ ':' :: extra := by simp [hfront, htitle, hextra]
      have hsame := hf (front ++ ':' :: title) (by simp)
      have hlong : front ++ ':' :: (title ++ ':' :: (extra ++ back)) =
          ((front ++ ':' :: title) ++ ':' :: extra) ++ back := by simp
      have hshort : front ++ ':' :: (title ++ back) = (front ++ ':' :: title) ++ back := by simp
      rw [hlong, hshort]
      rcases hback with rfl | ⟨more, rfl⟩
      · rw [List.append_nil, List.append_nil, List.splitOn_eq_singleton hsurplus, List.splitOn_eq_singleton hentry,
          List.map_singleton, List.map_singleton, hsame]
      · rw [splitOn_cons hsurplus, splitOn_cons hentry, List.map_cons, List.map_cons, hsame]
  | cons first rest hfirst ih =>
      rw [List.append_assoc, List.append_assoc, List.cons_append, List.cons_append, splitOn_cons hfirst,
        splitOn_cons hfirst, List.map_cons, List.map_cons, ih]

theorem ofTrimmed_surplus (htitle : ',' ∉ title) (hextra : ',' ∉ extra) (hback : back = [] ∨ ∃ more, back = ',' :: more)
    (front : List Char) :
    ofTrimmed (front ++ ':' :: (title ++ ':' :: (extra ++ back))) = ofTrimmed (front ++ ':' :: (title ++ back)) := by
  rw [ofTrimmed, ofTrimmed, ColumnOp.take?_append (by simp), ColumnOp.take?_append (by simp)]
  cases ColumnOp.take? front with
  | none =>
      simp only [Option.map_none]
      rw [map_splitOn_surplus (fun _ h => ColumnRef.ofList_append_surplus h extra) htitle hextra hback]
  | some taken =>
      simp only [Option.map_some]
      rw [map_splitOn_surplus (fun _ h => ColumnEdit.ofList_append_surplus h taken.1 extra) htitle hextra hback]

/-- What is added behind a title changes nothing. -/
theorem parse_surplus (htitle : ',' ∉ title) (hextra : ',' ∉ extra)
    (hback : back = [] ∧ trimRight title = title ∨ ∃ more, back = ',' :: more) (front : List Char) :
    parse (String.ofList (front ++ ':' :: (title ++ ':' :: (extra ++ back)))) =
      parse (String.ofList (front ++ ':' :: (title ++ back))) := by
  have htrim (cs : List Char) : trim (front ++ ':' :: cs) = trimLeft front ++ ':' :: trimRight cs := by
    rw [trim, Text.trimLeft_append_cons _ _ (by decide), Text.trimRight_append_cons _ _ (by decide)]
  rw [parse, parse, String.toList_ofList, String.toList_ofList, htrim, htrim,
    Text.trimRight_append_cons _ _ (by decide)]
  rcases hback with ⟨rfl, hright⟩ | ⟨more, rfl⟩
  · have hextra' : ',' ∉ trimRight extra := fun hmem => hextra (Text.trimRight_subset extra hmem)
    have hsame := ofTrimmed_surplus htitle hextra' (.inl rfl) (trimLeft front)
    simpa only [List.append_nil, hright] using hsame
  · rw [Text.trimRight_append_cons _ _ (by decide), Text.trimRight_append_cons _ _ (by decide)]
    exact ofTrimmed_surplus htitle hextra (.inr ⟨_, rfl⟩) (trimLeft front)

end ColumnsExpr

/-! ## Columns that are written -/

/-- Whether a column is read as it is written. -/
structure ColumnRef.Writable (c : ColumnRef) : Prop where
  name : c.name ≠ ""
  comma : ',' ∉ c.name.toList
  colon : ':' ∉ c.name.toList
  first : ∀ ch ∈ c.name.toList.head?, isBlank ch = false
  last : ∀ ch ∈ c.name.toList.getLast?, isBlank ch = false
  titleComma : ∀ title ∈ c.title, ',' ∉ title.toList
  titleColon : ∀ title ∈ c.title, ':' ∉ title.toList
  titleLast : ∀ title ∈ c.title, ∀ ch ∈ title.toList.getLast?, isBlank ch = false

/-- Whether no sign can be taken off the name of a column. -/
def ColumnRef.Unsigned (c : ColumnRef) : Prop :=
  ∀ ch ∈ c.name.toList.head?, ch ∉ ['+', '-']

namespace ColumnRef.Writable

variable {c : ColumnRef}

theorem trim_name (h : c.Writable) : trim c.name.toList = c.name.toList :=
  Text.trim_eq_self_iff.mpr ⟨h.first, h.last⟩

theorem comma_not_mem (h : c.Writable) : ',' ∉ c.toList := by
  rw [ColumnRef.toList]
  cases htitle : c.title with
  | none => simpa using h.comma
  | some title =>
      have htitle := h.titleComma title htitle
      simp [h.comma, htitle]

theorem head?_toList (h : c.Writable) : c.toList.head? = c.name.toList.head? := by
  have hne : c.name.toList ≠ [] := mt String.toList_eq_nil_iff.mp h.name
  rw [ColumnRef.toList, List.head?_append_of_ne_nil _ hne]

theorem trimRight_toList (h : c.Writable) : trimRight c.toList = c.toList := by
  rw [ColumnRef.toList]
  cases htitle : c.title with
  | none =>
      simp only [List.append_nil]
      exact Text.trimRight_eq_self_iff.mpr h.last
  | some title =>
      have htitle := Text.trimRight_eq_self_iff.mpr (h.titleLast title htitle)
      simp only
      rw [Text.trimRight_append_cons _ _ (by decide), htitle]

theorem trim_toList (h : c.Writable) : trim c.toList = c.toList := by
  have hleft : trimLeft c.toList = c.toList := by
    rw [Text.trimLeft_eq_self_iff, h.head?_toList]
    exact h.first
  rw [trim, hleft, h.trimRight_toList]

/-- A column is read back. -/
theorem ofList_toList (h : c.Writable) : ofList c.toList = c := by
  obtain ⟨name, title⟩ := c
  cases title with
  | none =>
      have hread : ofList (name.toList ++ []) = ⟨name, none⟩ := by
        rw [List.append_nil, ofList_plain h.colon, h.trim_name, String.ofList_toList]
      exact hread
  | some title =>
      have hread := ofList_titled h.colon (h.titleColon title rfl)
      rw [h.trim_name, String.ofList_toList, String.ofList_toList] at hread
      exact hread

theorem take?_toList (h : c.Writable) (hsign : c.Unsigned) : ColumnOp.take? c.toList = none := by
  apply ColumnOp.take?_eq_none
  rw [h.head?_toList]
  exact hsign

end ColumnRef.Writable

namespace ColumnEdit

variable {e : ColumnEdit} {c : ColumnRef}

theorem not_blank_sign (o : ColumnOp) : isBlank o.sign = false := by
  cases o with
  | add => decide
  | remove => decide

theorem comma_not_mem (h : e.column.Writable) : ',' ∉ e.toList := by
  rw [toList, List.mem_cons, not_or]
  refine ⟨?_, h.comma_not_mem⟩
  cases e.op with
  | add => decide
  | remove => decide

theorem trim_toList (h : e.column.Writable) : trim e.toList = e.toList := by
  rw [toList, trim, Text.trimLeft_cons_of_not_blank (not_blank_sign e.op),
    Text.trimRight_cons_of_not_blank (not_blank_sign e.op), h.trimRight_toList]

/-- An edit is read back, whatever the first sign of the list is. -/
theorem ofList_toList (h : e.column.Writable) (default : ColumnOp) : ofList default e.toList = e := by
  rw [ofList, toList, ColumnOp.take?_eq_some_iff.mpr rfl]
  simp only [Option.getD_some, h.ofList_toList]

/-- Without a sign, a column is edited as the first sign says. -/
theorem ofList_column (h : c.Writable) (hsign : c.Unsigned) (default : ColumnOp) :
    ofList default c.toList = ⟨default, c⟩ := by
  rw [ofList, h.take?_toList hsign]
  simp only [Option.getD_none, h.ofList_toList]

end ColumnEdit

/-! ## Lists that are written -/

namespace ColumnsExpr

variable {e : ColumnsExpr} {columns : List ColumnRef} {edits : List ColumnEdit}

/-- Whether a list is read as it is written. -/
def Writable : ColumnsExpr → Prop
  | delta edits => edits ≠ [] ∧ (∀ e ∈ edits, e.column.Writable) ∧ ∀ e ∈ edits.head?, e.column.Unsigned
  | replace columns => (∀ c ∈ columns, c.Writable) ∧ ∀ c ∈ columns.head?, c.Unsigned

theorem trim_toList (h : e.Writable) : trim e.toList = e.toList := by
  cases e with
  | delta edits =>
      obtain ⟨-, hedits, -⟩ := h
      exact trim_intercalate (fun e he => ColumnEdit.comma_not_mem (hedits e he)) fun e he =>
        ColumnEdit.trim_toList (hedits e he)
  | replace columns =>
      obtain ⟨hcolumns, -⟩ := h
      exact trim_intercalate (fun c hc => (hcolumns c hc).comma_not_mem) fun c hc => (hcolumns c hc).trim_toList

theorem trimRight_toList (h : e.Writable) : trimRight e.toList = e.toList := by
  rw [← trim_toList h, Text.trimRight_trim]

theorem intercalate_cons_char (c : Char) (cs : List Char) (entries : List (List Char)) :
    [','].intercalate ((c :: cs) :: entries) = c :: [','].intercalate (cs :: entries) := by
  cases entries with
  | nil => rw [List.intercalate_singleton, List.intercalate_singleton]
  | cons entry entries =>
      rw [List.intercalate_cons_cons, List.intercalate_cons_cons, List.cons_append, List.cons_append]

theorem ofTrimmed_delta (hedits : ∀ e ∈ edits, e.column.Writable) {o : ColumnOp} {c : ColumnRef} (hc : c.Writable)
    (hsign : c.Unsigned) : ofTrimmed (toList (.delta (⟨o, c⟩ :: edits))) = .delta (⟨o, c⟩ :: edits) := by
  have htext : toList (.delta (⟨o, c⟩ :: edits)) =
      o.sign :: [','].intercalate (c.toList :: edits.map ColumnEdit.toList) :=
    intercalate_cons_char o.sign c.toList (edits.map ColumnEdit.toList)
  have hcomma : ∀ entry ∈ c.toList :: edits.map ColumnEdit.toList, ',' ∉ entry :=
    List.forall_mem_cons.mpr
      ⟨hc.comma_not_mem, List.forall_mem_map.mpr fun e he => ColumnEdit.comma_not_mem (hedits e he)⟩
  have hread : (edits.map ColumnEdit.toList).map (ColumnEdit.ofList o) = edits := by
    rw [List.map_map]
    exact (List.map_congr_left fun e he => ColumnEdit.ofList_toList (hedits e he) o).trans (List.map_id' edits)
  have hnames : ∀ e ∈ ⟨o, c⟩ :: edits, (e.column.name != "") = true :=
    List.forall_mem_cons.mpr ⟨bne_iff_ne.mpr hc.name, fun e he => bne_iff_ne.mpr (hedits e he).name⟩
  rw [htext, ofTrimmed, ColumnOp.take?_eq_some_iff.mpr rfl]
  simp only [List.splitOn_intercalate ',' hcomma (List.cons_ne_nil _ _), List.map_cons,
    ColumnEdit.ofList_column hc hsign, hread, List.filter_eq_self.mpr hnames]

theorem ofTrimmed_replace (hcolumns : ∀ c ∈ columns, c.Writable) (hsign : ∀ c ∈ columns.head?, c.Unsigned) :
    ofTrimmed (toList (.replace columns)) = .replace columns := by
  by_cases hne : columns = []
  · rw [hne]
    rfl
  · have hread : ((toList (.replace columns)).splitOn ',').map ColumnRef.ofList = columns :=
      map_splitOn_intercalate hne (fun c hc => (hcolumns c hc).comma_not_mem) fun c hc => (hcolumns c hc).ofList_toList
    have hnames : ∀ c ∈ columns, (c.name != "") = true := fun c hc => bne_iff_ne.mpr (hcolumns c hc).name
    have htake : ColumnOp.take? (toList (.replace columns)) = none := by
      obtain ⟨first, rest, rfl⟩ := List.exists_cons_of_ne_nil hne
      have hfirst := (hcolumns first List.mem_cons_self).take?_toList (hsign first rfl)
      cases rest with
      | nil => rw [toList, List.map_singleton, List.intercalate_singleton, hfirst]
      | cons second rest =>
          rw [toList, List.map_cons, List.map_cons, List.intercalate_cons_cons, List.append_assoc,
            ColumnOp.take?_append (by simp), hfirst, Option.map_none]
    rw [ofTrimmed, htake]
    simp only [hread, List.filter_eq_self.mpr hnames]

/-- A list is read back. -/
theorem parse_toList (h : e.Writable) : parse (String.ofList e.toList) = e := by
  rw [parse, String.toList_ofList, trim_toList h]
  cases e with
  | delta edits =>
      obtain ⟨hne, hedits, hsign⟩ := h
      obtain ⟨⟨o, c⟩, edits, rfl⟩ := List.exists_cons_of_ne_nil hne
      obtain ⟨hc, hedits⟩ := List.forall_mem_cons.mp hedits
      exact ofTrimmed_delta hedits hc (hsign ⟨o, c⟩ rfl)
  | replace columns => exact ofTrimmed_replace h.1 h.2

/-- The grammar reads every text, and reads back what is written, which ends in no blank. Entries without a name at the
end of such a text and more behind its titles change nothing. -/
theorem column_grammar_round_trip :
    (∀ s : String, read? s = some (parse s)) ∧
    (∀ e : ColumnsExpr, e.Writable → parse (String.ofList e.toList) = e ∧ trimRight e.toList = e.toList) ∧
    (∀ (cs : List Char) (entries : List (List Char)), trimRight cs = cs →
      (∀ entry ∈ entries, ColumnRef.Nameless entry) →
      parse (String.ofList (cs ++ entries.flatMap (',' :: ·))) = parse (String.ofList cs)) ∧
    ∀ front title extra back : List Char, ',' ∉ title → ',' ∉ extra →
      (back = [] ∧ trimRight title = title ∨ ∃ more, back = ',' :: more) →
      parse (String.ofList (front ++ ':' :: (title ++ ':' :: (extra ++ back)))) =
        parse (String.ofList (front ++ ':' :: (title ++ back))) :=
  ⟨read?_eq_parse, fun _ he => ⟨parse_toList he, trimRight_toList he⟩, fun _ _ => parse_append_nameless,
    fun front _ _ _ htitle hextra hback => parse_surplus htitle hextra hback front⟩

/-- Two edits, with something behind the title, and with two entries without a name. -/
theorem column_grammar_round_trip_of_edits :
    Writable (.delta [⟨.add, ⟨"d", none⟩⟩, ⟨.remove, ⟨"to", some "Own"⟩⟩]) ∧
      parse "+d,-to:Own" = .delta [⟨.add, ⟨"d", none⟩⟩, ⟨.remove, ⟨"to", some "Own"⟩⟩] ∧
      parse "+d,-to:Own:x, ,:y" = parse "+d,-to:Own, ,:y" ∧
      parse "+d,-to:Own, ,:y" = parse "+d,-to:Own" := by
  have hplain : ColumnRef.Writable ⟨"d", none⟩ := by
    refine ⟨by decide, by decide, by decide, ?_, ?_, nofun, nofun, nofun⟩
    · rintro ch ⟨⟩
      decide
    · rintro ch ⟨⟩
      decide
  have htitled : ColumnRef.Writable ⟨"to", some "Own"⟩ := by
    refine ⟨by decide, by decide, by decide, ?_, ?_, ?_, ?_, ?_⟩
    · rintro ch ⟨⟩
      decide
    · rintro ch ⟨⟩
      decide
    · rintro title ⟨⟩
      decide
    · rintro title ⟨⟩
      decide
    · rintro title ⟨⟩ ch ⟨⟩
      decide
  have hsign : ColumnRef.Unsigned ⟨"d", none⟩ := by
    rintro ch ⟨⟩
    decide
  have hedits : Writable (.delta [⟨.add, ⟨"d", none⟩⟩, ⟨.remove, ⟨"to", some "Own"⟩⟩]) :=
    ⟨by decide, by simp [hplain, htitled], by simpa using hsign⟩
  have htext : "+d,-to:Own" =
      String.ofList (toList (.delta [⟨.add, ⟨"d", none⟩⟩, ⟨.remove, ⟨"to", some "Own"⟩⟩])) := by decide
  have hentries : ∀ entry ∈ [[' '], [':', 'y']], ColumnRef.Nameless entry := by
    intro entry hentry
    rcases List.mem_pair.mp hentry with rfl | rfl
    · exact .blank (List.forall_mem_singleton.mpr (by decide))
    · exact @ColumnRef.Nameless.titled [] ['y'] nofun (by decide)
  refine ⟨hedits, ?_, ?_, ?_⟩
  · rw [htext]
    exact (column_grammar_round_trip.2.1 _ hedits).1
  · exact column_grammar_round_trip.2.2.2 "+d,-to".toList "Own".toList ['x'] ", ,:y".toList (by decide) (by decide)
      (.inr ⟨[' ', ',', ':', 'y'], by decide⟩)
  · exact column_grammar_round_trip.2.2.1 "+d,-to:Own".toList [[' '], [':', 'y']] (by decide) hentries

end ColumnsExpr

end BugReport
