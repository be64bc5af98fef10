import BugReport.Proofs.Expression.DateGrammar
import BugReport.Proofs.Filter.DateClauses
import BugReport.Proofs.Sql.ByteOrder

/-! # The rows that date filters keep

Date filters compare the text in a column with the texts of their bounds, byte by byte. A day as a text comes before
all times of this day, so a range leaves out the times of its last day. The year 10000 and the years behind it are
written with a sign that comes before all digits, so an offset that reaches them compares the wrong way round.
-/

namespace BugReport

open Sql (Tuple Column Operator Comparison Condition Collation)
open Calendar (Date Timestamp inRange padded firstYear lastYear)
open Text (digitsValue)

/-- What a date column holds: a day, or a time of a day. -/
structure Moment where
  day : Date
  /-- Hour, minute and second. -/
  clock : Option (Nat × Nat × Nat)

namespace Moment

variable {m : Moment} {a b : Date}

/-- What stands behind the day. -/
def clockText (m : Moment) : String :=
  match m.clock with
  | none => ""
  | some (hour, minute, second) => " " ++ padded 2 hour ++ ":" ++ padded 2 minute ++ ":" ++ padded 2 second

def text (m : Moment) : String :=
  m.day.text ++ m.clockText

theorem clockText_eq_empty_iff : m.clockText = "" ↔ m.clock = none := by
  rw [clockText]
  cases m.clock with
  | none => exact iff_of_true rfl rfl
  | some clock => exact iff_of_false (by simp [← String.toList_inj]) (Option.some_ne_none clock)

/-- A moment is not before a day if its own day is not. -/
theorem ge_compares_iff (hm : m.day.FitsPattern) (ha : a.FitsPattern) :
    Operator.ge.compares m.text a.text = true ↔ a ≤ m.day := by
  have hbefore : m.text < a.text ↔ m.day < a := by
    rw [String.lt_iff_toList_lt, text, String.toList_append, ← List.append_nil a.text.toList,
      Date.text_append_lt_iff hm ha]
    simp
  rw [Operator.compares, Bool.not_eq_true', decide_eq_false_iff_not, hbefore, not_lt]

/-- A moment is not behind a day if its own day is before it, or if it is this day without a time. -/
theorem le_compares_iff (hm : m.day.FitsPattern) (hb : b.FitsPattern) :
    Operator.le.compares m.text b.text = true ↔ m.day ≤ b ∧ (m.day = b → m.clock = none) := by
  have hclock : [] < m.clockText.toList ↔ m.clock ≠ none := by
    rw [ne_eq, ← clockText_eq_empty_iff, ← String.toList_eq_nil_iff]
    cases m.clockText.toList <;> simp
  have hbehind : b.text < m.text ↔ b < m.day ∨ b = m.day ∧ m.clock ≠ none := by
    rw [String.lt_iff_toList_lt, text, String.toList_append, ← List.append_nil b.text.toList,
      Date.text_append_lt_iff hb hm, hclock]
  rw [Operator.compares, Bool.not_eq_true', decide_eq_false_iff_not, hbehind, not_or, not_lt, not_and, not_not,
    eq_comm]

end Moment

namespace Restriction

variable {row : Tuple} {earlier later : List String} {column : Column} {x : String} {r : Restriction} {now : Int}
  {name : String} {a b : Date} {m : Moment}

/-! ## Bounds -/

/-- A clause is true of the rows that its restriction keeps, if texts are compared by their bytes. -/
theorem isTrue_bytewise_iff (h : r.Readable column) :
    r.IsTrue .bytewise row earlier later column ↔ r.Keeps row earlier later column := by
  rw [Collation.bytewise_eq_byCharacters, isTrue_byCharacters_iff h]

/-- Bounds with texts are true of the rows that compare with each of these texts as the operators ask. -/
theorem isTrue_ofBounds_iff (hcell : row.cell column = some x) (entries : List (Operator × String)) :
    (ofBounds earlier.length (entries.map fun entry => (entry.1, some entry.2))).IsTrue .bytewise row earlier later
        column ↔
      ∀ entry ∈ entries, entry.1.compares x entry.2 = true := by
  have hentries : closedTexts (entries.map fun entry => (entry.1, some entry.2)) = entries := by
    simp [closedTexts, List.filterMap_map]
  rw [isTrue_bytewise_iff (readable_ofBounds _), ofBounds_eq, hentries, Keeps, Condition.AllHold,
    List.forall_mem_map]
  constructor
  · intro h entry hentry
    rw [← List.zipIdx_map_fst (earlier.length + 1) entries] at hentry
    obtain ⟨⟨entry, slot⟩, hmem, rfl⟩ := List.mem_map.mp hentry
    exact (Comparison.holds_iff hcell (textOfSlot?_between hmem)).mp (h _ hmem)
  · rintro h ⟨entry, slot⟩ hmem
    exact (Comparison.holds_iff hcell (textOfSlot?_between hmem)).mpr (h entry (List.fst_mem_of_mem_zipIdx hmem))

/-! ## Ranges -/

theorem isTrue_range_iff (ha : a.FitsPattern) (hb : b.FitsPattern) (hm : m.day.FitsPattern)
    (hcell : row.cell column = some m.text) :
    (ofDate earlier.length now name (a.text ++ ":" ++ b.text)).IsTrue .bytewise row earlier later column ↔
      a ≤ m.day ∧ m.day ≤ b ∧ (m.day = b → m.clock = Option.none) := by
  have hbounds : ofDate earlier.length now name (a.text ++ ":" ++ b.text) =
      ofBounds earlier.length ([(.ge, a.text), (.le, b.text)].map fun entry => (entry.1, some entry.2)) := by
    rw [ofDate, DateExpr.parse_range ha hb]
    rfl
  rw [hbounds, isTrue_ofBounds_iff hcell, List.forall_mem_cons, List.forall_mem_singleton, m.ge_compares_iff hm ha,
    m.le_compares_iff hm hb]

/-- A range of days keeps the days from its first to its last one, and the times of all of them but the last. It
keeps what its two ends say if a value is a day, or lies on another day than the last one. -/
theorem range_includes_days_iff (ha : a.FitsPattern) (hb : b.FitsPattern) (hab : a ≤ b) (hm : m.day.FitsPattern)
    (hcell : row.cell column = some m.text) :
    ((ofDate earlier.length now name (a.text ++ ":" ++ b.text)).IsTrue .bytewise row earlier later column ↔
        a ≤ m.day ∧ m.day ≤ b ∧ (m.day = b → m.clock = Option.none)) ∧
      (((ofDate earlier.length now name (a.text ++ ":" ++ b.text)).IsTrue .bytewise row earlier later column ↔
          a ≤ m.day ∧ m.day ≤ b) ↔
        (m.day = b → m.clock = Option.none)) := by
  rw [isTrue_range_iff ha hb hm hcell]
  refine ⟨Iff.rfl, fun h hlast => ?_, fun h => and_congr_right fun _ => and_iff_left h⟩
  have hinside : a ≤ m.day ∧ m.day ≤ b := ⟨hab.trans hlast.ge, hlast.le⟩
  exact (h.mpr hinside).2.2 hlast

/-- The last second before the last day is in a range. -/
theorem range_includes_days_of_march :
    (ofDate 0 1710504000 "creation_ts" "2024-01-01:2024-03-31").IsTrue .bytewise
      ⟨fun _ => some "2024-03-30 23:59:59", fun _ => false⟩ [] [] (.bare "creation_ts") := by
  have hfirst : (Date.mk 2024 1 1).FitsPattern := by decide
  have hlast : (Date.mk 2024 3 31).FitsPattern := by decide
  have hday : (Date.mk 2024 3 30).FitsPattern := by decide
  have hcell : some "2024-03-30 23:59:59" = some (Moment.mk ⟨2024, 3, 30⟩ (some (23, 59, 59))).text := by decide
  have htext : "2024-01-01:2024-03-31" = (Date.mk 2024 1 1).text ++ ":" ++ (Date.mk 2024 3 31).text := by decide
  rw [htext]
  exact (range_includes_days_iff hfirst hlast (by decide) hday hcell).1.mpr ⟨by decide, by decide, by decide⟩

/-- Noon of the last day is not in a range. -/
theorem range_loses_noon_of_last_day :
    ¬ ((ofDate 0 1710504000 "creation_ts" "2024-01-01:2024-03-31").IsTrue .bytewise
        ⟨fun _ => some "2024-03-31 12:00:00", fun _ => false⟩ [] [] (.bare "creation_ts") ↔
      Date.mk 2024 1 1 ≤ Date.mk 2024 3 31 ∧ Date.mk 2024 3 31 ≤ Date.mk 2024 3 31) := by
  have hfirst : (Date.mk 2024 1 1).FitsPattern := by decide
  have hlast : (Date.mk 2024 3 31).FitsPattern := by decide
  have hcell : some "2024-03-31 12:00:00" = some (Moment.mk ⟨2024, 3, 31⟩ (some (12, 0, 0))).text := by decide
  have htext : "2024-01-01:2024-03-31" = (Date.mk 2024 1 1).text ++ ":" ++ (Date.mk 2024 3 31).text := by decide
  rw [htext]
  intro hkept
  have hclock := ((isTrue_range_iff hfirst hlast hlast hcell).mp (hkept.mpr (by decide))).2.2 rfl
  cases hclock

end Restriction

/-! ## Offsets -/

theorem Calendar.bounds_of_inRange {n : Int} (h : inRange n = true) : -100000000 ≤ n ∧ n ≤ 100000000 := by
  have hfirst : -100000000 ≤ (Date.mk firstYear 1 1).dayNumber := by decide
  have hlast : (Date.mk lastYear 12 31).dayNumber ≤ 100000000 := by decide
  rw [inRange, Bool.and_eq_true, decide_eq_true_eq, decide_eq_true_eq] at h
  exact ⟨hfirst.trans h.1, h.2.trans hlast⟩

namespace DateOffset

variable {now : Int} {o : DateOffset}

/-- The date at which an offset from an instant ends. -/
def dateFrom (now : Int) (o : DateOffset) : Date :=
  .ofDayNumber (o.dayFrom now)

/-- Whether the present and the date of an offset from it can be represented. -/
structure IsRepresentable (now : Int) (o : DateOffset) : Prop where
  present : inRange (now / 86400) = true
  date : inRange (o.dayFrom now) = true

/-- The seconds to a date that can be represented do not reach the greatest integer. -/
theorem IsRepresentable.seconds_le (h : o.IsRepresentable now) : o.days * 86400 ≤ DateBound.maxSeconds := by
  have hpresent := Calendar.bounds_of_inRange h.present
  have hdate := Calendar.bounds_of_inRange h.date
  have hdays : o.days ≤ 200000000 := by
    rw [dayFrom] at hdate
    split at hdate <;> omega
  exact (Nat.mul_le_mul_right 86400 hdays).trans (by decide)

theorem inCalendar_dateFrom (now : Int) (o : DateOffset) : (o.dateFrom now).InCalendar :=
  Date.inCalendar_ofDayNumber _

/-- The operator that compares with the date of an offset. -/
def operator (o : DateOffset) : Operator :=
  if o.ahead then .le else .ge

/-- Whether two offsets have one direction and one unit, and the first one counts no more of them. -/
structure NoWiderThan (narrow wide : DateOffset) : Prop where
  ahead_eq : narrow.ahead = wide.ahead
  unit_eq : narrow.unit = wide.unit
  count_le : digitsValue narrow.digits ≤ digitsValue wide.digits

variable {narrow wide : DateOffset}

theorem NoWiderThan.days_le (h : narrow.NoWiderThan wide) : narrow.days ≤ wide.days := by
  rw [days, days, h.unit_eq]
  exact Nat.mul_le_mul_right _ h.count_le

theorem NoWiderThan.dateFrom_le (h : narrow.NoWiderThan wide) (hahead : wide.ahead = true) :
    narrow.dateFrom now ≤ wide.dateFrom now := by
  have hdays := h.days_le
  rw [dateFrom, dateFrom, Date.ofDayNumber_le_iff, dayFrom, dayFrom, h.ahead_eq, if_pos hahead, if_pos hahead]
  omega

theorem NoWiderThan.dateFrom_ge (h : narrow.NoWiderThan wide) (hback : ¬ wide.ahead = true) :
    wide.dateFrom now ≤ narrow.dateFrom now := by
  have hdays := h.days_le
  rw [dateFrom, dateFrom, Date.ofDayNumber_le_iff, dayFrom, dayFrom, h.ahead_eq, if_neg hback, if_neg hback]
  omega

end DateOffset

namespace Calendar.Date

variable {a b d : Date}

/-- Whether one of two dates has a year of four digits and the other one lies behind the year 9999. -/
def LieAcross (a b : Date) : Prop :=
  a.FitsPattern ∧ 9999 < b.year ∨ b.FitsPattern ∧ 9999 < a.year

theorem lieAcross_comm : LieAcross a b ↔ LieAcross b a :=
  or_comm

theorem not_lieAcross_iff (hab : a ≤ b) (hb : b.InCalendar) :
    ¬ LieAcross a b ↔ (a.FitsPattern → b.FitsPattern) := by
  have hyear := year_le hab
  constructor
  · intro h ha
    have hfirst := ha.year_nonneg
    have hlast : b.year ≤ 9999 := not_lt.mp fun hlt => h (.inl ⟨ha, hlt⟩)
    exact hb.fitsPattern_iff.mpr ⟨hfirst.trans hyear, hlast⟩
  · rintro h (⟨ha, hlt⟩ | ⟨hb, hlt⟩)
    · exact hlt.not_ge (h ha).year_le
    · exact hlt.not_ge (hyear.trans hb.year_le)

/-- No day with a year of four digits comes before the text of a date that needs a sign. -/
theorem le_compares_text_iff {day : Date} (hday : day.FitsPattern) (hd : d.InCalendar) :
    Operator.le.compares day.text d.text = true ↔ d.FitsPattern ∧ day ≤ d := by
  rw [Operator.compares, Bool.not_eq_true', decide_eq_false_iff_not]
  by_cases hfits : d.FitsPattern
  · rw [text_lt_text_iff hfits hday, not_lt, and_iff_right hfits]
  · exact iff_of_false (not_not.mpr (text_lt_of_sign hd hfits hday)) fun h => hfits h.1

/-- All days with a year of four digits come behind the text of a date that needs a sign. -/
theorem ge_compares_text_iff {day : Date} (hday : day.FitsPattern) (hd : d.InCalendar) :
    Operator.ge.compares day.text d.text = true ↔ (d.FitsPattern → d ≤ day) := by
  rw [Operator.compares, Bool.not_eq_true', decide_eq_false_iff_not]
  by_cases hfits : d.FitsPattern
  · rw [text_lt_text_iff hday hfits, not_lt, imp_iff_right hfits]
  · exact iff_of_true (lt_asymm (text_lt_of_sign hd hfits hday)) fun h => absurd h hfits

/-- The days up to a date are days up to a later one, unless this one alone needs a sign. -/
theorem le_compares_mono_iff (ha : a.InCalendar) (hb : b.InCalendar) (hab : a ≤ b) :
    (∀ day : Date, day.FitsPattern → Operator.le.compares day.text a.text = true →
        Operator.le.compares day.text b.text = true) ↔
      ¬ LieAcross a b := by
  rw [not_lieAcross_iff hab hb]
  constructor
  · intro hdays hfits
    have hself := hdays a hfits ((le_compares_text_iff hfits ha).mpr ⟨hfits, le_rfl⟩)
    exact ((le_compares_text_iff hfits hb).mp hself).1
  · intro hfits day hday
    rw [le_compares_text_iff hday ha, le_compares_text_iff hday hb]
    exact fun ⟨hafits, hle⟩ => ⟨hfits hafits, hle.trans hab⟩

/-- The days from a date on are days from an earlier one on, unless the later one alone needs a sign. -/
theorem ge_compares_mono_iff (ha : a.InCalendar) (hb : b.InCalendar) (hab : a ≤ b) :
    (∀ day : Date, day.FitsPattern → Operator.ge.compares day.text b.text = true →
        Operator.ge.compares day.text a.text = true) ↔
      ¬ LieAcross a b := by
  rw [not_lieAcross_iff hab hb]
  constructor
  · -- the text of no day comes before this one, and it is behind all texts with a sign
    intro hdays hfits
    by_contra hsigned
    have hzero : (Date.mk 0 0 0).FitsPattern := by decide
    have hkept := hdays _ hzero ((ge_compares_text_iff hzero hb).mpr fun hno => absurd hno hsigned)
    have hle : a ≤ Date.mk 0 0 0 := (ge_compares_text_iff hzero ha).mp hkept hfits
    have hlt : Date.mk 0 0 0 < a := by
      rw [lt_iff]
      rcases hfits.year_nonneg.lt_or_eq with hyear | hyear
      · exact .inl hyear
      · exact .inr ⟨hyear, .inl ha.month_pos⟩
    exact hle.not_gt hlt
  · intro hfits day hday
    rw [ge_compares_text_iff hday hb, ge_compares_text_iff hday ha]
    exact fun hle hafits => hab.trans (hle (hfits hafits))

end Calendar.Date

namespace Restriction

variable {row : Tuple} {earlier later : List String} {column : Column} {now : Int} {name : String} {day : Date}
  {o narrow wide : DateOffset}

theorem dateAt?_of_dayFrom (h : o.IsRepresentable now) {seconds : Int}
    (hday : (now + seconds) / 86400 = o.dayFrom now) : dateAt? now seconds = some (o.dateFrom now).text := by
  rw [dateAt?, Timestamp.ofInstant, hday]
  exact if_pos h.date

/-- An offset is compared with the text of its date. -/
theorem ofDate_offset (bound : Nat) (name : String) (h : o.IsRepresentable now) :
    ofDate bound now name o.text = ofBounds bound [(o.operator, some (o.dateFrom now).text)] := by
  have hseconds : min (o.days * 86400) DateBound.maxSeconds = o.days * 86400 := Nat.min_eq_left h.seconds_le
  rw [ofDate, o.parse_text, hseconds, DateOffset.operator]
  by_cases hahead : o.ahead = true
  · have hday : (now + (o.days * 86400 : Nat)) / 86400 = o.dayFrom now := by
      rw [DateOffset.dayFrom, if_pos hahead]
      omega
    rw [if_pos hahead, if_pos hahead, ofDateExpr, boundText?, dateAt?_of_dayFrom h hday]
  · have hday : (now + -(o.days * 86400 : Nat)) / 86400 = o.dayFrom now := by
      rw [DateOffset.dayFrom, if_neg hahead]
      omega
    rw [if_neg hahead, if_neg hahead, ofDateExpr, boundText?, dateAt?_of_dayFrom h hday]

theorem isTrue_offset_iff {x : String} (h : o.IsRepresentable now) (hcell : row.cell column = some x) :
    (ofDate earlier.length now name o.text).IsTrue .bytewise row earlier later column ↔
      o.operator.compares x (o.dateFrom now).text = true := by
  rw [ofDate_offset _ _ h]
  exact (isTrue_ofBounds_iff hcell [(o.operator, (o.dateFrom now).text)]).trans List.forall_mem_singleton

/-- Whether all days with a year of four digits that one offset from an instant keeps are kept by another one. -/
def KeepsDaysOf (now : Int) (earlier later : List String) (name : String) (column : Column)
    (wide narrow : DateOffset) : Prop :=
  ∀ (row : Tuple) (day : Date), day.FitsPattern → row.cell column = some day.text →
    (ofDate earlier.length now name narrow.text).IsTrue .bytewise row earlier later column →
    (ofDate earlier.length now name wide.text).IsTrue .bytewise row earlier later column

theorem keepsDaysOf_iff (hnarrow : narrow.IsRepresentable now) (hwide : wide.IsRepresentable now) :
    KeepsDaysOf now earlier later name column wide narrow ↔
      ∀ day : Date, day.FitsPattern → narrow.operator.compares day.text (narrow.dateFrom now).text = true →
        wide.operator.compares day.text (wide.dateFrom now).text = true := by
  constructor
  · intro hrows day hday
    have hrow := hrows ⟨fun _ => some day.text, fun _ => false⟩ day hday rfl
    rwa [isTrue_offset_iff hnarrow rfl, isTrue_offset_iff hwide rfl] at hrow
  · intro hdays row day hday hcell
    rw [isTrue_offset_iff hnarrow hcell, isTrue_offset_iff hwide hcell]
    exact hdays day hday

/-- A wider offset keeps all the days that a narrower one keeps, unless one of their dates has a year of four digits
and the other one lies behind the year 9999. -/
theorem wider_offset_keeps_iff (h : narrow.NoWiderThan wide) (hnarrow : narrow.IsRepresentable now)
    (hwide : wide.IsRepresentable now) :
    KeepsDaysOf now earlier later name column wide narrow ↔
      ¬ Date.LieAcross (narrow.dateFrom now) (wide.dateFrom now) := by
  have hnarrowDate := narrow.inCalendar_dateFrom now
  have hwideDate := wide.inCalendar_dateFrom now
  rw [keepsDaysOf_iff hnarrow hwide, DateOffset.operator, DateOffset.operator, h.ahead_eq]
  by_cases hahead : wide.ahead = true
  · rw [if_pos hahead]
    exact Date.le_compares_mono_iff hnarrowDate hwideDate (h.dateFrom_le hahead)
  · rw [if_neg hahead, Date.lieAcross_comm]
    exact Date.ge_compares_mono_iff hwideDate hnarrowDate (h.dateFrom_ge hahead)

/-- Thirty days from the middle of March 2024 keep what seven days keep. -/
theorem wider_offset_keeps_april :
    KeepsDaysOf 1710504000 [] [] "deadline" (.bare "deadline") ⟨true, ['3', '0'], .day, rfl⟩
      ⟨true, ['0', '7'], .day, rfl⟩ := by
  have hwidth : (DateOffset.mk true ['0', '7'] .day rfl).NoWiderThan ⟨true, ['3', '0'], .day, rfl⟩ :=
    ⟨rfl, rfl, by decide⟩
  refine (wider_offset_keeps_iff hwidth ⟨by decide, by decide⟩ ⟨by decide, by decide⟩).mpr ?_
  rintro (⟨-, hlt⟩ | ⟨-, hlt⟩)
  · exact absurd hlt (by decide)
  · exact absurd hlt (by decide)

/-- The date of an offset of three million days is behind the year 9999, and comes before all days as a text. -/
theorem offset_past_9999_loses_days :
    (ofDate 0 1710504000 "deadline" "+2900000d").IsTrue .bytewise
        ⟨fun _ => some "2024-01-01", fun _ => false⟩ [] [] (.bare "deadline") ∧
      ¬ (ofDate 0 1710504000 "deadline" "+3000000d").IsTrue .bytewise
        ⟨fun _ => some "2024-01-01", fun _ => false⟩ [] [] (.bare "deadline") := by
  have hnarrow : (DateOffset.mk true "2900000".toList .day rfl).IsRepresentable 1710504000 :=
    ⟨by decide, by decide⟩
  have hwide : (DateOffset.mk true "3000000".toList .day rfl).IsRepresentable 1710504000 :=
    ⟨by decide, by decide⟩
  constructor
  · exact (isTrue_offset_iff hnarrow rfl).mpr (by decide)
  · exact fun hkept => absurd ((isTrue_offset_iff hwide rfl).mp hkept) (by decide)

end Restriction

end BugReport
