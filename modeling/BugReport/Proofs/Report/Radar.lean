import BugReport.Proofs.Calendar.Order
import BugReport.Report.Format

/-! # Labels of due dates

The radar looks for the first stretch of the calendar that has a day in common with a time. These stretches follow each
other: each of them begins where the one before it ends, so a day lies in the first one whose end it has not passed,
and later days have no earlier labels. Times of day do not count.
-/

namespace BugReport

open Calendar

namespace Calendar.Date

variable {a b d : Date}

/-- The months from the start of the year 0 up to a date. -/
def monthIndex (d : Date) : Int :=
  12 * d.year + d.month

theorem monthIndex_le (ha : a.InCalendar) (hb : b.InCalendar) (h : a ≤ b) : a.monthIndex ≤ b.monthIndex := by
  have hbefore := ha.month_le
  have hbehind := hb.month_pos
  rcases h.lt_or_eq with hlt | rfl
  · simp only [lt_iff, monthIndex] at *
    omega
  · exact le_rfl

end Calendar.Date

namespace Radar

variable {d : Date} {now day m n : Int} {s t present : Timestamp}

/-! ## Months ahead -/

theorem monthKey_eq_iff {a b : Date} (ha : 1 ≤ a.month ∧ a.month ≤ 12) (hb : 1 ≤ b.month ∧ b.month ≤ 12) :
    monthKey a = monthKey b ↔ a.monthIndex = b.monthIndex := by
  simp only [monthKey, Prod.mk.injEq, Date.monthIndex]
  omega

/-- Going ahead by months leads to a month of the calendar, or nowhere if the years that can be represented are over. -/
theorem monthsAfter_spec (hd : d.InCalendar) (count : Nat) :
    (1 ≤ (monthsAfter d count).month ∧ (monthsAfter d count).month ≤ 12) ∧
      ((monthsAfter d count).monthIndex = d.monthIndex + count ∨ monthsAfter d count = d) := by
  have hpos := hd.month_pos
  have hle := hd.month_le
  rw [monthsAfter, Date.addMonths?]
  split
  · simp only [Option.getD_some, Date.monthIndex]
    omega
  · exact ⟨⟨hpos, hle⟩, .inr rfl⟩

theorem year_monthsAfter (hd : d.InCalendar) :
    (monthsAfter d 12).year = d.year + 1 ∨ (monthsAfter d 12).year = d.year := by
  obtain ⟨hmonth, hindex | hsame⟩ := monthsAfter_spec hd 12
  · have hpos := hd.month_pos
    have hle := hd.month_le
    simp only [Date.monthIndex] at hindex
    omega
  · rw [hsame]
    exact .inr rfl

/-! ## The ends of the stretches -/

/-- The stretch of the calendar that is the first whose end a day has not passed, seen from another day. -/
def firstAhead (now day : Int) : Radar :=
  let date := Date.ofDayNumber day
  let present := Date.ofDayNumber now
  if day < now - 1 then overdue
  else if day ≤ now - 1 then yesterday
  else if day ≤ now then today
  else if day ≤ now + 1 then tomorrow
  else if monday day ≤ monday now then thisWeek
  else if monday day ≤ monday now + 7 then nextWeek
  else if date.monthIndex ≤ present.monthIndex then thisMonth
  else if date.monthIndex ≤ (monthsAfter present 1).monthIndex then nextMonth
  else if date.year ≤ present.year then thisYear
  else if date.year ≤ (monthsAfter present 12).year then nextYear
  else yearsAway

theorem before_yesterday_iff (h : t.day ≠ present.day - 1) :
    t.before { present with day := present.day - 1 } = true ↔ t.day < present.day - 1 := by
  simp [Timestamp.before, h]

/-- A time lies in the first stretch whose end its day has not passed. -/
theorem of_eq_firstAhead (present t : Timestamp) : Radar.of present t = firstAhead present.day t.day := by
  have hpresent := Date.inCalendar_ofDayNumber present.day
  have hdate := Date.inCalendar_ofDayNumber t.day
  have hmonths {d : Date} (h : d.InCalendar) := And.intro h.month_pos h.month_le
  obtain ⟨hnext, hnextIndex⟩ := monthsAfter_spec hpresent 1
  have hnextYear := year_monthsAfter hpresent
  unfold Radar.of firstAhead
  by_cases hyesterday : t.day = present.day - 1
  · simp [hyesterday]
  rw [if_neg (by simpa using hyesterday)]
  -- Behind the end of a stretch a day lies in the next one if it does not pass the end of that.
  refine ite_congr (propext (before_yesterday_iff hyesterday)) (fun _ => rfl) fun hover => ?_
  rw [if_neg (show ¬ t.day ≤ present.day - 1 by omega)]
  refine ite_congr (by simp only [beq_iff_eq, eq_iff_iff]; omega) (fun _ => rfl) fun htoday => ?_
  refine ite_congr (by simp only [beq_iff_eq, eq_iff_iff]; omega) (fun _ => rfl) fun htomorrow => ?_
  have hmonday : monday present.day ≤ monday t.day := monday_le (by omega)
  refine ite_congr (by simp only [beq_iff_eq, eq_iff_iff, isoWeek_eq_iff]; omega) (fun _ => rfl) fun hweek => ?_
  have hnextMonday := monday_add_seven_le (not_le.mp hweek)
  refine ite_congr (by simp only [beq_iff_eq, eq_iff_iff, isoWeek_eq_iff, monday_add_seven]; omega) (fun _ => rfl)
    fun _ => ?_
  have hlater : Date.ofDayNumber present.day ≤ Date.ofDayNumber t.day :=
    Date.ofDayNumber_le_iff.mpr (by omega)
  have hindex := Date.monthIndex_le hpresent hdate hlater
  have hyear := Date.year_le hlater
  refine ite_congr ?_ (fun _ => rfl) fun hmonth => ?_
  · rw [beq_iff_eq, eq_iff_iff, Timestamp.date, Timestamp.date, monthKey_eq_iff (hmonths hdate) (hmonths hpresent)]
    omega
  refine ite_congr ?_ (fun _ => rfl) fun _ => ?_
  · rw [beq_iff_eq, eq_iff_iff, Timestamp.date, Timestamp.date, monthKey_eq_iff (hmonths hdate) hnext]
    rcases hnextIndex with hindex | hsame
    · omega
    · rw [hsame]
      omega
  refine ite_congr (by simp only [beq_iff_eq, eq_iff_iff, Timestamp.date]; omega) (fun _ => rfl) fun _ => ?_
  refine ite_congr (by simp only [beq_iff_eq, eq_iff_iff, Timestamp.date]; omega) (fun _ => rfl) fun _ => rfl

/-! ## The order of the labels -/

/-- The stretches in the order of the calendar. -/
def stretches : List Radar :=
  [overdue, yesterday, today, tomorrow, thisWeek, nextWeek, thisMonth, nextMonth, thisYear, nextYear, yearsAway]

/-- The labels in the order of the calendar. -/
def labels : List String :=
  ["overdue", "yesterday", "today", "tomorrow", "this week", "next week", "this month", "next month", "this year",
    "next year", "years away"]

def position (r : Radar) : Nat :=
  stretches.idxOf r

theorem idxOf_label (r : Radar) : labels.idxOf r.label = r.position := by
  cases r <;> decide

theorem label_mem (r : Radar) : r.label ∈ labels := by
  cases r <;> decide

theorem le_position_ite {p : Prop} [Decidable p] {n : Nat} {r x : Radar} (hr : n ≤ r.position)
    (hx : n ≤ x.position) : n ≤ (if p then r else x).position := by
  split
  · exact hr
  · exact hx

/-- Of two days the one that is past the end of a stretch lies behind the one that is not. -/
theorem position_ite_le {p q : Prop} [Decidable p] [Decidable q] {r x y : Radar} (hqp : q → p)
    (hr : r.position ≤ y.position) (hxy : x.position ≤ y.position) :
    (if p then r else x).position ≤ (if q then r else y).position := by
  by_cases hq : q
  · rw [if_pos hq, if_pos (hqp hq)]
  · rw [if_neg hq]
    by_cases hp : p
    · rw [if_pos hp]
      exact hr
    · rw [if_neg hp]
      exact hxy

/-- Later days lie in no earlier stretches. -/
theorem position_firstAhead_le (now : Int) (h : m ≤ n) :
    (firstAhead now m).position ≤ (firstAhead now n).position := by
  have hmonday := monday_le h
  have hdate := Date.ofDayNumber_le_iff.mpr h
  have hindex := Date.monthIndex_le (Date.inCalendar_ofDayNumber m) (Date.inCalendar_ofDayNumber n) hdate
  have hyear := Date.year_le hdate
  unfold firstAhead
  -- One stretch after the other, and yearsAway behind all of them.
  iterate 9 refine position_ite_le (by omega) (by repeat' first | decide | apply le_position_ite) ?_
  exact position_ite_le (by omega) (by decide) le_rfl

end Radar

namespace Formatter

variable {f : Formatter} {value title : String} {t : Timestamp}

theorem write_radar (hread : Timestamp.read? value = some t) (hdate : t ≠ noDate) :
    f.write .radar value title = (Radar.firstAhead f.present.day t.day).label := by
  have hbeq : (t == noDate) = false := beq_false_of_ne hdate
  simp only [write, writeTime, hread, hbeq, Bool.false_eq_true, ↓reduceIte, Radar.of_eq_firstAhead]

/-- The radar writes one of its labels for a time, no earlier one for a later time, and the same one at any other time
of the same day, seen at any instant of the same day. -/
theorem radar_follows_calendar (f : Formatter) (value later title laterTitle : String) (s t : Timestamp)
    (hs : Timestamp.read? value = some s) (ht : Timestamp.read? later = some t) (hsDate : s ≠ noDate)
    (htDate : t ≠ noDate) :
    f.write .radar value title ∈ Radar.labels ∧
      (t.before s = false →
        Radar.labels.idxOf (f.write .radar value title) ≤ Radar.labels.idxOf (f.write .radar later laterTitle)) ∧
      ∀ g : Formatter, g.present.date = f.present.date → s.date = t.date →
        g.write .radar later laterTitle = f.write .radar value title := by
  rw [write_radar hs hsDate, write_radar ht htDate]
  refine ⟨Radar.label_mem _, ?_, ?_⟩
  · intro hbefore
    have hday : s.day ≤ t.day := by
      simp only [Timestamp.before, Bool.or_eq_false_iff, decide_eq_false_iff_not] at hbefore
      omega
    rw [Radar.idxOf_label, Radar.idxOf_label]
    exact Radar.position_firstAhead_le _ hday
  · intro g hpresent hsame
    rw [write_radar ht htDate, Date.ofDayNumber_injective hpresent, Date.ofDayNumber_injective hsame]

/-- The end of the year 2024, with a leap second, and the month behind it, seen from the last Sunday of the year. -/
theorem radar_follows_calendar_into_2025 :
    Radar.labels.idxOf (Formatter.write ⟨.empty, {}, [], 1735430400⟩ .radar "2024-12-31 23:59:60" "") ≤
      Radar.labels.idxOf (Formatter.write ⟨.empty, {}, [], 1735430400⟩ .radar "2025-02-01" "") :=
  (radar_follows_calendar _ "2024-12-31 23:59:60" "2025-02-01" "" "" ⟨20088, 86399, true⟩ ⟨20120, 0, false⟩
    (by decide) (by decide) (by decide) (by decide)).2.1 (by decide)

end Formatter

end BugReport
