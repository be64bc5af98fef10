import BugReport.Calendar.Date
import Mathlib.Data.Prod.Lex

/-! # The order of the calendar

Dates are in the order of their years, then of their months, then of their days. Every day number belongs to one date
of the calendar and every date of the calendar to one day number, and later days have later dates.
-/

namespace BugReport.Calendar

/-! ## Years -/

section Years

variable {y z n : Int}

theorem yearStart_add_one (y : Int) : yearStart (y + 1) = yearStart y + if isLeap y then 366 else 365 := by
  simp only [yearStart, isLeap, Bool.and_eq_true, Bool.or_eq_true, beq_iff_eq, bne_iff_ne]
  split <;> omega

theorem yearStart_le (h : y ≤ z) : yearStart y ≤ yearStart z := by
  simp only [yearStart]
  omega

/-- A day lies between the start of its year and the start of the next one. -/
theorem yearOf_spec (n : Int) : yearStart (yearOf n) ≤ n ∧ n < yearStart (yearOf n + 1) := by
  simp only [yearOf]
  split
  · simp only [yearStart] at *
    omega
  · split
    · simp only [yearStart] at *
      omega
    · omega

end Years

/-! ## Months -/

section Months

variable {y : Int} {a b m d : Nat}

@[simp] theorem monthStart_one (y : Int) : monthStart y 1 = 0 := rfl

theorem monthStart_add_two (y : Int) (m : Nat) :
    monthStart y (m + 2) = monthStart y (m + 1) + daysInMonth y (m + 1) := by
  simp [monthStart, List.range_succ]

theorem monthStart_add_one (h : 1 ≤ m) : monthStart y (m + 1) = monthStart y m + daysInMonth y m := by
  obtain ⟨m, rfl⟩ := Nat.exists_eq_add_of_le' h
  exact monthStart_add_two y m

/-- Months start in their order. -/
theorem monthStart_mono (y : Int) : Monotone fun m => monthStart y (m + 1) := by
  apply monotone_nat_of_le_succ
  intro m
  rw [monthStart_add_two]
  omega

theorem monthStart_le (ha : 1 ≤ a) (hab : a ≤ b) : monthStart y a ≤ monthStart y b := by
  obtain ⟨a, rfl⟩ := Nat.exists_eq_add_of_le' ha
  obtain ⟨b, rfl⟩ := Nat.exists_eq_add_of_le' (Nat.le_trans ha hab)
  exact monthStart_mono y (by omega)

/-- Twelve months make a year. -/
theorem monthStart_thirteen (y : Int) : monthStart y 13 = if isLeap y then 366 else 365 := by
  simp only [monthStart, List.range, List.range.loop, List.foldl, daysInMonth]
  split <;> rfl

theorem yearStart_add_monthStart (y : Int) : yearStart y + (monthStart y 13 : Nat) = yearStart (y + 1) := by
  rw [yearStart_add_one, monthStart_thirteen]
  split <;> rfl

/-- Of the starts of a rising sequence a day has reached the first ones, as many as it has reached at all. -/
theorem start_le_iff_lt_count {start : Nat → Nat} (hstart : Monotone start) {n : Nat} (hm : m < n) :
    start m ≤ d ↔ m < ((List.range n).filter fun m => start m ≤ d).length := by
  induction n generalizing m with
  | zero => omega
  | succ n ih =>
      have hle : ((List.range n).filter fun m => start m ≤ d).length ≤ n := by
        simpa using List.length_filter_le (fun m => decide (start m ≤ d)) (List.range n)
      rw [List.range_succ, List.filter_append, List.length_append]
      generalize ((List.range n).filter fun m => start m ≤ d).length = count at hle ih
      by_cases hn : start n ≤ d
      · have hall : count = n := by
          by_contra hne
          have hcount : count < n := by omega
          exact absurd ((ih hcount).mp (Nat.le_trans (hstart hle) hn)) (Nat.lt_irrefl count)
        have hreached : start m ≤ d := Nat.le_trans (hstart (by omega)) hn
        simp [hn, hreached, hall, hm]
      · have hlength : ([n].filter fun m => start m ≤ d).length = 0 := by simp [hn]
        rw [hlength, Nat.add_zero]
        rcases Nat.lt_succ_iff_lt_or_eq.mp hm with hlt | rfl
        · exact ih hlt
        · exact iff_of_false hn (by omega)

/-- A day of a year lies in its month. -/
theorem monthOf_spec (h : d < monthStart y 13) :
    1 ≤ monthOf y d ∧ monthOf y d ≤ 12 ∧ monthStart y (monthOf y d) ≤ d ∧
      d < monthStart y (monthOf y d + 1) := by
  have hstart : Monotone fun m => monthStart y (m + 2) := fun a b hab => monthStart_mono y (Nat.succ_le_succ hab)
  have hcount {m : Nat} (hm : m < 11) := start_le_iff_lt_count (d := d) hstart hm
  have hle : ((List.range 11).filter fun m => monthStart y (m + 2) ≤ d).length ≤ 11 :=
    List.length_filter_le _ _
  rw [monthOf]
  generalize ((List.range 11).filter fun m => monthStart y (m + 2) ≤ d).length = count at hcount hle
  refine ⟨by omega, by omega, ?_, ?_⟩
  · cases count with
    | zero => exact Nat.zero_le d
    | succ count =>
        rw [Nat.add_comm]
        exact (hcount (by omega)).mpr (Nat.lt_succ_self count)
  · rcases Nat.lt_or_ge count 11 with hlt | hge
    · rw [Nat.add_comm 1 count]
      exact Nat.lt_of_not_le fun hreached => Nat.lt_irrefl count ((hcount hlt).mp hreached)
    · obtain rfl : count = 11 := by omega
      exact h

end Months

/-! ## Dates -/

namespace Date

/-- The parts of a date, the greatest first. -/
def key (d : Date) : Int ×ₗ Nat ×ₗ Nat :=
  toLex (d.year, toLex (d.month, d.day))

theorem key_injective : Function.Injective key := by
  rintro ⟨⟩ ⟨⟩ h
  cases h
  rfl

instance : LinearOrder Date :=
  LinearOrder.lift' key key_injective

variable {a b : Date}

theorem lt_iff : a < b ↔ a.year < b.year ∨
    a.year = b.year ∧ (a.month < b.month ∨ a.month = b.month ∧ a.day < b.day) := by
  change key a < key b ↔ _
  simp [key, Prod.Lex.toLex_lt_toLex]

theorem year_le (h : a ≤ b) : a.year ≤ b.year := by
  rcases h.lt_or_eq with hlt | rfl
  · rw [lt_iff] at hlt
    omega
  · exact le_rfl

/-- Whether there is such a month in a year and such a day in this month. -/
structure InCalendar (d : Date) : Prop where
  month_pos : 1 ≤ d.month
  month_le : d.month ≤ 12
  day_pos : 1 ≤ d.day
  day_le : d.day ≤ daysInMonth d.year d.month

namespace InCalendar

variable {d : Date}

/-- The date lies between the start of its month and the start of the next one. -/
theorem dayOfYear_lt (h : d.InCalendar) :
    monthStart d.year d.month + (d.day - 1) < monthStart d.year (d.month + 1) := by
  rw [monthStart_add_one h.month_pos]
  have hpos := h.day_pos
  have hle := h.day_le
  omega

theorem dayOfYear_lt_year (h : d.InCalendar) :
    monthStart d.year d.month + (d.day - 1) < monthStart d.year 13 :=
  Nat.lt_of_lt_of_le h.dayOfYear_lt (monthStart_le (by omega) (Nat.succ_le_succ h.month_le))

end InCalendar

/-- Later dates of the calendar have greater numbers. -/
theorem dayNumber_lt (ha : a.InCalendar) (h : a < b) : a.dayNumber < b.dayNumber := by
  rw [dayNumber, dayNumber]
  rcases lt_iff.mp h with hyear | ⟨hyear, hmonth | ⟨hmonth, hday⟩⟩
  · have hnext : yearStart (a.year + 1) ≤ yearStart b.year := yearStart_le hyear
    have hlength := yearStart_add_monthStart a.year
    have hlast := ha.dayOfYear_lt_year
    omega
  · have hnext : monthStart a.year (a.month + 1) ≤ monthStart a.year b.month :=
      monthStart_le (by omega) hmonth
    have hlast := ha.dayOfYear_lt
    rw [← hyear]
    omega
  · have hpos := ha.day_pos
    rw [← hyear, ← hmonth]
    omega

theorem dayNumber_lt_iff (ha : a.InCalendar) (hb : b.InCalendar) : a.dayNumber < b.dayNumber ↔ a < b := by
  constructor
  · intro hlt
    by_contra hle
    rcases (not_lt.mp hle).lt_or_eq with hgt | rfl
    · exact lt_asymm hlt (dayNumber_lt hb hgt)
    · exact lt_irrefl _ hlt
  · exact dayNumber_lt ha

theorem dayNumber_injective (ha : a.InCalendar) (hb : b.InCalendar) (h : a.dayNumber = b.dayNumber) : a = b := by
  rcases lt_trichotomy a b with hlt | heq | hgt
  · exact absurd h (dayNumber_lt ha hlt).ne
  · exact heq
  · exact absurd h (dayNumber_lt hb hgt).ne'

/-! ## Day numbers -/

variable {m n : Int}

/-- The days of its year before a day are fewer than the year has. -/
theorem dayOfYear_lt_of_yearOf (n : Int) :
    (n - yearStart (yearOf n)).toNat < monthStart (yearOf n) 13 := by
  obtain ⟨hfirst, hlast⟩ := yearOf_spec n
  have hlength := yearStart_add_monthStart (yearOf n)
  omega

theorem inCalendar_ofDayNumber (n : Int) : (ofDayNumber n).InCalendar := by
  obtain ⟨hpos, hle, hstart, hend⟩ := monthOf_spec (dayOfYear_lt_of_yearOf (n + epochStart))
  rw [monthStart_add_one hpos] at hend
  exact ⟨hpos, hle, Nat.le_add_left 1 _, by simp only [ofDayNumber]; omega⟩

/-- The date of a day has its number. -/
theorem dayNumber_ofDayNumber (n : Int) : (ofDayNumber n).dayNumber = n := by
  obtain ⟨-, -, hstart, -⟩ := monthOf_spec (dayOfYear_lt_of_yearOf (n + epochStart))
  obtain ⟨hfirst, -⟩ := yearOf_spec (n + epochStart)
  simp only [dayNumber, ofDayNumber]
  omega

/-- The date of the number of a date of the calendar is this date. -/
theorem ofDayNumber_dayNumber {d : Date} (h : d.InCalendar) : ofDayNumber d.dayNumber = d :=
  dayNumber_injective (inCalendar_ofDayNumber _) h (dayNumber_ofDayNumber _)

/-- Later days have later dates. -/
theorem ofDayNumber_lt_iff : ofDayNumber m < ofDayNumber n ↔ m < n := by
  rw [← dayNumber_lt_iff (inCalendar_ofDayNumber m) (inCalendar_ofDayNumber n), dayNumber_ofDayNumber,
    dayNumber_ofDayNumber]

theorem ofDayNumber_le_iff : ofDayNumber m ≤ ofDayNumber n ↔ m ≤ n := by
  rw [← not_lt, ofDayNumber_lt_iff, not_lt]

theorem ofDayNumber_injective : Function.Injective ofDayNumber :=
  Function.LeftInverse.injective dayNumber_ofDayNumber

end Date

/-! ## Weeks -/

section Weeks

variable {m n : Int}

/-- The first day of the week of a day. -/
def monday (n : Int) : Int :=
  n - weekday n

theorem monday_le (h : m ≤ n) : monday m ≤ monday n := by
  simp only [monday, weekday]
  omega

theorem monday_add_seven (n : Int) : monday (n + 7) = monday n + 7 := by
  simp only [monday, weekday]
  omega

/-- There are seven days from one Monday to the next. -/
theorem monday_add_seven_le (h : monday m < monday n) : monday m + 7 ≤ monday n := by
  simp only [monday, weekday] at *
  omega

/-- Days of the same week number and year have the same Monday: a year has no two weeks of one number, also where the
weeks of a year start or end in another year. -/
theorem isoWeek_eq_iff : isoWeek m = isoWeek n ↔ monday m = monday n := by
  constructor
  · intro h
    obtain ⟨hyear, hweek⟩ := Prod.mk.inj h
    rw [hyear] at hweek
    simp only [monday, weekday] at *
    omega
  · intro h
    rw [isoWeek, isoWeek, ← monday, ← monday, h]

end Weeks

end BugReport.Calendar
