import Mathlib.Tactic.IntervalCases

/-! The proleptic Gregorian calendar, and its days counted from a first of March. Years that begin
in March end with the day that a leap year adds. -/

namespace Gregorian

def IsLeap (year : Int) : Prop := year % 4 = 0 ∧ (year % 100 ≠ 0 ∨ year % 400 = 0)

instance (year : Int) : Decidable (IsLeap year) := inferInstanceAs (Decidable (_ ∧ _))

def daysInMonth (year : Int) (month : Nat) : Nat :=
  match month with
  | 2 => if IsLeap year then 29 else 28
  | 4 | 6 | 9 | 11 => 30
  | _ => 31

@[ext]
structure Date where
  year : Int
  month : Nat
  day : Nat
  month_bounds : 1 ≤ month ∧ month ≤ 12
  day_bounds : 1 ≤ day ∧ day ≤ daysInMonth year month

theorem daysInMonth_pos (year : Int) (month : Nat) : 1 ≤ daysInMonth year month := by
  unfold daysInMonth
  split <;> (try split) <;> decide

namespace Date

def next (date : Date) : Date :=
  if later : date.day < daysInMonth date.year date.month then
    ⟨date.year, date.month, date.day + 1, date.month_bounds, Nat.le_add_left 1 _, later⟩
  else if month : date.month < 12 then
    ⟨date.year, date.month + 1, 1, ⟨Nat.le_add_left 1 _, month⟩, Nat.le_refl 1,
      daysInMonth_pos _ _⟩
  else
    ⟨date.year + 1, 1, 1, by decide, Nat.le_refl 1, daysInMonth_pos _ _⟩

theorem next_within {date : Date} (room : date.day < daysInMonth date.year date.month) :
    date.next.year = date.year ∧ date.next.month = date.month ∧ date.next.day = date.day + 1 := by
  rw [next, dif_pos room]
  exact ⟨rfl, rfl, rfl⟩

theorem next_month {date : Date} (full : ¬date.day < daysInMonth date.year date.month)
    (early : date.month < 12) :
    date.next.year = date.year ∧ date.next.month = date.month + 1 ∧ date.next.day = 1 := by
  rw [next, dif_neg full, dif_pos early]
  exact ⟨rfl, rfl, rfl⟩

theorem next_year {date : Date} (full : ¬date.day < daysInMonth date.year date.month)
    (last : ¬date.month < 12) :
    date.next.year = date.year + 1 ∧ date.next.month = 1 ∧ date.next.day = 1 := by
  rw [next, dif_neg full, dif_neg last]
  exact ⟨rfl, rfl, rfl⟩

end Date

def yearStart (year : Int) : Int := 365 * year + year / 4 - year / 100 + year / 400

/-- The days from the first of March to the first of a month, March being month zero. -/
def monthStart (month : Int) : Int := (153 * month + 2) / 5

/-- A day falls in a year that begins in March, on a day of a month counted from zero. -/
structure Falls (days year month day : Int) : Prop where
  sum : days = yearStart year + monthStart month + day
  month_bounds : 0 ≤ month ∧ month ≤ 11
  day_low : 0 ≤ day
  day_month : day < monthStart (month + 1) - monthStart month
  day_year : days < yearStart (year + 1)

theorem yearStart_succ (year : Int) :
    yearStart (year + 1) = yearStart year + 365 + if IsLeap (year + 1) then 1 else 0 := by
  by_cases leap : IsLeap (year + 1)
  · rw [if_pos leap]
    unfold IsLeap at leap
    unfold yearStart
    omega
  · rw [if_neg leap]
    unfold IsLeap at leap
    unfold yearStart
    omega

theorem yearStart_mono {early late : Int} (order : early ≤ late) :
    yearStart early ≤ yearStart late := by
  unfold yearStart
  omega

theorem monthStart_mono {early late : Int} (order : early ≤ late) :
    monthStart early ≤ monthStart late := by
  unfold monthStart
  omega

theorem yearStart_era (era year : Int) :
    yearStart (400 * era + year) = 146097 * era + yearStart year := by
  unfold yearStart
  omega

namespace Falls

variable {days year month day : Int}

theorem yearStart_le (falls : Falls days year month day) : yearStart year ≤ days := by
  have zero : monthStart 0 = 0 := rfl
  have later := monthStart_mono falls.month_bounds.1
  have first := falls.day_low
  have sum := falls.sum
  omega

theorem unique {otherYear otherMonth otherDay : Int} (falls : Falls days year month day)
    (other : Falls days otherYear otherMonth otherDay) :
    year = otherYear ∧ month = otherMonth ∧ day = otherDay := by
  have same : year = otherYear := by
    by_contra differ
    rcases lt_or_gt_of_ne differ with order | order
    · have later := yearStart_mono (Int.add_one_le_of_lt order)
      exact absurd (falls.day_year.trans_le (later.trans other.yearStart_le)) (lt_irrefl _)
    · have later := yearStart_mono (Int.add_one_le_of_lt order)
      exact absurd (other.day_year.trans_le (later.trans falls.yearStart_le)) (lt_irrefl _)
  subst same
  have sum := falls.sum.symm.trans other.sum
  have low := falls.day_low
  have low' := other.day_low
  have high := falls.day_month
  have high' := other.day_month
  have months : month = otherMonth := by
    by_contra differ
    rcases lt_or_gt_of_ne differ with order | order
    · have later := monthStart_mono (Int.add_one_le_of_lt order)
      omega
    · have later := monthStart_mono (Int.add_one_le_of_lt order)
      omega
  subst months
  exact ⟨rfl, rfl, by omega⟩

end Falls

def calendarYear (year month : Int) : Int := if month < 10 then year else year + 1

def calendarMonth (month : Int) : Nat := (if month < 10 then month + 3 else month - 9).toNat

def monthLength (year month : Int) : Nat := daysInMonth (calendarYear year month) (calendarMonth month)

theorem monthLength_eq (year : Int) {month : Int} (low : 0 ≤ month) (high : month < 11) :
    (monthLength year month : Int) = monthStart (month + 1) - monthStart month := by
  interval_cases month <;> rfl

theorem monthLength_last (year : Int) :
    (monthLength year 11 : Int) = yearStart (year + 1) - yearStart year - monthStart 11 := by
  have length : monthLength year 11 = if IsLeap (year + 1) then 29 else 28 := rfl
  have start : monthStart 11 = 337 := rfl
  rw [length, yearStart_succ, start]
  split <;> omega

theorem calendarMonth_bounds {month : Int} (low : 0 ≤ month) (high : month ≤ 11) :
    1 ≤ calendarMonth month ∧ calendarMonth month ≤ 12 := by
  unfold calendarMonth
  split <;> omega

namespace Falls

variable {days year month day : Int}

theorem day_lt (falls : Falls days year month day) : day < monthLength year month := by
  obtain ⟨low, high⟩ := falls.month_bounds
  by_cases last : month = 11
  · subst last
    have sum := falls.sum
    have inside := falls.day_year
    rw [monthLength_last]
    omega
  · rw [monthLength_eq year low (by omega)]
    exact falls.day_month

def date (falls : Falls days year month day) : Date where
  year := calendarYear year month
  month := calendarMonth month
  day := (day + 1).toNat
  month_bounds := calendarMonth_bounds falls.month_bounds.1 falls.month_bounds.2
  day_bounds := by
    have low := falls.day_low
    have high : day < daysInMonth (calendarYear year month) (calendarMonth month) := falls.day_lt
    omega

theorem date_unique (falls : Falls days year month day) {otherDays otherYear otherMonth otherDay : Int}
    (other : Falls otherDays otherYear otherMonth otherDay) (same : days = otherDays) :
    falls.date = other.date := by
  subst same
  obtain ⟨rfl, rfl, rfl⟩ := falls.unique other
  rfl

theorem early_month (falls : Falls days year month day) (early : month < 11) :
    days + 1 < yearStart (year + 1) := by
  have sum := falls.sum
  have inside := falls.day_month
  have bound : monthStart (month + 1) ≤ monthStart 11 := monthStart_mono (by omega)
  have start : monthStart 11 = 337 := rfl
  have length := yearStart_succ year
  split at length <;> omega

theorem next_day (falls : Falls days year month day) (room : day + 1 < monthLength year month) :
    Falls (days + 1) year month (day + 1) := by
  have sum := falls.sum
  have first := falls.day_low
  by_cases last : month = 11
  · subst last
    have start : monthStart 11 = 337 := rfl
    have finish : monthStart (11 + 1) = 367 := rfl
    have length := monthLength_last year
    have leap := yearStart_succ year
    refine ⟨by omega, falls.month_bounds, by omega, ?_, by omega⟩
    split at leap <;> omega
  · obtain ⟨low, high⟩ := falls.month_bounds
    rw [monthLength_eq year low (by omega)] at room
    exact ⟨by omega, ⟨low, high⟩, by omega, room, falls.early_month (by omega)⟩

theorem next_month (falls : Falls days year month day) (early : month < 11)
    (full : day + 1 = monthLength year month) : Falls (days + 1) year (month + 1) 0 := by
  obtain ⟨low, high⟩ := falls.month_bounds
  have sum := falls.sum
  rw [monthLength_eq year low early] at full
  refine ⟨by omega, by omega, Int.le_refl 0, ?_, falls.early_month early⟩
  unfold monthStart
  omega

theorem next_year (falls : Falls days year month day) (last : month = 11)
    (full : day + 1 = monthLength year month) : Falls (days + 1) (year + 1) 0 0 := by
  subst last
  have sum := falls.sum
  have zero : monthStart 0 = 0 := rfl
  have later := yearStart_succ (year + 1)
  rw [monthLength_last] at full
  refine ⟨by omega, by decide, Int.le_refl 0, by decide, ?_⟩
  split at later <;> omega

theorem date_next (falls : Falls days year month day) :
    ∃ laterYear laterMonth laterDay, ∃ later : Falls (days + 1) laterYear laterMonth laterDay,
      later.date = falls.date.next := by
  obtain ⟨low, high⟩ := falls.month_bounds
  have first := falls.day_low
  have bound := falls.day_lt
  have day_eq : falls.date.day = (day + 1).toNat := rfl
  have length : daysInMonth falls.date.year falls.date.month = monthLength year month := rfl
  by_cases room : day + 1 < monthLength year month
  · obtain ⟨sameYear, sameMonth, nextDay⟩ := @Date.next_within falls.date (by omega)
    refine ⟨year, month, day + 1, falls.next_day room, Date.ext sameYear.symm sameMonth.symm ?_⟩
    rw [nextDay, day_eq]
    change (day + 1 + 1).toNat = _
    omega
  · have full : day + 1 = monthLength year month := by omega
    have finished : ¬falls.date.day < daysInMonth falls.date.year falls.date.month := by omega
    by_cases early : month < 11
    · refine ⟨year, month + 1, 0, falls.next_month early full, ?_⟩
      by_cases december : month = 9
      · subst december
        have twelve : falls.date.month = 12 := rfl
        obtain ⟨nextYear, first, day⟩ := Date.next_year finished (by omega)
        exact Date.ext nextYear.symm first.symm day.symm
      · have middle : falls.date.month < 12 := by
          change calendarMonth month < 12
          unfold calendarMonth
          split <;> omega
        obtain ⟨sameYear, nextMonth, day⟩ := Date.next_month finished middle
        refine Date.ext ?_ ?_ day.symm
        · rw [sameYear]
          change calendarYear year (month + 1) = calendarYear year month
          unfold calendarYear
          split <;> split <;> omega
        · rw [nextMonth]
          change calendarMonth (month + 1) = calendarMonth month + 1
          unfold calendarMonth
          split <;> split <;> omega
    · have last : month = 11 := by omega
      refine ⟨year + 1, 0, 0, falls.next_year last full, ?_⟩
      subst last
      have february : falls.date.month = 2 := rfl
      obtain ⟨sameYear, march, day⟩ := Date.next_month finished (by omega)
      exact Date.ext sameYear.symm march.symm day.symm

end Falls

end Gregorian
