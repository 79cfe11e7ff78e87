import KnotEditor.Library.Gregorian

/-! The calendar date of a Mark timestamp, counted in `i64` from the days since 1970. -/

namespace KnotEditor.Mark

open Gregorian

def checkedI64 (value : Int) : Option Int :=
  if -2 ^ 63 ≤ value ∧ value < 2 ^ 63 then some value else none

def asU32 (value : Int) : Nat := (value % 2 ^ 32).toNat

def clockDays (seconds : UInt64) : Int := (seconds.toNat / 86400 : Nat)

def eraOfDays (days : Int) : Option (Int × Int) := do
  let shifted ← if 0 ≤ days then some days else checkedI64 (days - 146096)
  let era := shifted.tdiv 146097
  let before ← checkedI64 (era * 146097)
  let dayOfEra ← checkedI64 (days - before)
  return (era, dayOfEra)

def yearOfEra (dayOfEra : Int) : Option (Int × Int) := do
  let dropped ← checkedI64 (dayOfEra - dayOfEra.tdiv 1460)
  let added ← checkedI64 (dropped + dayOfEra.tdiv 36524)
  let whole ← checkedI64 (added - dayOfEra.tdiv 146096)
  let yearOfEra := whole.tdiv 365
  let common ← checkedI64 (365 * yearOfEra)
  let julian ← checkedI64 (common + yearOfEra.tdiv 4)
  let yearDays ← checkedI64 (julian - yearOfEra.tdiv 100)
  let dayOfYear ← checkedI64 (dayOfEra - yearDays)
  return (yearOfEra, dayOfYear)

def monthOfYear (dayOfYear : Int) : Option (Int × Int) := do
  let fifths ← checkedI64 (5 * dayOfYear)
  let shifted ← checkedI64 (fifths + 2)
  let monthPrime := shifted.tdiv 153
  let months ← checkedI64 (153 * monthPrime)
  let monthDays ← checkedI64 (months + 2)
  let dayOfMonth ← checkedI64 (dayOfYear - monthDays.tdiv 5)
  let day ← checkedI64 (dayOfMonth + 1)
  return (monthPrime, day)

def civilFromDays (days : Int) : Option (Int × Nat × Nat) := do
  let days ← checkedI64 (days + 719468)
  let (era, dayOfEra) ← eraOfDays days
  let (yearOfEra, dayOfYear) ← yearOfEra dayOfEra
  let eraYears ← checkedI64 (era * 400)
  let year ← checkedI64 (yearOfEra + eraYears)
  let (monthPrime, day) ← monthOfYear dayOfYear
  let month ← checkedI64 (monthPrime + if monthPrime < 10 then 3 else -9)
  let year ← checkedI64 (year + if month ≤ 2 then 1 else 0)
  return (year, asU32 month, asU32 day)

theorem bind_checked {α : Type} {value : Int} {next : Int → Option α} (low : -2 ^ 63 ≤ value)
    (high : value < 2 ^ 63) : (checkedI64 value).bind next = next value := by
  rw [checkedI64, if_pos ⟨low, high⟩]
  rfl

/-- The parts of a day of an era: centuries, four-year cycles, years and the day of the year. -/
structure EraParts (dayOfEra century cycle year day : Int) : Prop where
  sum : dayOfEra = 36524 * century + 1461 * cycle + 365 * year + day
  century_bounds : 0 ≤ century ∧ century ≤ 3
  cycle_bounds : 0 ≤ cycle ∧ cycle ≤ 24
  year_bounds : 0 ≤ year ∧ year ≤ 3
  day_bounds : 0 ≤ day ∧ day ≤ 365
  leap : day = 365 → year = 3 ∧ (cycle = 24 → century = 3)

theorem exists_parts {dayOfEra : Int} (low : 0 ≤ dayOfEra) (high : dayOfEra < 146097) :
    ∃ century cycle year day, EraParts dayOfEra century cycle year day := by
  obtain ⟨century, rest, low, high, start, bound, split⟩ : ∃ century rest : Int, 0 ≤ century ∧
      century ≤ 3 ∧ 0 ≤ rest ∧ (rest < 36524 ∨ rest = 36524 ∧ century = 3) ∧
      dayOfEra = 36524 * century + rest := by
    by_cases last : dayOfEra = 146096
    · exact ⟨3, 36524, by omega⟩
    · exact ⟨dayOfEra / 36524, dayOfEra % 36524, by omega⟩
  obtain ⟨cycle, days, cycles, within⟩ : ∃ cycle days : Int, (0 ≤ cycle ∧ cycle ≤ 24) ∧
      0 ≤ days ∧ days < 1461 ∧ rest = 1461 * cycle + days := ⟨rest / 1461, rest % 1461, by omega⟩
  by_cases last : days = 1460
  · exact ⟨century, cycle, 3, 365, by constructor <;> omega⟩
  · exact ⟨century, cycle, days / 365, days % 365, by constructor <;> omega⟩

theorem yearStart_parts (century cycle year : Int) (centuries : 0 ≤ century ∧ century ≤ 3)
    (cycles : 0 ≤ cycle ∧ cycle ≤ 24) (years : 0 ≤ year ∧ year ≤ 3) :
    yearStart (100 * century + 4 * cycle + year) = 36524 * century + 1461 * cycle + 365 * year := by
  unfold yearStart
  omega

namespace EraParts

variable {dayOfEra century cycle year day : Int}

theorem yearOfEra (parts : EraParts dayOfEra century cycle year day) :
    (dayOfEra - dayOfEra / 1460 + dayOfEra / 36524 - dayOfEra / 146096) / 365 =
      100 * century + 4 * cycle + year := by
  obtain ⟨sum, centuries, cycles, years, days, leap⟩ := parts
  have bounds : 0 ≤ dayOfEra ∧ dayOfEra < 146097 := by omega
  have final : dayOfEra / 146096 = 0 ∨ dayOfEra = 146096 := by omega
  have whole : dayOfEra / 36524 - dayOfEra / 146096 = century := by omega
  have fours : dayOfEra / 1460 = 25 * century + cycle ∨
      dayOfEra / 1460 = 25 * century + cycle + 1 ∧ year = 3 ∧ 1 ≤ day := by omega
  omega

theorem lt_yearStart (parts : EraParts dayOfEra century cycle year day) :
    dayOfEra < yearStart (100 * century + 4 * cycle + year + 1) := by
  obtain ⟨sum, centuries, cycles, years, days, leap⟩ := parts
  by_cases inside : year < 3
  · have next := yearStart_parts century cycle (year + 1) centuries cycles (by omega)
    rw [← Int.add_assoc] at next
    omega
  · by_cases later : cycle < 24
    · have next := yearStart_parts century (cycle + 1) 0 centuries (by omega) (by omega)
      have same : 100 * century + 4 * cycle + year + 1 = 100 * century + 4 * (cycle + 1) + 0 := by
        omega
      rw [same]
      omega
    · by_cases last : century = 3
      · have era : yearStart 400 = 146097 := by decide
        have same : 100 * century + 4 * cycle + year + 1 = 400 := by omega
        rw [same]
        omega
      · have next := yearStart_parts (century + 1) 0 0 (by omega) (by omega) (by omega)
        have same : 100 * century + 4 * cycle + year + 1 =
            100 * (century + 1) + 4 * 0 + 0 := by omega
        rw [same]
        omega

end EraParts

theorem yearOfEra_bounds {dayOfEra : Int} (low : 0 ≤ dayOfEra) (high : dayOfEra < 146097)
    {year : Int} (same : (dayOfEra - dayOfEra / 1460 + dayOfEra / 36524 - dayOfEra / 146096) / 365 =
      year) :
    (0 ≤ year ∧ year ≤ 399) ∧ yearStart year ≤ dayOfEra ∧ dayOfEra < yearStart (year + 1) := by
  obtain ⟨century, cycle, single, day, parts⟩ := exists_parts low high
  rw [parts.yearOfEra] at same
  subst same
  have start := yearStart_parts _ _ _ parts.century_bounds parts.cycle_bounds parts.year_bounds
  refine ⟨?_, ?_, parts.lt_yearStart⟩
  · obtain ⟨_, centuries, cycles, years, _, _⟩ := parts
    omega
  · have sum := parts.sum
    have first := parts.day_bounds.1
    omega

theorem monthPrime_bounds {dayOfYear : Int} (low : 0 ≤ dayOfYear) (high : dayOfYear ≤ 365)
    {month : Int} (same : (5 * dayOfYear + 2) / 153 = month) :
    (0 ≤ month ∧ month ≤ 11) ∧ monthStart month ≤ dayOfYear ∧
      dayOfYear < monthStart (month + 1) := by
  unfold monthStart
  omega

theorem eraOfDays_eq {days : Int} (low : 0 ≤ days) (high : days < 2 ^ 62) :
    eraOfDays days = some (days / 146097, days % 146097) := by
  have whole : days - days / 146097 * 146097 = days % 146097 := by omega
  rw [eraOfDays]
  simp (disch := omega) only [↓if_pos low, Option.bind_eq_bind, Option.bind_some, ↓bind_checked,
    Int.tdiv_eq_ediv_of_nonneg, whole]
  rfl

theorem yearOfEra_eq {dayOfEra : Int} (low : 0 ≤ dayOfEra) (high : dayOfEra < 146097) :
    ∃ year, yearOfEra dayOfEra = some (year, dayOfEra - yearStart year) ∧
      (0 ≤ year ∧ year ≤ 399) ∧ yearStart year ≤ dayOfEra ∧ dayOfEra < yearStart (year + 1) := by
  generalize same : (dayOfEra - dayOfEra / 1460 + dayOfEra / 36524 - dayOfEra / 146096) / 365 = year
  obtain ⟨years, inside⟩ := yearOfEra_bounds low high same
  refine ⟨year, ?_, years, inside⟩
  have start : yearStart year = 365 * year + year / 4 - year / 100 := by
    unfold yearStart
    omega
  rw [start] at inside
  have whole : (dayOfEra - dayOfEra / 1460 + dayOfEra / 36524 - dayOfEra / 146096).tdiv 365 =
      year := by
    rw [Int.tdiv_eq_ediv_of_nonneg (by omega), same]
  rw [yearOfEra]
  simp only [Option.bind_eq_bind, Int.tdiv_eq_ediv_of_nonneg low]
  rw [bind_checked, bind_checked, bind_checked, whole]
  · clear same whole
    simp (disch := omega) only [↓bind_checked, Int.tdiv_eq_ediv_of_nonneg years.1]
    rw [start]
    rfl
  all_goals
    clear same whole inside start
    omega

theorem monthOfYear_eq {dayOfYear : Int} (low : 0 ≤ dayOfYear) (high : dayOfYear ≤ 365) :
    ∃ month, monthOfYear dayOfYear = some (month, dayOfYear - monthStart month + 1) ∧
      (0 ≤ month ∧ month ≤ 11) ∧ monthStart month ≤ dayOfYear ∧
      dayOfYear < monthStart (month + 1) := by
  generalize same : (5 * dayOfYear + 2) / 153 = month
  have bounds := monthPrime_bounds low high same
  refine ⟨month, ?_, bounds⟩
  rw [monthOfYear]
  simp (disch := omega) only [Option.bind_eq_bind, ↓bind_checked, Int.tdiv_eq_ediv_of_nonneg, same]
  rfl

theorem calendar_month (year : Int) {month : Int} (low : 0 ≤ month) (high : month ≤ 11) :
    asU32 (month + if month < 10 then 3 else -9) = calendarMonth month ∧
      (year + if (month + if month < 10 then 3 else -9) ≤ 2 then 1 else 0) =
        calendarYear year month := by
  unfold asU32 calendarMonth calendarYear
  by_cases early : month < 10
  · rw [if_pos early, if_pos early, if_pos early, if_neg (by omega)]
    omega
  · rw [if_neg early, if_neg early, if_neg early, if_pos (by omega)]
    omega

theorem civilFromDays_falls {days : Int} (low : 0 ≤ days) (high : days < 2 ^ 60) :
    ∃ year month day, ∃ falls : Falls (days + 719468) year month day,
      civilFromDays days = some (falls.date.year, falls.date.month, falls.date.day) := by
  generalize count_ : days + 719468 = count
  have counted : 0 ≤ count ∧ count < 2 ^ 61 := by omega
  have dayOfEra : 0 ≤ count % 146097 ∧ count % 146097 < 146097 := by omega
  obtain ⟨year, yearEq, years, yearLow, yearHigh⟩ := yearOfEra_eq dayOfEra.1 dayOfEra.2
  have length := yearStart_succ year
  have dayOfYear : 0 ≤ count % 146097 - yearStart year ∧
      count % 146097 - yearStart year ≤ 365 := by
    split at length <;> omega
  obtain ⟨month, monthEq, months, monthLow, monthHigh⟩ := monthOfYear_eq dayOfYear.1 dayOfYear.2
  have falls : Falls count (400 * (count / 146097) + year) month
      (count % 146097 - yearStart year - monthStart month) := by
    refine ⟨?_, months, by omega, by omega, ?_⟩
    · rw [yearStart_era]
      omega
    · rw [Int.add_assoc, yearStart_era]
      omega
  refine ⟨_, _, _, falls, ?_⟩
  rw [civilFromDays, count_]
  simp (disch := omega) only [Option.bind_eq_bind, ↓bind_checked, eraOfDays_eq, yearEq, monthEq,
    Option.bind_some]
  obtain ⟨monthSame, yearSame⟩ := calendar_month (400 * (count / 146097) + year) months.1 months.2
  have order : year + count / 146097 * 400 = 400 * (count / 146097) + year := by omega
  have dayOfMonth : asU32 (count % 146097 - yearStart year - monthStart month + 1) =
      falls.date.day := by
    have march : 0 ≤ monthStart month := monthStart_mono months.1
    change asU32 _ = (_ + 1 : Int).toNat
    unfold asU32
    omega
  rw [order, yearSame, monthSame, dayOfMonth]
  rfl

/-- Every date the clock can give is the Gregorian one, counted on from the first of January 1970. -/
theorem civilFromDays_gregorian :
    civilFromDays 0 = some (1970, 1, 1) ∧ ∀ seconds : UInt64, ∃ date : Date,
      civilFromDays (clockDays seconds) = some (date.year, date.month, date.day) ∧
      civilFromDays (clockDays seconds + 1) =
        some (date.next.year, date.next.month, date.next.day) := by
  refine ⟨rfl, fun seconds => ?_⟩
  have bound := seconds.toNat_lt
  have small : 0 ≤ clockDays seconds ∧ clockDays seconds + 1 < 2 ^ 60 := by
    unfold clockDays
    omega
  obtain ⟨year, month, day, falls, today⟩ := civilFromDays_falls small.1 (by omega)
  have positive : 0 ≤ clockDays seconds + 1 := by omega
  obtain ⟨nextYear, nextMonth, nextDay, later, tomorrow⟩ := civilFromDays_falls positive small.2
  obtain ⟨laterYear, laterMonth, laterDay, next, same⟩ := falls.date_next
  refine ⟨falls.date, today, ?_⟩
  rw [tomorrow, ← same, later.date_unique next (by omega)]

end KnotEditor.Mark
