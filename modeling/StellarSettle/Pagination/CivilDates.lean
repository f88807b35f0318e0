import StellarSettle.Core.Calendar
import StellarSettle.Pagination.QueryPagination

/-!
# The dates of the calendar

The dates that are printed count years from March, so that leap days come last.  They are the
dates of the calendar that counts from January.
-/

namespace StellarSettle.CivilDates

open StellarSettle.Calendar
open StellarSettle.QueryPagination (civilDate)

/-! ## Years from March -/

/-- The first of March. -/
theorem firstDay_march (year : ℤ) :
    firstDay (12 * year + 2) = 365 * year + year / 4 - year / 100 + year / 400 - 719468 := by
  rw [firstDay_of_year (by norm_num) (by norm_num), show daysBefore 2 = 59 from rfl, leapDay,
    dayFromYear]
  split_ifs with hleap
  · rw [IsLeap] at hleap
    omega
  · have hcommon : ¬IsLeap year := fun hyear => hleap ⟨hyear, le_refl _⟩
    rw [IsLeap] at hcommon
    omega

/-- Eras of 400 years have the same days. -/
theorem firstDay_march_era (year era : ℤ) :
    firstDay (12 * (year + era * 400) + 2) =
      146097 * era + (365 * year + year / 4 - year / 100 + year / 400) - 719468 := by
  rw [firstDay_march, show (year + era * 400) / 4 = year / 4 + 100 * era by omega,
    show (year + era * 400) / 100 = year / 100 + 4 * era by omega,
    show (year + era * 400) / 400 = year / 400 + era by omega]
  ring

/-- The first days of the months, counted from March. -/
theorem firstDay_from_march (year : ℤ) {march : ℤ} (hlow : 0 ≤ march) (hhigh : march < 12) :
    firstDay (12 * year + 2 + march) = firstDay (12 * year + 2) + (153 * march + 2) / 5 := by
  by_cases hsame : march < 10
  · rw [add_assoc, firstDay_of_year (by omega) (by omega),
      firstDay_of_year (by norm_num) (by norm_num)]
    have hleap : leapDay year (2 + march) = leapDay year 2 := by
      rw [leapDay, leapDay]
      simp [hlow]
    have hdays : daysBefore (2 + march) = daysBefore 2 + (153 * march + 2) / 5 := by
      interval_cases march <;> rfl
    rw [hleap, hdays]
    ring
  · have hyear : 12 * year + 2 + march = 12 * (year + 1) + (march - 10) := by ring
    have hleap : leapDay (year + 1) (march - 10) = 0 := if_neg fun hboth => by omega
    have hdays : daysBefore (march - 10) = (153 * march + 2) / 5 - 306 := by
      have hcases : march = 10 ∨ march = 11 := by omega
      rcases hcases with rfl | rfl <;> rfl
    rw [hyear, firstDay_of_year (by omega) (by omega), hleap, hdays, dayFromYear_succ,
      firstDay_of_year (by norm_num) (by norm_num), show daysBefore 2 = 59 from rfl, leapDay]
    by_cases hyearLeap : IsLeap year
    · rw [if_pos hyearLeap, if_pos ⟨hyearLeap, le_refl _⟩]
      ring
    · rw [if_neg hyearLeap, if_neg fun hboth => hyearLeap hboth.1]
      ring

/-- The year of an era that a day of the era lies in. -/
theorem yearOfEra_spec {dayOfEra yearOfEra : ℤ} (hlow : 0 ≤ dayOfEra) (hhigh : dayOfEra < 146097)
    (hyear : yearOfEra =
      (dayOfEra - dayOfEra / 1460 + dayOfEra / 36524 - dayOfEra / 146096) / 365) :
    0 ≤ yearOfEra ∧ yearOfEra < 400 ∧
      365 * yearOfEra + yearOfEra / 4 - yearOfEra / 100 ≤ dayOfEra ∧
      dayOfEra < 365 * (yearOfEra + 1) + (yearOfEra + 1) / 4 - (yearOfEra + 1) / 100 +
        (yearOfEra + 1) / 400 := by
  obtain ⟨century, hcentury⟩ : ∃ century, century = dayOfEra / 36524 := ⟨_, rfl⟩
  obtain ⟨last, hlast⟩ : ∃ last, last = dayOfEra / 146096 := ⟨_, rfl⟩
  obtain ⟨olympiad, holympiad⟩ : ∃ olympiad, olympiad = dayOfEra / 1460 := ⟨_, rfl⟩
  rw [← hcentury, ← hlast, ← holympiad] at hyear
  have hstart : 365 * yearOfEra ≤ dayOfEra - olympiad + century - last := by omega
  have hend : dayOfEra - olympiad + century - last < 365 * yearOfEra + 365 := by omega
  have hcenturies : 0 ≤ century ∧ century ≤ 4 := by omega
  obtain ⟨hfirst, hfifth⟩ := hcenturies
  have hhundreds : century - last ≤ yearOfEra / 100 := by interval_cases century <;> omega
  have hfours : yearOfEra / 4 ≤ olympiad := by interval_cases century <;> omega
  refine ⟨by omega, by omega, by omega, ?_⟩
  by_cases hlastOfCentury : yearOfEra % 100 = 99
  · interval_cases century <;> omega
  · have hnext : olympiad ≤ (yearOfEra + 1) / 4 := by omega
    have hsameCentury : yearOfEra / 100 ≤ century - last := by interval_cases century <;> omega
    have hhundred : (yearOfEra + 1) / 100 = yearOfEra / 100 := by omega
    have herasEnd : 0 ≤ (yearOfEra + 1) / 400 := by omega
    omega

/-! ## Dates -/

/-- The year of a month. -/
theorem yearFromDay_eq (day : ℤ) : yearFromDay day = monthFromDay day / 12 := by
  obtain ⟨hstart, hend⟩ := yearFromDay_spec day
  obtain ⟨hmonth, hnext⟩ := monthFromDay_spec day
  rw [← firstDay_newYear] at hstart hend
  have hlow := firstDay_lt_iff.mp (hstart.trans_lt hnext)
  have hhigh := firstDay_lt_iff.mp (hmonth.trans_lt hend)
  omega

/-- The numbers of a date, as the calendar counts them. -/
theorem civilDate_eq (day : ℤ) :
    civilDate day = (yearFromDay day, monthFromDay day - 12 * yearFromDay day + 1,
      dayOfMonth day) := by
  obtain ⟨era, hera⟩ : ∃ era, era = (day + 719468) / 146097 := ⟨_, rfl⟩
  obtain ⟨dayOfEra, hdayOfEra⟩ : ∃ dayOfEra, dayOfEra = (day + 719468) % 146097 := ⟨_, rfl⟩
  obtain ⟨yearOfEra, hyearOfEra⟩ : ∃ yearOfEra, yearOfEra =
    (dayOfEra - dayOfEra / 1460 + dayOfEra / 36524 - dayOfEra / 146096) / 365 := ⟨_, rfl⟩
  obtain ⟨dayOfYear, hdayOfYear⟩ : ∃ dayOfYear, dayOfYear =
    dayOfEra - (365 * yearOfEra + yearOfEra / 4 - yearOfEra / 100) := ⟨_, rfl⟩
  obtain ⟨march, hmarch⟩ : ∃ march, march = (5 * dayOfYear + 2) / 153 := ⟨_, rfl⟩
  obtain ⟨hlow, hhigh, hstart, hend⟩ :=
    yearOfEra_spec (by omega) (by omega : dayOfEra < 146097) hyearOfEra
  have hday : day = 146097 * era + dayOfEra - 719468 := by omega
  have hfirst : day = firstDay (12 * (yearOfEra + era * 400) + 2) + dayOfYear := by
    rw [firstDay_march_era]
    omega
  have hinYear : day < firstDay (12 * (yearOfEra + era * 400 + 1) + 2) := by
    rw [add_right_comm, firstDay_march_era]
    omega
  have hmonths : 0 ≤ march ∧ march < 12 := by omega
  have hmonthStart := firstDay_from_march (yearOfEra + era * 400) hmonths.1 hmonths.2
  have hmonth : monthFromDay day = 12 * (yearOfEra + era * 400) + 2 + march := by
    apply monthFromDay_eq
    · omega
    · by_cases hlast : march = 11
      · rw [hlast, show 12 * (yearOfEra + era * 400) + 2 + 11 + 1 =
          12 * (yearOfEra + era * 400 + 1) + 2 by ring]
        exact hinYear
      · rw [add_assoc _ march 1, firstDay_from_march _ (by omega) (by omega)]
        omega
  have hdate : dayOfMonth day = dayOfYear - (153 * march + 2) / 5 + 1 := by
    rw [dayOfMonth, hmonth, hmonthStart]
    omega
  rw [yearFromDay_eq, hdate, hmonth]
  simp only [civilDate, ← hera, ← hdayOfEra, ← hyearOfEra, ← hdayOfYear, ← hmarch, Prod.mk.injEq,
    and_true]
  refine ⟨?_, ?_⟩
  · split_ifs <;> omega
  · split_ifs <;> omega

end StellarSettle.CivilDates
