import Mathlib.Data.Int.Basic
import Mathlib.Order.Monotone.Basic
import Mathlib.Tactic.IntervalCases
import Mathlib.Tactic.Ring

/-!
# The Gregorian calendar

Days are counted from 1 January 1970 and months from January of the year 0.  A month is the
interval between two first days; every day lies in exactly one.
-/

namespace StellarSettle.Calendar

/-! ## Years and months -/

def IsLeap (year : ℤ) : Prop := year % 4 = 0 ∧ (year % 100 ≠ 0 ∨ year % 400 = 0)

instance (year : ℤ) : Decidable (IsLeap year) := inferInstanceAs (Decidable (_ ∧ _))

/-- The first day of a year. -/
def dayFromYear (year : ℤ) : ℤ :=
  365 * (year - 1970) + (year - 1969) / 4 - (year - 1901) / 100 + (year - 1601) / 400

/-- Days of a common year before a month, which is counted from zero. -/
def daysBefore (month : ℤ) : ℤ :=
  if month < 1 then 0 else if month < 2 then 31 else if month < 3 then 59
  else if month < 4 then 90 else if month < 5 then 120 else if month < 6 then 151
  else if month < 7 then 181 else if month < 8 then 212 else if month < 9 then 243
  else if month < 10 then 273 else if month < 11 then 304 else 334

/-- The leap day comes before March. -/
def leapDay (year month : ℤ) : ℤ := if IsLeap year ∧ 2 ≤ month then 1 else 0

def firstDay (month : ℤ) : ℤ :=
  dayFromYear (month / 12) + daysBefore (month % 12) + leapDay (month / 12) (month % 12)

def monthLength (month : ℤ) : ℤ := firstDay (month + 1) - firstDay month

/-! ## First days -/

theorem dayFromYear_succ (year : ℤ) :
    dayFromYear (year + 1) = dayFromYear year + if IsLeap year then 366 else 365 := by
  rw [dayFromYear, dayFromYear]
  split_ifs with hleap <;> rw [IsLeap] at hleap <;> omega

theorem firstDay_of_year {year month : ℤ} (hlow : 0 ≤ month) (hhigh : month < 12) :
    firstDay (12 * year + month) = dayFromYear year + daysBefore month + leapDay year month := by
  rw [firstDay, show (12 * year + month) / 12 = year by omega,
    show (12 * year + month) % 12 = month by omega]

theorem firstDay_newYear (year : ℤ) : firstDay (12 * year) = dayFromYear year := by
  rw [← add_zero (12 * year), firstDay_of_year le_rfl (by norm_num),
    show daysBefore 0 = 0 from rfl,
    show leapDay year 0 = 0 from if_neg fun hleap => absurd hleap.2 (by decide)]
  ring

theorem exists_year (month : ℤ) :
    ∃ year inYear : ℤ, month = 12 * year + inYear ∧ 0 ≤ inYear ∧ inYear < 12 :=
  ⟨month / 12, month % 12, by omega, by omega, by omega⟩

theorem daysBefore_succ {month : ℤ} (hlow : 0 ≤ month) (hhigh : month < 11) :
    28 ≤ daysBefore (month + 1) - daysBefore month ∧
      daysBefore (month + 1) - daysBefore month ≤ if month = 1 then 28 else 31 := by
  interval_cases month <;> decide

theorem leapDay_succ (year month : ℤ) :
    leapDay year month ≤ leapDay year (month + 1) ∧
      leapDay year (month + 1) ≤ leapDay year month + if month = 1 then 1 else 0 := by
  by_cases hleap : IsLeap year
  · simp only [leapDay, hleap, true_and]
    split_ifs <;> omega
  · simp only [leapDay, hleap, false_and, if_false]
    split_ifs <;> omega

/-- Within a year the months have their lengths of a common year and the leap day. -/
theorem monthLength_bounds (month : ℤ) : 28 ≤ monthLength month ∧ monthLength month ≤ 31 := by
  obtain ⟨year, inYear, rfl, hlow, hhigh⟩ := exists_year month
  rw [monthLength, firstDay_of_year hlow hhigh]
  by_cases hlast : inYear = 11
  · -- December ends with the year.
    subst hlast
    rw [show 12 * year + 11 + 1 = 12 * (year + 1) by ring, firstDay_newYear, dayFromYear_succ,
      show daysBefore 11 = 334 from rfl]
    by_cases hleap : IsLeap year
    · rw [if_pos hleap, show leapDay year 11 = 1 from if_pos ⟨hleap, by decide⟩]
      omega
    · rw [if_neg hleap, show leapDay year 11 = 0 from if_neg fun hday => hleap hday.1]
      omega
  · have hdays := daysBefore_succ hlow (show inYear < 11 by omega)
    have hleap := leapDay_succ year inYear
    rw [add_assoc, firstDay_of_year (by omega) (by omega)]
    split_ifs at hdays hleap <;> omega

theorem firstDay_lt_succ (month : ℤ) : firstDay month < firstDay (month + 1) := by
  have hlength := (monthLength_bounds month).1
  rw [monthLength] at hlength
  omega

/-- Later months begin later. -/
theorem firstDay_lt_iff {month other : ℤ} : firstDay month < firstDay other ↔ month < other :=
  (strictMono_int_of_lt_succ firstDay_lt_succ).lt_iff_lt

theorem firstDay_le_iff {month other : ℤ} : firstDay month ≤ firstDay other ↔ month ≤ other :=
  (strictMono_int_of_lt_succ firstDay_lt_succ).le_iff_le

/-! ## The month of a day -/

/-- The largest year whose first day is no later: the average year finds it up to one. -/
def yearFromDay (day : ℤ) : ℤ :=
  let near := 1970 + 400 * day / 146097
  if dayFromYear (near + 1) ≤ day then near + 1
  else if dayFromYear near ≤ day then near
  else near - 1

/-- Years begin within two days of where years of the average length would. -/
theorem dayFromYear_near (year : ℤ) :
    400 * dayFromYear year ≤ 146097 * (year - 1970) + 600 ∧
      146097 * (year - 1970) - 600 ≤ 400 * dayFromYear year := by
  rw [dayFromYear]
  omega

theorem yearFromDay_spec (day : ℤ) :
    dayFromYear (yearFromDay day) ≤ day ∧ day < dayFromYear (yearFromDay day + 1) := by
  have hbelow := (dayFromYear_near (1970 + 400 * day / 146097 - 1)).1
  have habove := (dayFromYear_near (1970 + 400 * day / 146097 + 1 + 1)).2
  simp only [yearFromDay]
  split_ifs with hnext hnear
  · exact ⟨hnext, by omega⟩
  · exact ⟨hnear, not_le.mp hnext⟩
  · rw [sub_add_cancel]
    exact ⟨by omega, not_le.mp hnear⟩

/-- The month within a year: a month is at most 31 days long, so that dividing by 32 finds it up
to one. -/
def monthFromDay (day : ℤ) : ℤ :=
  let year := yearFromDay day
  let near := 12 * year + (day - dayFromYear year) / 32
  if firstDay (near + 1) ≤ day then near + 1 else near

theorem leapDay_bounds (year month : ℤ) : 0 ≤ leapDay year month ∧ leapDay year month ≤ 1 := by
  rw [leapDay]
  split_ifs <;> decide

theorem daysBefore_bounds {month : ℤ} (hlow : 0 ≤ month) (hhigh : month < 12) :
    daysBefore month ≤ 31 * month ∧ 30 * month ≤ daysBefore month + 2 := by
  interval_cases month <;> decide

theorem monthFromDay_spec (day : ℤ) :
    firstDay (monthFromDay day) ≤ day ∧ day < firstDay (monthFromDay day + 1) := by
  obtain ⟨hstart, hend⟩ := yearFromDay_spec day
  simp only [monthFromDay]
  set year := yearFromDay day
  obtain ⟨inYear, hinYear⟩ : ∃ inYear, inYear = (day - dayFromYear year) / 32 := ⟨_, rfl⟩
  rw [← hinYear]
  have hlength := dayFromYear_succ year
  have hhigh : inYear < 12 := by split_ifs at hlength <;> omega
  have hnear : firstDay (12 * year + inYear) ≤ day := by
    have hdays := (daysBefore_bounds (show 0 ≤ inYear by omega) hhigh).1
    rw [firstDay_of_year (by omega) hhigh]
    by_cases hfirst : inYear = 0
    · rw [hfirst, show daysBefore 0 = 0 from rfl,
        show leapDay year 0 = 0 from if_neg fun hleap => absurd hleap.2 (by decide)]
      omega
    · have hleap := (leapDay_bounds year inYear).2
      omega
  have hpast : day < firstDay (12 * year + inYear + 1 + 1) := by
    by_cases hlast : inYear < 10
    · have hdays := (daysBefore_bounds (show 0 ≤ inYear + 2 by omega) (by omega)).2
      have hleap := (leapDay_bounds year (inYear + 2)).1
      rw [show 12 * year + inYear + 1 + 1 = 12 * year + (inYear + 2) by ring,
        firstDay_of_year (by omega) (by omega)]
      omega
    · -- From November on the next year begins within two months.
      refine hend.trans_le ?_
      rw [← firstDay_newYear]
      exact firstDay_le_iff.mpr (by omega)
  split_ifs with hnext
  · exact ⟨hnext, hpast⟩
  · exact ⟨hnear, not_le.mp hnext⟩

/-- A day lies in one month. -/
theorem monthFromDay_eq {day month : ℤ} (hstart : firstDay month ≤ day)
    (hend : day < firstDay (month + 1)) : monthFromDay day = month := by
  obtain ⟨hfound, hnext⟩ := monthFromDay_spec day
  have hlow := firstDay_lt_iff.mp (hstart.trans_lt hnext)
  have hhigh := firstDay_lt_iff.mp (hfound.trans_lt hend)
  omega

/-! ## Adding months -/

/-- The day of the month, which is counted from one. -/
def dayOfMonth (day : ℤ) : ℤ := day - firstDay (monthFromDay day) + 1

/-- The same day of a later month, or as many days into the one after it as that month is short
of. -/
def addMonths (count day : ℤ) : ℤ :=
  firstDay (monthFromDay day + count) + dayOfMonth day - 1

variable {count : ℤ}

theorem dayOfMonth_bounds (day : ℤ) :
    1 ≤ dayOfMonth day ∧ dayOfMonth day ≤ monthLength (monthFromDay day) := by
  obtain ⟨hstart, hend⟩ := monthFromDay_spec day
  rw [dayOfMonth, monthLength]
  omega

/-- The days of a month, by their place in it. -/
theorem monthFromDay_place (month place : ℤ) (hlow : 1 ≤ place)
    (hhigh : place ≤ monthLength month) :
    monthFromDay (firstDay month + place - 1) = month ∧
      dayOfMonth (firstDay month + place - 1) = place := by
  rw [monthLength] at hhigh
  have hmonth : monthFromDay (firstDay month + place - 1) = month :=
    monthFromDay_eq (by omega) (by omega)
  refine ⟨hmonth, ?_⟩
  rw [dayOfMonth, hmonth]
  ring

theorem addMonths_of_fits (count day : ℤ)
    (hfits : dayOfMonth day ≤ monthLength (monthFromDay day + count)) :
    monthFromDay (addMonths count day) = monthFromDay day + count ∧
      dayOfMonth (addMonths count day) = dayOfMonth day :=
  monthFromDay_place _ _ (dayOfMonth_bounds day).1 hfits

/-- A month that is too short leaves at most three days over. -/
theorem addMonths_of_short (count day : ℤ)
    (hshort : monthLength (monthFromDay day + count) < dayOfMonth day) :
    monthFromDay (addMonths count day) = monthFromDay day + count + 1 ∧
      dayOfMonth (addMonths count day) ≤ 3 := by
  have hplace := (dayOfMonth_bounds day).2
  have hlong := (monthLength_bounds (monthFromDay day)).2
  have hlength := (monthLength_bounds (monthFromDay day + count)).1
  have hnext := (monthLength_bounds (monthFromDay day + count + 1)).1
  have hday : addMonths count day = firstDay (monthFromDay day + count + 1) +
      (dayOfMonth day - monthLength (monthFromDay day + count)) - 1 := by
    rw [addMonths, monthLength]
    ring
  obtain ⟨hmonth, hsame⟩ := monthFromDay_place (monthFromDay day + count + 1)
    (dayOfMonth day - monthLength (monthFromDay day + count)) (by omega) (by omega)
  rw [hday]
  exact ⟨hmonth, by omega⟩

theorem addMonths_lt (hcount : 0 < count) (day : ℤ) : day < addMonths count day := by
  obtain ⟨hstart, hend⟩ := monthFromDay_spec day
  have hlater : firstDay (monthFromDay day + 1) ≤ firstDay (monthFromDay day + count) :=
    firstDay_le_iff.mpr (by omega)
  have hplace := (dayOfMonth_bounds day).1
  rw [addMonths]
  omega

/-! ## Adding months again and again -/

/-- Every month on the way has the day. -/
def HasDays (count day : ℤ) (times : ℕ) : Prop :=
  ∀ time ≤ times, dayOfMonth day ≤ monthLength (monthFromDay day + count * time)

/-- The day is kept as long as every month has it; from the first one that has not, the dates
stay one month ahead. -/
theorem addMonths_iterate (count day : ℤ) (times : ℕ) :
    (HasDays count day times ∧
        monthFromDay ((addMonths count)^[times] day) = monthFromDay day + count * times ∧
        dayOfMonth ((addMonths count)^[times] day) = dayOfMonth day) ∨
      (¬HasDays count day times ∧
        monthFromDay ((addMonths count)^[times] day) = monthFromDay day + count * times + 1 ∧
        dayOfMonth ((addMonths count)^[times] day) ≤ 3) := by
  induction times with
  | zero =>
      left
      refine ⟨fun time htime => ?_, by simp, rfl⟩
      obtain rfl : time = 0 := by omega
      simpa using (dayOfMonth_bounds day).2
  | succ times ih =>
      rw [Function.iterate_succ_apply']
      have hmonths : ∀ start : ℤ, start + count * times + count =
          start + count * ((times + 1 : ℕ) : ℤ) := by
        intro start
        push_cast
        ring
      rcases ih with ⟨hall, hmonth, hsame⟩ | ⟨hshort, hmonth, hsame⟩
      · by_cases hfits : dayOfMonth day ≤
            monthLength (monthFromDay day + count * ((times + 1 : ℕ) : ℤ))
        · left
          obtain ⟨hnext, hkept⟩ := addMonths_of_fits count
            ((addMonths count)^[times] day) (by rwa [hmonth, hsame, hmonths])
          refine ⟨fun time htime => ?_, by rw [hnext, hmonth, hmonths], hkept.trans hsame⟩
          rcases htime.lt_or_eq with hless | rfl
          · exact hall time (by omega)
          · exact hfits
        · right
          obtain ⟨hnext, hover⟩ := addMonths_of_short count
            ((addMonths count)^[times] day)
            (by rw [hmonth, hsame, hmonths]; exact not_le.mp hfits)
          exact ⟨fun hall' => hfits (hall' (times + 1) le_rfl),
            by rw [hnext, hmonth, hmonths], hover⟩
      · right
        have hlength := (monthLength_bounds
          (monthFromDay ((addMonths count)^[times] day) + count)).1
        obtain ⟨hnext, hkept⟩ := addMonths_of_fits count
          ((addMonths count)^[times] day) (by omega)
        refine ⟨fun hall => hshort fun time htime => hall time (by omega), ?_, by omega⟩
        rw [hnext, hmonth, ← hmonths]
        ring

/-- So the last date is in its month exactly when all have been. -/
theorem monthFromDay_iterate_iff (count day : ℤ) (times : ℕ) :
    monthFromDay ((addMonths count)^[times] day) = monthFromDay day + count * times ↔
      HasDays count day times := by
  rcases addMonths_iterate count day times with ⟨hall, hmonth, -⟩ | ⟨hshort, hmonth, -⟩
  · exact iff_of_true hmonth hall
  · exact iff_of_false (by omega) hshort

theorem addMonths_iterate_of_hasDays {day : ℤ} {times : ℕ} (hall : HasDays count day times) :
    (addMonths count)^[times] day =
      firstDay (monthFromDay day + count * times) + dayOfMonth day - 1 := by
  rcases addMonths_iterate count day times with ⟨-, hmonth, hsame⟩ | ⟨hshort, -, -⟩
  · rw [← hmonth, ← hsame, dayOfMonth]
    ring
  · exact absurd hall hshort

end StellarSettle.Calendar
