import StellarSettle.Core.FixedWidthTexts
import StellarSettle.Issuers.DividendCycle
import StellarSettle.Pagination.CivilDates

/-!
# Reporting days

A snapshot reports a day of UTC, which is given as a time or by its key.  The days of successive
keys are adjacent intervals, and the keys are ordered as the days.
-/

namespace StellarSettle.ReportingDays

open StellarSettle.Calendar
open StellarSettle.CivilDates
open StellarSettle.DecimalTexts (AllDigits)
open StellarSettle.DividendCycle (TimeValue makeDate makeDay msPerDay timeClip)
open StellarSettle.FixedWidthTexts
open StellarSettle.QueryPagination (civilDate padded toISOString yearText)

/-! ## The code -/

/-- Years of one or two digits are years of the twentieth century. -/
def fullYear (year : ℤ) : ℤ := if 0 ≤ year ∧ year ≤ 99 then 1900 + year else year

/-- `new Date(Date.UTC(year, month, date, 0, 0, 0, 0))`, or `none` for an invalid date. -/
def dateUTC (year month date : ℤ) : Option TimeValue :=
  timeClip (makeDate (makeDay (fullYear year) month date) 0)

def getPreviousUtcDay (referenceTime : TimeValue) : Option TimeValue :=
  dateUTC referenceTime.getUTCFullYear referenceTime.getUTCMonth (referenceTime.getUTCDate - 1)

/-- `date.toISOString().slice(0, 10)`. -/
def dateKey (time : TimeValue) : String := String.ofList ((toISOString time.ms).toList.take 10)

inductive TargetDate where
  | date (time : TimeValue)
  | text (text : String)
  deriving DecidableEq

structure ReportingDay where
  dayStart : TimeValue
  dayEnd : TimeValue
  snapshotDate : String
  deriving DecidableEq

/-- `parseInt(digits, 10)`. -/
def parseDigits (digits : List Char) : ℤ := Nat.ofDigitChars 10 digits 0

/-- The match of `/^(\d{4})-(\d{2})-(\d{2})/`, as a year, a month from zero and a day. -/
def readDate (text : List Char) : Option (ℤ × ℤ × ℤ) :=
  let year := text.take 4
  let month := (text.drop 5).take 2
  let day := (text.drop 8).take 2
  if text.length ≥ 10 ∧ (year ++ month ++ day).all Char.isDigit ∧
      text[4]? = some '-' ∧ text[7]? = some '-' then
    some (parseDigits year, parseDigits month - 1, parseDigits day)
  else none

def dateNumbers (time : TimeValue) : ℤ × ℤ × ℤ :=
  (time.getUTCFullYear, time.getUTCMonth, time.getUTCDate)

/-- The numbers of the target.  Other texts are left to `parseDate`, which is `new Date(text)`. -/
def targetNumbers (parseDate : String → Option TimeValue) : TargetDate → Option (ℤ × ℤ × ℤ)
  | .date time => some (dateNumbers time)
  | .text text => (readDate text.toList).or ((parseDate text).map dateNumbers)

/-- An invalid date throws where it is printed. -/
def getUtcReportingDayBounds (parseDate : String → Option TimeValue) (target : TargetDate) :
    Option ReportingDay := do
  let (year, month, day) ← targetNumbers parseDate target
  let dayStart ← dateUTC year month day
  let dayEnd ← dateUTC year month (day + 1)
  return ⟨dayStart, dayEnd, dateKey dayStart⟩

/-! ## Days -/

/-- The years that are written with four digits and read as they are written. -/
def InYears (day : ℤ) : Prop := firstDay 1200 ≤ day ∧ day < firstDay 120000

instance (day : ℤ) : Decidable (InYears day) := inferInstanceAs (Decidable (_ ∧ _))

theorem yearFromDay_lt_iff {day year : ℤ} :
    yearFromDay day < year ↔ day < firstDay (12 * year) := by
  obtain ⟨hstart, hend⟩ := monthFromDay_spec day
  rw [yearFromDay_eq]
  constructor
  · intro hyear
    exact hend.trans_le (firstDay_le_iff.mpr (by omega))
  · intro hday
    have hmonth := firstDay_lt_iff.mp (hstart.trans_lt hday)
    omega

theorem inYears_iff {day : ℤ} : InYears day ↔ 100 ≤ yearFromDay day ∧ yearFromDay day ≤ 9999 := by
  have hfirst : yearFromDay day < 100 ↔ day < firstDay 1200 := yearFromDay_lt_iff
  have hlast : yearFromDay day < 10000 ↔ day < firstDay 120000 := yearFromDay_lt_iff
  rw [InYears, ← hlast, ← not_lt, ← hfirst]
  omega

theorem exists_start {day : ℤ} (hlow : firstDay 1200 - 1 ≤ day) (hhigh : day ≤ firstDay 120000) :
    ∃ start : TimeValue, timeClip (makeDate day 0) = some start ∧ start.ms = day * msPerDay := by
  have hfirst : firstDay 1200 = -683003 := by decide
  have hlast : firstDay 120000 = 2932897 := by decide
  have hrange : |makeDate day 0| ≤ 100000000 * msPerDay := by
    rw [makeDate, abs_le, msPerDay]
    omega
  exact ⟨⟨_, hrange⟩, dif_pos hrange, add_zero _⟩

/-- A date that is moved from a day by its number in the month is the moved day. -/
theorem dateUTC_of_day {day : ℤ} (hyears : InYears day) (shift : ℤ) :
    dateUTC (yearFromDay day) (monthFromDay day - 12 * yearFromDay day) (dayOfMonth day + shift) =
      timeClip (makeDate (day + shift) 0) := by
  have hyear := (inYears_iff.mp hyears).1
  have hday : makeDay (yearFromDay day) (monthFromDay day - 12 * yearFromDay day)
      (dayOfMonth day + shift) = day + shift := by
    rw [makeDay, dayOfMonth, add_sub_cancel]
    ring
  rw [dateUTC, fullYear, if_neg (by omega), hday]

theorem exists_dateUTC {time : TimeValue} (hyears : InYears time.day) {shift : ℤ}
    (hshift : -1 ≤ shift ∧ shift ≤ 1) :
    ∃ start : TimeValue, dateUTC time.getUTCFullYear time.getUTCMonth
        (time.getUTCDate + shift) = some start ∧ start.ms = (time.day + shift) * msPerDay := by
  obtain ⟨hlow, hhigh⟩ := hyears
  have hlow' : firstDay 1200 - 1 ≤ time.day + shift := by omega
  obtain ⟨start, hstart, hms⟩ := exists_start hlow' (by omega)
  exact ⟨start, (dateUTC_of_day ⟨hlow, hhigh⟩ shift).trans hstart, hms⟩

theorem day_of_start {start : TimeValue} {day : ℤ} (hms : start.ms = day * msPerDay) :
    start.day = day := by
  rw [TimeValue.day, hms, msPerDay]
  omega

/-! ## Keys -/

/-- Year, month and day with their digits. -/
def keyText (year month date : ℕ) : List Char :=
  fixedWidth 4 year ++ '-' :: (fixedWidth 2 month ++ '-' :: fixedWidth 2 date)

/-- The numbers of a date that are printed. -/
structure Printed (year month date : ℕ) : Prop where
  year : year < 10 ^ 4
  month : month < 10 ^ 2
  date : date < 10 ^ 2

section Texts

variable {year month date otherYear otherMonth otherDate : ℕ}

theorem length_keyText (hprinted : Printed year month date) :
    (keyText year month date).length = 10 := by
  simp only [keyText, List.length_append, List.length_cons,
    length_fixedWidth (by decide : 0 < 4) hprinted.year,
    length_fixedWidth (by decide : 0 < 2) hprinted.month,
    length_fixedWidth (by decide : 0 < 2) hprinted.date]

/-- Keys are ordered by year, month and day. -/
theorem keyText_lt_iff (hprinted : Printed year month date)
    (hother : Printed otherYear otherMonth otherDate) :
    keyText year month date < keyText otherYear otherMonth otherDate ↔
      year < otherYear ∨ year = otherYear ∧
        (month < otherMonth ∨ month = otherMonth ∧ date < otherDate) := by
  have hfour : 0 < 4 := by decide
  have htwo : 0 < 2 := by decide
  have hyears := (length_fixedWidth hfour hprinted.year).trans
    (length_fixedWidth hfour hother.year).symm
  have hmonths := (length_fixedWidth htwo hprinted.month).trans
    (length_fixedWidth htwo hother.month).symm
  have hyear : fixedWidth 4 year = fixedWidth 4 otherYear ↔ year = otherYear :=
    ⟨fixedWidth_injective, congrArg _⟩
  have hmonth : fixedWidth 2 month = fixedWidth 2 otherMonth ↔ month = otherMonth :=
    ⟨fixedWidth_injective, congrArg _⟩
  rw [keyText, keyText, append_lt_append_iff hyears, List.cons_lt_cons_self,
    append_lt_append_iff hmonths, List.cons_lt_cons_self,
    fixedWidth_lt_iff hfour hprinted.year hother.year,
    fixedWidth_lt_iff htwo hprinted.month hother.month,
    fixedWidth_lt_iff htwo hprinted.date hother.date, hyear, hmonth]

/-- A key is read as the numbers it was printed from. -/
theorem readDate_keyText (hprinted : Printed year month date) (rest : List Char) :
    readDate (keyText year month date ++ rest) =
      some ((year : ℤ), (month : ℤ) - 1, (date : ℤ)) := by
  have hyear := length_fixedWidth (by decide : 0 < 4) hprinted.year
  have hmonth := length_fixedWidth (by decide : 0 < 2) hprinted.month
  have hdate := length_fixedWidth (by decide : 0 < 2) hprinted.date
  have hlength : 10 ≤ (keyText year month date ++ rest).length := by
    rw [List.length_append, length_keyText hprinted]
    exact Nat.le_add_right _ _
  have htakeYear : (keyText year month date ++ rest).take 4 = fixedWidth 4 year := by
    rw [keyText, List.append_assoc, List.take_left' hyear]
  have hdropYear : (keyText year month date ++ rest).drop 4 =
      '-' :: (fixedWidth 2 month ++ '-' :: (fixedWidth 2 date ++ rest)) := by
    rw [keyText, List.append_assoc, List.drop_left' hyear]
    simp
  have hdropDash : (keyText year month date ++ rest).drop 5 =
      fixedWidth 2 month ++ '-' :: (fixedWidth 2 date ++ rest) := by
    rw [← List.drop_drop (i := 1) (j := 4), hdropYear, List.drop_one, List.tail_cons]
  have hdropMonth : (keyText year month date ++ rest).drop 7 =
      '-' :: (fixedWidth 2 date ++ rest) := by
    rw [← List.drop_drop (i := 2) (j := 5), hdropDash, List.drop_left' hmonth]
  have hdropDate : (keyText year month date ++ rest).drop 8 = fixedWidth 2 date ++ rest := by
    rw [← List.drop_drop (i := 1) (j := 7), hdropMonth, List.drop_one, List.tail_cons]
  have hfirstDash : (keyText year month date ++ rest)[4]? = some '-' := by
    rw [← List.head?_drop, hdropYear, List.head?_cons]
  have hsecondDash : (keyText year month date ++ rest)[7]? = some '-' := by
    rw [← List.head?_drop, hdropMonth, List.head?_cons]
  have hdigits : (fixedWidth 4 year ++ fixedWidth 2 month ++ fixedWidth 2 date).all
      Char.isDigit = true :=
    List.all_eq_true.mpr (((allDigits_fixedWidth _ _).append (allDigits_fixedWidth _ _)).append
      (allDigits_fixedWidth _ _))
  simp only [readDate, htakeYear, hdropDash, hdropDate, List.take_left' hmonth,
    List.take_left' hdate, parseDigits, ofDigitChars_fixedWidth]
  rw [if_pos ⟨hlength, hdigits, hfirstDash, hsecondDash⟩]

end Texts

/-- The key of a day. -/
def keyOfDay (day : ℤ) : List Char :=
  keyText (yearFromDay day).toNat (monthFromDay day - 12 * yearFromDay day + 1).toNat
    (dayOfMonth day).toNat

theorem month_bounds (day : ℤ) :
    0 ≤ monthFromDay day - 12 * yearFromDay day ∧
      monthFromDay day - 12 * yearFromDay day < 12 := by
  rw [yearFromDay_eq]
  omega

theorem date_bounds (day : ℤ) : 1 ≤ dayOfMonth day ∧ dayOfMonth day ≤ 31 := by
  obtain ⟨hlow, hhigh⟩ := dayOfMonth_bounds day
  exact ⟨hlow, hhigh.trans (monthLength_bounds _).2⟩

theorem printed_of_year {day : ℤ} (hyear : yearFromDay day ≤ 9999) :
    Printed (yearFromDay day).toNat (monthFromDay day - 12 * yearFromDay day + 1).toNat
      (dayOfMonth day).toNat := by
  have hmonth := month_bounds day
  have hdate := date_bounds day
  exact ⟨by omega, by omega, by omega⟩

theorem padded_eq (width : ℕ) {value : ℤ} (hvalue : 0 ≤ value) :
    (padded width value).toList = fixedWidth width value.toNat := by
  rw [padded, String.toList_ofList, fixedWidth, ← Int.toNat_of_nonneg hvalue]
  rfl

/-- A printed time begins with its date. -/
theorem date_prefix_toISOString (time : TimeValue) :
    (yearText (yearFromDay time.day)).toList ++ '-' ::
      (fixedWidth 2 (monthFromDay time.day - 12 * yearFromDay time.day + 1).toNat ++ '-' ::
        fixedWidth 2 (dayOfMonth time.day).toNat) <+: (toISOString time.ms).toList := by
  have hmonth := month_bounds time.day
  have hdate := date_bounds time.day
  have hday : time.ms / 86400000 = time.day := rfl
  have hdash (rest : List Char) : "-".toList ++ rest = '-' :: rest := rfl
  rw [← padded_eq 2 (by omega), ← padded_eq 2 (by omega)]
  simp only [toISOString, hday, civilDate_eq, String.toList_append, List.append_assoc]
  rw [hdash, hdash, List.prefix_append_right_inj, List.prefix_cons_inj,
    List.prefix_append_right_inj, List.prefix_cons_inj]
  exact List.prefix_append _ _

/-- Up to the year 9999 the key is the key of the day. -/
theorem dateKey_eq {time : TimeValue} (hlow : 0 ≤ yearFromDay time.day)
    (hhigh : yearFromDay time.day ≤ 9999) : (dateKey time).toList = keyOfDay time.day := by
  obtain ⟨rest, hrest⟩ := date_prefix_toISOString time
  rw [yearText, if_pos ⟨hlow, hhigh⟩, padded_eq 4 hlow] at hrest
  rw [dateKey, String.toList_ofList, ← hrest]
  exact List.take_left' (length_keyText (printed_of_year hhigh))

/-- The other keys do not start with a digit. -/
theorem head_dateKey {time : TimeValue}
    (hyear : ¬(0 ≤ yearFromDay time.day ∧ yearFromDay time.day ≤ 9999)) :
    ∃ sign rest, (dateKey time).toList = sign :: rest ∧ sign.isDigit = false := by
  obtain ⟨rest, hrest⟩ := date_prefix_toISOString time
  rw [yearText, if_neg hyear, String.toList_append] at hrest
  rw [dateKey, String.toList_ofList, ← hrest]
  split
  · exact ⟨'-', _, rfl, by decide⟩
  · exact ⟨'+', _, rfl, by decide⟩

/-- The keys are ordered as the days. -/
theorem keyOfDay_lt_iff {day other : ℤ} (hlow : 0 ≤ yearFromDay day)
    (hhigh : yearFromDay day ≤ 9999) (hotherLow : 0 ≤ yearFromDay other)
    (hotherHigh : yearFromDay other ≤ 9999) : keyOfDay day < keyOfDay other ↔ day < other := by
  obtain ⟨hstart, hend⟩ := monthFromDay_spec day
  obtain ⟨hotherStart, hotherEnd⟩ := monthFromDay_spec other
  have hmonth := month_bounds day
  have hotherMonth := month_bounds other
  have hdate := date_bounds day
  have hotherDate := date_bounds other
  have hmonths : day < other ↔ monthFromDay day < monthFromDay other ∨
      monthFromDay day = monthFromDay other ∧ dayOfMonth day < dayOfMonth other := by
    rcases lt_trichotomy (monthFromDay day) (monthFromDay other) with hlt | hsame | hgt
    · have hbefore := firstDay_le_iff.mpr (show monthFromDay day + 1 ≤ monthFromDay other by omega)
      exact iff_of_true (by omega) (.inl hlt)
    · rw [dayOfMonth, dayOfMonth, hsame]
      omega
    · have hafter := firstDay_le_iff.mpr (show monthFromDay other + 1 ≤ monthFromDay day by omega)
      exact iff_of_false (by omega) (by omega)
  rw [keyOfDay, keyOfDay, keyText_lt_iff (printed_of_year hhigh) (printed_of_year hotherHigh),
    hmonths]
  omega

/-- Times have one key where they are of one day. -/
theorem dateKey_eq_iff {time other : TimeValue} (hyears : InYears time.day) :
    dateKey other = dateKey time ↔ other.day = time.day := by
  obtain ⟨hlow, hhigh⟩ := inYears_iff.mp hyears
  rw [String.ext_iff, dateKey_eq (by omega) hhigh]
  by_cases hyear : 0 ≤ yearFromDay other.day ∧ yearFromDay other.day ≤ 9999
  · rw [dateKey_eq hyear.1 hyear.2]
    constructor
    · intro hsame
      rcases lt_trichotomy other.day time.day with hlt | heq | hgt
      · have hkeys := (keyOfDay_lt_iff hyear.1 hyear.2 (by omega) hhigh).mpr hlt
        exact absurd hkeys (hsame ▸ List.lt_irrefl _)
      · exact heq
      · have hkeys := (keyOfDay_lt_iff (by omega) hhigh hyear.1 hyear.2).mpr hgt
        exact absurd hkeys (hsame ▸ List.lt_irrefl _)
    · intro hsame
      rw [hsame]
  · refine iff_of_false (fun hsame => ?_) fun hsame => hyear (hsame ▸ ⟨by omega, hhigh⟩)
    obtain ⟨sign, rest, hkey, hdigit⟩ := head_dateKey hyear
    rw [hkey, keyOfDay, keyText] at hsame
    have hfirst : sign ∈ fixedWidth 4 (yearFromDay time.day).toNat := by
      have hlength := length_fixedWidth (by decide : 0 < 4) (printed_of_year hhigh).year
      cases hdigits : fixedWidth 4 (yearFromDay time.day).toNat with
      | nil =>
          rw [hdigits] at hlength
          cases hlength
      | cons first others =>
          rw [hdigits, List.cons_append, List.cons.injEq] at hsame
          exact hsame.1 ▸ List.mem_cons_self
    rw [allDigits_fixedWidth _ _ sign hfirst] at hdigit
    cases hdigit

theorem dateKey_lt_iff {time other : TimeValue} (hyears : InYears time.day)
    (hother : InYears other.day) : dateKey time < dateKey other ↔ time.day < other.day := by
  obtain ⟨hlow, hhigh⟩ := inYears_iff.mp hyears
  obtain ⟨hotherLow, hotherHigh⟩ := inYears_iff.mp hother
  rw [String.lt_iff, dateKey_eq (by omega) hhigh, dateKey_eq (by omega) hotherHigh]
  exact keyOfDay_lt_iff (by omega) hhigh (by omega) hotherHigh

/-! ## The reported day -/

/-- The day of a time or of its key: its key and its interval. -/
structure ReportsDay (reported : ReportingDay) (day : ℤ) : Prop where
  dayStart : reported.dayStart.ms = day * msPerDay
  dayEnd : reported.dayEnd.ms = (day + 1) * msPerDay
  snapshotDate : reported.snapshotDate = dateKey reported.dayStart

theorem ReportsDay.eq {reported other : ReportingDay} {day : ℤ}
    (hreported : ReportsDay reported day) (hother : ReportsDay other day) :
    reported = other := by
  have hstart : reported.dayStart = other.dayStart :=
    TimeValue.ext (hreported.dayStart.trans hother.dayStart.symm)
  have hend : reported.dayEnd = other.dayEnd :=
    TimeValue.ext (hreported.dayEnd.trans hother.dayEnd.symm)
  have hkey : reported.snapshotDate = other.snapshotDate :=
    hreported.snapshotDate.trans ((congrArg dateKey hstart).trans hother.snapshotDate.symm)
  cases reported
  cases other
  simp only [ReportingDay.mk.injEq]
  exact ⟨hstart, hend, hkey⟩

section Bounds

variable (parseDate : String → Option TimeValue)

/-- The target with the numbers of a day reports the day. -/
theorem exists_reportingDay {target : TargetDate} {time : TimeValue} (hyears : InYears time.day)
    (hnumbers : targetNumbers parseDate target = some (dateNumbers time)) :
    ∃ reported, getUtcReportingDayBounds parseDate target = some reported ∧
      ReportsDay reported time.day := by
  have hsame : (-1 : ℤ) ≤ 0 ∧ (0 : ℤ) ≤ 1 := by decide
  have hnext : (-1 : ℤ) ≤ 1 ∧ (1 : ℤ) ≤ 1 := by decide
  obtain ⟨dayStart, hdayStart, hstartMs⟩ := exists_dateUTC hyears hsame
  obtain ⟨dayEnd, hdayEnd, hendMs⟩ := exists_dateUTC hyears hnext
  rw [add_zero] at hdayStart hstartMs
  refine ⟨⟨dayStart, dayEnd, dateKey dayStart⟩, ?_, hstartMs, hendMs, rfl⟩
  rw [getUtcReportingDayBounds, hnumbers]
  simp only [dateNumbers, Option.bind_eq_bind, Option.bind_some, hdayStart, hdayEnd,
    Option.pure_def]

/-- A key is read as the numbers of its day. -/
theorem targetNumbers_dateKey {time : TimeValue} (hyears : InYears time.day) :
    targetNumbers parseDate (.text (dateKey time)) = some (dateNumbers time) := by
  obtain ⟨hlow, hhigh⟩ := inYears_iff.mp hyears
  have hmonth := month_bounds time.day
  have hdate := date_bounds time.day
  have hread := readDate_keyText (printed_of_year hhigh) []
  rw [List.append_nil] at hread
  rw [targetNumbers, dateKey_eq (by omega) hhigh, keyOfDay, hread, Option.some_or]
  simp only [dateNumbers, TimeValue.getUTCFullYear, TimeValue.getUTCMonth, TimeValue.getUTCDate,
    TimeValue.calendarMonth]
  congr 2
  · omega
  · rw [Prod.mk.injEq]
    omega

/-- The key that is reported stands for the same day, its interval holds the times with the key,
later keys are of times behind the interval, and the previous day ends where it starts. -/
theorem reportingDays {time : TimeValue}
    (hyears : 100 ≤ time.getUTCFullYear ∧ time.getUTCFullYear ≤ 9999) :
    ∃ reported, getUtcReportingDayBounds parseDate (.date time) = some reported ∧
      getUtcReportingDayBounds parseDate (.text reported.snapshotDate) = some reported ∧
      (∀ other : TimeValue, reported.dayStart.ms ≤ other.ms ∧ other.ms < reported.dayEnd.ms ↔
        dateKey other = reported.snapshotDate) ∧
      (∀ other : TimeValue, 100 ≤ other.getUTCFullYear ∧ other.getUTCFullYear ≤ 9999 →
        (reported.snapshotDate < dateKey other ↔ reported.dayEnd.ms ≤ other.ms)) ∧
      ∃ previous, getPreviousUtcDay time = some previous ∧
        (100 ≤ previous.getUTCFullYear → ∃ before,
          getUtcReportingDayBounds parseDate (.date previous) = some before ∧
            before.dayEnd = reported.dayStart) := by
  have hday : InYears time.day := inYears_iff.mpr hyears
  have hnumbers : targetNumbers parseDate (.date time) = some (dateNumbers time) := rfl
  obtain ⟨reported, hreported, hreports⟩ := exists_reportingDay parseDate hday hnumbers
  have hstartDay : reported.dayStart.day = time.day := day_of_start hreports.dayStart
  have hstartYears : InYears reported.dayStart.day := hstartDay ▸ hday
  refine ⟨reported, hreported, ?_, fun other => ?_, fun other hother => ?_, ?_⟩
  · obtain ⟨again, hagain, hsame⟩ :=
      exists_reportingDay parseDate hstartYears (targetNumbers_dateKey parseDate hstartYears)
    rw [hstartDay] at hsame
    rw [hreports.snapshotDate, hagain, hsame.eq hreports]
  · have hotherDay : other.day = other.ms / 86400000 := rfl
    rw [hreports.snapshotDate, dateKey_eq_iff hstartYears, hstartDay, hreports.dayStart,
      hreports.dayEnd, msPerDay]
    omega
  · have hotherDay : other.day = other.ms / 86400000 := rfl
    rw [hreports.snapshotDate, dateKey_lt_iff hstartYears (inYears_iff.mpr hother), hstartDay,
      hreports.dayEnd, msPerDay]
    omega
  · have hback : (-1 : ℤ) ≤ -1 ∧ (-1 : ℤ) ≤ 1 := by decide
    obtain ⟨previous, hprevious, hpreviousMs⟩ := exists_dateUTC hday hback
    refine ⟨previous, hprevious, fun hcentury => ?_⟩
    have hpreviousDay : previous.day = time.day - 1 := day_of_start hpreviousMs
    have hpreviousYears : InYears previous.day := by
      have hlast : previous.day < firstDay (12 * 10000) := by
        rw [hpreviousDay]
        exact (sub_one_lt _).trans hday.2
      exact inYears_iff.mpr ⟨hcentury, Int.lt_add_one_iff.mp (yearFromDay_lt_iff.mpr hlast)⟩
    have hpreviousNumbers : targetNumbers parseDate (.date previous) =
      some (dateNumbers previous) := rfl
    obtain ⟨before, hbefore, hends⟩ :=
      exists_reportingDay parseDate hpreviousYears hpreviousNumbers
    refine ⟨before, hbefore, TimeValue.ext ?_⟩
    rw [hends.dayEnd, hpreviousDay, sub_add_cancel, hreports.dayStart]

end Bounds

/-- The last millisecond of a leap day. -/
theorem reportingDays_leapDay :
    ∃ time : TimeValue, time.ms = 1709251199999 ∧ ∃ reported,
      getUtcReportingDayBounds (fun _ => none) (.date time) = some reported ∧
        getUtcReportingDayBounds (fun _ => none) (.text reported.snapshotDate) = some reported := by
  have hrange : |(1709251199999 : ℤ)| ≤ 100000000 * msPerDay := by
    rw [msPerDay]
    norm_num
  have hyears : 100 ≤ (TimeValue.mk _ hrange).getUTCFullYear ∧
      (TimeValue.mk _ hrange).getUTCFullYear ≤ 9999 := by
    change 100 ≤ yearFromDay (1709251199999 / 86400000) ∧
      yearFromDay (1709251199999 / 86400000) ≤ 9999
    decide
  obtain ⟨reported, hreported, hkey, _⟩ := reportingDays (fun _ => none) hyears
  exact ⟨_, rfl, reported, hreported, hkey⟩

end StellarSettle.ReportingDays
