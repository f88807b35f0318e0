import StellarSettle.Analytics.Snapshots

/-!
# Catching up

A catch-up captures, the oldest first, the last days that have no snapshot and for which an attempt
does not fail.  What it stores of these days adds up, and every other row stays as it is.
-/

namespace StellarSettle.CatchUp

open StellarSettle.Calendar
open StellarSettle.DividendCycle (TimeValue msPerDay)
open StellarSettle.Entities (Timestamp)
open StellarSettle.KeyedRows
open StellarSettle.OrderedRows
open StellarSettle.ReportingDays
open StellarSettle.Snapshots

/-! ## Sums over intervals -/

/-- What was funded up to the end of an interval is what was funded before it and in it. -/
theorem fundingVolume_split (investments : List Investment) {dayStart dayEnd : Timestamp}
    (horder : dayStart ≤ dayEnd) :
    fundingVolume investments (fun madeAt => madeAt < dayEnd) =
      fundingVolume investments (fun madeAt => madeAt < dayStart) +
        fundingVolume investments fun madeAt => dayStart ≤ madeAt && madeAt < dayEnd := by
  induction investments with
  | nil => rfl
  | cons investment rest ih =>
      unfold fundingVolume at ih ⊢
      simp only [List.filter_cons]
      by_cases hfunded : isFundedInvestmentStatus investment.status = true
      · by_cases hbefore : investment.createdAt < dayStart
        · have hend : investment.createdAt < dayEnd := hbefore.trans_le horder
          simp [hfunded, hbefore, hend, not_le.mpr hbefore, ih, add_assoc]
        · by_cases hend : investment.createdAt < dayEnd
          · simp [hfunded, hbefore, hend, not_lt.mp hbefore, ih]
            ring
          · simp [hfunded, hbefore, hend, ih]
      · simp [hfunded, ih]

theorem cumulative_readMetrics (sources : Sources) {earlier dayStart dayEnd : Timestamp}
    (horder : dayStart ≤ dayEnd) :
    (readMetrics sources dayStart dayEnd).cumulativeFundingVolume =
      (readMetrics sources earlier dayStart).cumulativeFundingVolume +
        (readMetrics sources dayStart dayEnd).dailyFundingVolume :=
  fundingVolume_split sources.investments horder

/-! ## One job -/

theorem runAttempts_eq (capture : List AnalyticsSnapshot) (fails : ℕ → Bool)
    (attempt remaining : ℕ) :
    runAttempts capture fails attempt remaining =
      if (List.range' attempt remaining).any (fun tried => ! fails tried) then some capture
      else none := by
  induction remaining generalizing attempt with
  | zero => rfl
  | succ remaining ih =>
      rw [runAttempts, List.range'_succ, List.any_cons, ih]
      cases hfails : fails attempt with
      | true => rw [if_pos rfl, Bool.not_true, Bool.false_or]
      | false => rfl

/-- One of the attempts at a date does not fail. -/
def captures (options : CatchUpOptions) (fails : String → ℕ → Bool) (key : String) : Bool :=
  (List.range' 1 (options.maxRetries + 1)).any fun attempt => ! fails key attempt

theorem snapshotDate_snapshotRow (rows : List AnalyticsSnapshot) (snapshotDate : String)
    (metrics : Metrics) (now : Timestamp) :
    (snapshotRow rows snapshotDate metrics now).snapshotDate = snapshotDate := by
  unfold snapshotRow
  split
  · rename_i existing hfound
    exact (mem_of_findRow hfound).2
  · rfl

theorem metrics_snapshotRow (rows : List AnalyticsSnapshot) (snapshotDate : String)
    (metrics : Metrics) (now : Timestamp) :
    (snapshotRow rows snapshotDate metrics now).metrics = metrics := by
  unfold snapshotRow
  split <;> rfl

section Captures

variable {sources : Sources} {rows : List AnalyticsSnapshot} {day : ReportingDay} {now : Timestamp}

theorem findSnapshot_capture :
    ∃ row, findSnapshot (captureSnapshot sources rows day now) day.snapshotDate = some row ∧
      row.metrics = readMetrics sources day.dayStart.ms day.dayEnd.ms := by
  have hsaved : findSnapshot (captureSnapshot sources rows day now)
      (snapshotRow rows day.snapshotDate _ now).snapshotDate = some _ := findRow_saveRow_self
  rw [snapshotDate_snapshotRow] at hsaved
  exact ⟨_, hsaved, metrics_snapshotRow _ _ _ _⟩

theorem findSnapshot_capture_other {key : String} (hother : key ≠ day.snapshotDate) :
    findSnapshot (captureSnapshot sources rows day now) key = findSnapshot rows key := by
  apply findRow_saveRow_other
  rwa [snapshotDate_snapshotRow]

theorem nodup_capture (hkeys : (rows.map AnalyticsSnapshot.snapshotDate).Nodup) :
    ((captureSnapshot sources rows day now).map AnalyticsSnapshot.snapshotDate).Nodup :=
  nodup_saveRow hkeys

end Captures

/-! ## Days and their keys -/

/-- The key of a day. -/
def keyFor (day : ℤ) : String := String.ofList (keyOfDay day)

theorem dateKey_eq_keyFor {time : TimeValue} (hyears : InYears time.day) :
    dateKey time = keyFor time.day := by
  obtain ⟨hlow, hhigh⟩ := inYears_iff.mp hyears
  rw [String.ext_iff, dateKey_eq (by omega) hhigh, keyFor, String.toList_ofList]

theorem keyFor_lt_iff {day other : ℤ} (hyears : InYears day) (hother : InYears other) :
    keyFor day < keyFor other ↔ day < other := by
  obtain ⟨hlow, hhigh⟩ := inYears_iff.mp hyears
  obtain ⟨hotherLow, hotherHigh⟩ := inYears_iff.mp hother
  rw [String.lt_iff, keyFor, keyFor, String.toList_ofList, String.toList_ofList]
  exact keyOfDay_lt_iff (by omega) hhigh (by omega) hotherHigh

theorem keyFor_injOn {day other : ℤ} (hyears : InYears day) (hother : InYears other)
    (hsame : keyFor day = keyFor other) : day = other := by
  have hbefore := (keyFor_lt_iff hyears hother).not
  have hafter := (keyFor_lt_iff hother hyears).not
  rw [hsame] at hbefore hafter
  have hle := hbefore.mp (String.lt_irrefl _)
  have hge := hafter.mp (String.lt_irrefl _)
  omega

/-- What the job of a key reports. -/
theorem bounds_keyFor (parseDate : String → Option TimeValue) {day : ℤ} (hyears : InYears day) :
    ∃ reported, getUtcReportingDayBounds parseDate (.text (keyFor day)) = some reported ∧
      reported.snapshotDate = keyFor day ∧ reported.dayStart.ms = day * msPerDay ∧
      reported.dayEnd.ms = (day + 1) * msPerDay := by
  obtain ⟨start, -, hms⟩ := exists_start ((sub_one_lt _).le.trans hyears.1) hyears.2.le
  have hday : start.day = day := day_of_start hms
  have hstart : InYears start.day := hday ▸ hyears
  obtain ⟨reported, hreported, hreports⟩ :=
    exists_reportingDay parseDate hstart (targetNumbers_dateKey parseDate hstart)
  have hreportedDay : reported.dayStart.day = day := (day_of_start hreports.dayStart).trans hday
  rw [dateKey_eq_keyFor hstart, hday] at hreported
  refine ⟨reported, hreported, ?_, hday ▸ hreports.dayStart, hday ▸ hreports.dayEnd⟩
  rw [hreports.snapshotDate, dateKey_eq_keyFor (hreportedDay ▸ hyears), hreportedDay]

/-- The key that is checked is the key of the day that is so far back. -/
theorem checkedKey_eq {runTime : TimeValue} (hyears : InYears runTime.day) {daysBack : ℕ}
    (hback : InYears (runTime.day - daysBack)) :
    checkedKey runTime daysBack = some (keyFor (runTime.day - daysBack)) := by
  obtain ⟨start, hstart, hms⟩ := exists_start ((sub_one_lt _).le.trans hback.1) hback.2.le
  have hday : start.day = runTime.day - daysBack := day_of_start hms
  have hdate : dateUTC runTime.getUTCFullYear runTime.getUTCMonth
      (runTime.getUTCDate - daysBack) = some start := by
    rw [sub_eq_add_neg, ← hstart, sub_eq_add_neg]
    exact dateUTC_of_day hyears _
  rw [checkedKey, hdate, Option.map_some, dateKey_eq_keyFor (hday ▸ hback), hday]

/-! ## The days of a catch-up -/

/-- So many days before a day, the oldest first. -/
def lastDays (day : ℤ) (count : ℕ) : List ℤ :=
  (List.range' 1 count).reverse.map fun back : ℕ => day - back

theorem mem_lastDays {day other : ℤ} {count : ℕ} :
    other ∈ lastDays day count ↔ day - count ≤ other ∧ other < day := by
  simp only [lastDays, List.mem_map, List.mem_reverse, List.mem_range'_1]
  constructor
  · rintro ⟨back, hback, rfl⟩
    omega
  · intro hother
    exact ⟨(day - other).toNat, by omega, by omega⟩

theorem lastDays_pairwise (day : ℤ) (count : ℕ) :
    (lastDays day count).Pairwise fun earlier later => earlier < later := by
  rw [lastDays, List.pairwise_map, List.pairwise_reverse]
  have hback : (List.range' 1 count).Pairwise (· < ·) := List.pairwise_lt_range'
  exact hback.imp fun {nearer} {further} horder => by omega

theorem mapM_eq_some {Item Value : Type} {items : List Item} {read : Item → Option Value}
    {value : Item → Value} (hread : ∀ item ∈ items, read item = some (value item)) :
    items.mapM read = some (items.map value) := by
  induction items with
  | nil => rfl
  | cons item rest ih =>
      rw [List.mapM_cons, hread item (List.mem_cons_self ..),
        ih fun other hother => hread other (List.mem_cons_of_mem _ hother)]
      rfl

/-- A run and the days that it checks. -/
structure ChecksDays (options : CatchUpOptions) : Prop where
  runTime : InYears options.runTime.day
  first : firstDay 1200 ≤ options.runTime.day - (max 1 options.maxCatchUpDays : ℕ)

/-- The days that are checked, the oldest first. -/
def checkedDays (options : CatchUpOptions) : List ℤ :=
  lastDays options.runTime.day (max 1 options.maxCatchUpDays)

theorem ChecksDays.inYears {options : CatchUpOptions} (hchecks : ChecksDays options) {day : ℤ}
    (hday : day ∈ checkedDays options) : InYears day := by
  obtain ⟨hlow, hhigh⟩ := mem_lastDays.mp hday
  exact ⟨hchecks.first.trans hlow, hhigh.trans hchecks.runTime.2⟩

/-- A day without a snapshot. -/
def isMissing (rows : List AnalyticsSnapshot) (day : ℤ) : Bool :=
  (findSnapshot rows (keyFor day)).isNone

theorem isLE_compare_of_lt {left right : String} (horder : left < right) :
    (compare left right).isLE :=
  Ordering.isLE_of_eq_lt (compareOfLessAndEq_eq_lt.mpr horder)

theorem missingDates_eq {options : CatchUpOptions} (hchecks : ChecksDays options)
    (rows : List AnalyticsSnapshot) :
    missingDates rows options =
      some (((checkedDays options).filter (isMissing rows)).map keyFor) := by
  let days := (checkedDays options).filter (isMissing rows)
  have hdays : ∀ day ∈ days, InYears day := fun day hday =>
    hchecks.inYears (List.mem_of_mem_filter hday)
  have hkeys : (List.range' 1 (max 1 options.maxCatchUpDays)).mapM (checkedKey options.runTime) =
      some ((checkedDays options).reverse.map keyFor) := by
    rw [checkedDays, lastDays, ← List.map_reverse, List.reverse_reverse, List.map_map]
    apply mapM_eq_some
    intro back hback
    change checkedKey options.runTime back = some (keyFor (options.runTime.day - back))
    apply checkedKey_eq hchecks.runTime
    apply hchecks.inYears
    rw [checkedDays, lastDays]
    exact List.mem_map.mpr ⟨back, List.mem_reverse.mpr hback, rfl⟩
  have hordered : (days.map keyFor).Pairwise fun first second => (compare first second).isLE := by
    rw [List.pairwise_map]
    apply ((lastDays_pairwise _ _).filter _).imp_of_mem
    intro earlier later hearlier hlater horder
    have hlt := (keyFor_lt_iff (hdays earlier hearlier) (hdays later hlater)).mpr horder
    exact isLE_compare_of_lt hlt
  have hsort : sortRows compare (days.reverse.map keyFor) = days.map keyFor := by
    apply eq_of_sorted _ sortRows_pairwise hordered
    · exact (sortRows_perm _ _).trans ((List.reverse_perm days).map keyFor)
    · intro left hleft right hright hsame
      exact Std.LawfulEqCmp.eq_of_compare hsame
  rw [missingDates, hkeys]
  change some (sortRows compare (((checkedDays options).reverse.map keyFor).filter _)) = _
  rw [List.filter_map, List.filter_reverse]
  change some (sortRows compare (days.reverse.map keyFor)) = some (days.map keyFor)
  rw [hsort]

/-! ## The run of a catch-up -/

section Runs

variable (parseDate : String → Option TimeValue) (sources : Sources) (options : CatchUpOptions)
  (now : Timestamp) (fails : String → ℕ → Bool)

/-- The metrics of a day's own interval are stored under its key. -/
def StoresDay (rows : List AnalyticsSnapshot) (day : ℤ) : Prop :=
  ∃ row, findSnapshot rows (keyFor day) = some row ∧
    row.metrics = readMetrics sources (day * msPerDay) ((day + 1) * msPerDay)

/-- What has become of the rows when some days were tried. -/
structure Tried (rows : List AnalyticsSnapshot) (days : List ℤ) (progress : Progress) : Prop where
  capturedDates : progress.capturedDates =
    (days.filter fun day => captures options fails (keyFor day)).map keyFor
  stored : ∀ day ∈ days, captures options fails (keyFor day) = true →
    StoresDay sources progress.rows day
  others : ∀ key, key ∉ progress.capturedDates →
    findSnapshot progress.rows key = findSnapshot rows key
  keys : (rows.map AnalyticsSnapshot.snapshotDate).Nodup →
    (progress.rows.map AnalyticsSnapshot.snapshotDate).Nodup

/-- The capture of a day in the rows. -/
theorem catchUpDate_eq {day : ℤ} (hyears : InYears day) (progress : Progress) :
    ∃ reported : ReportingDay, reported.snapshotDate = keyFor day ∧
      reported.dayStart.ms = day * msPerDay ∧ reported.dayEnd.ms = (day + 1) * msPerDay ∧
      catchUpDate parseDate sources options now fails progress (keyFor day) =
        if captures options fails (keyFor day) then
          ⟨progress.capturedDates ++ [keyFor day],
            captureSnapshot sources progress.rows reported now⟩
        else progress := by
  obtain ⟨reported, hreported, hkey, hstart, hend⟩ := bounds_keyFor parseDate hyears
  refine ⟨reported, hkey, hstart, hend, ?_⟩
  rw [catchUpDate, hreported, Option.bind_some, runAnalyticsSnapshotJob, runAttempts_eq]
  rw [← captures]
  cases captures options fails (keyFor day) <;> rfl

theorem tried_nil (rows : List AnalyticsSnapshot) :
    Tried sources options fails rows [] ⟨[], rows⟩ where
  capturedDates := rfl
  stored := List.forall_mem_nil _
  others _ _ := rfl
  keys hkeys := hkeys

theorem tried_snoc {rows : List AnalyticsSnapshot} {days : List ℤ} {day : ℤ} {progress : Progress}
    (hdays : ∀ other ∈ days, InYears other) (hyears : InYears day) (hnew : day ∉ days)
    (htried : Tried sources options fails rows days progress) :
    Tried sources options fails rows (days ++ [day])
      (catchUpDate parseDate sources options now fails progress (keyFor day)) := by
  obtain ⟨reported, hkey, hstart, hend, hstep⟩ :=
    catchUpDate_eq parseDate sources options now fails hyears progress
  rw [hstep]
  by_cases hcaptures : captures options fails (keyFor day) = true
  · rw [if_pos hcaptures]
    constructor
    case capturedDates =>
      rw [List.filter_append, List.map_append, htried.capturedDates, List.filter_singleton,
        hcaptures]
      rfl
    case stored =>
      intro other hother hcaptured
      rcases List.mem_append.mp hother with hbefore | hlast
      · have hdifferent : keyFor other ≠ reported.snapshotDate := by
          rw [hkey]
          intro hsame
          exact hnew (keyFor_injOn (hdays other hbefore) hyears hsame ▸ hbefore)
        rw [StoresDay, findSnapshot_capture_other hdifferent]
        exact htried.stored other hbefore hcaptured
      · rw [List.mem_singleton.mp hlast]
        rw [StoresDay, ← hkey, ← hstart, ← hend]
        exact findSnapshot_capture
    case others =>
      intro key hkeyOther
      rw [List.mem_append, not_or, List.mem_singleton] at hkeyOther
      rw [findSnapshot_capture_other (hkey ▸ hkeyOther.2)]
      exact htried.others key hkeyOther.1
    case keys => exact fun hkeys => nodup_capture (htried.keys hkeys)
  · rw [if_neg hcaptures]
    have hskipped : (days ++ [day]).filter (fun day => captures options fails (keyFor day)) =
        days.filter fun day => captures options fails (keyFor day) := by
      rw [List.filter_append, List.filter_singleton, eq_false_of_ne_true hcaptures,
        cond_false, List.append_nil]
    constructor
    case capturedDates => rw [hskipped, htried.capturedDates]
    case stored =>
      intro other hother hcaptured
      rcases List.mem_append.mp hother with hbefore | hlast
      · exact htried.stored other hbefore hcaptured
      · exact absurd (List.mem_singleton.mp hlast ▸ hcaptured) hcaptures
    case others => exact htried.others
    case keys => exact htried.keys

theorem tried_foldl (rows : List AnalyticsSnapshot) {days : List ℤ}
    (hdays : ∀ day ∈ days, InYears day) (hdistinct : days.Nodup) :
    Tried sources options fails rows days
      ((days.map keyFor).foldl (catchUpDate parseDate sources options now fails) ⟨[], rows⟩) := by
  induction days using List.reverseRecOn with
  | nil => exact tried_nil sources options fails rows
  | append_singleton days day ih =>
      have hsplit := List.nodup_append'.mp hdistinct
      rw [List.map_append, List.foldl_append, List.map_singleton, List.foldl_cons, List.foldl_nil]
      apply tried_snoc parseDate sources options now fails
      · exact fun other hother => hdays other (List.mem_append_left _ hother)
      · exact hdays day (List.mem_append_right _ (List.mem_singleton_self day))
      · exact fun hday => hsplit.2.2 hday (List.mem_singleton_self day)
      · exact ih (fun other hother => hdays other (List.mem_append_left _ hother)) hsplit.1

/-- The days that a catch-up captures. -/
def capturedDays (rows : List AnalyticsSnapshot) : List ℤ :=
  ((checkedDays options).filter (isMissing rows)).filter fun day =>
    captures options fails (keyFor day)

/-- What a catch-up leaves missing was missing before, and its attempts fail. -/
theorem missing_of_tried {rows : List AnalyticsSnapshot} {progress : Progress}
    (hchecks : ChecksDays options) (htried : Tried sources options fails rows
      ((checkedDays options).filter (isMissing rows)) progress) :
    (checkedDays options).filter (isMissing progress.rows) =
      ((checkedDays options).filter (isMissing rows)).filter
        (fun day => ! captures options fails (keyFor day)) := by
  rw [List.filter_filter]
  apply List.filter_congr
  intro day hday
  by_cases hcaptured : day ∈ capturedDays options fails rows
  · obtain ⟨hmissing, hcaptures⟩ := List.mem_filter.mp hcaptured
    obtain ⟨row, hrow, -⟩ := htried.stored day hmissing hcaptures
    rw [isMissing, hrow, hcaptures]
    rfl
  · have hkey : keyFor day ∉ progress.capturedDates := by
      rw [htried.capturedDates, List.mem_map]
      rintro ⟨other, hother, hsame⟩
      have hchecked := List.mem_of_mem_filter (List.mem_of_mem_filter hother)
      exact hcaptured
        (keyFor_injOn (hchecks.inYears hchecked) (hchecks.inYears hday) hsame ▸ hother)
    rw [isMissing, htried.others _ hkey, ← isMissing]
    cases hmissing : isMissing rows day
    · rw [Bool.and_false]
    · have hfails : captures options fails (keyFor day) ≠ true := fun hcaptures =>
        hcaptured (List.mem_filter.mpr ⟨List.mem_filter.mpr ⟨hday, hmissing⟩, hcaptures⟩)
      rw [eq_false_of_ne_true hfails]
      rfl

end Runs

end StellarSettle.CatchUp
