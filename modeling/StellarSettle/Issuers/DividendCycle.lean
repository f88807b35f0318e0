import StellarSettle.Core.Calendar
import StellarSettle.Core.KeyedRows
import Mathlib.Algebra.Order.Group.Abs

/-!
# The dividend cycle of an issuer

A cycle has the date of its next distribution, and a distribution moves it on by a week or by
months of the calendar.  Months that lack the day of the date run over into the next one.
-/

namespace StellarSettle.DividendCycle

open StellarSettle.Calendar
open StellarSettle.KeyedRows

/-! ## Dates -/

def msPerDay : ℤ := 86400000

/-- The time values of valid dates: a hundred million days on either side of 1970. -/
@[ext]
structure TimeValue where
  ms : ℤ
  inRange : |ms| ≤ 100000000 * msPerDay
  deriving DecidableEq

/-- A date whose time value is out of range is invalid, which is `none`. -/
def timeClip (ms : ℤ) : Option TimeValue :=
  if hrange : |ms| ≤ 100000000 * msPerDay then some ⟨ms, hrange⟩ else none

namespace TimeValue

def day (time : TimeValue) : ℤ := time.ms / msPerDay

def timeWithinDay (time : TimeValue) : ℤ := time.ms % msPerDay

/-- The month of the calendar, counted from January of the year 0. -/
def calendarMonth (time : TimeValue) : ℤ := monthFromDay time.day

def getUTCFullYear (time : TimeValue) : ℤ := yearFromDay time.day

def getUTCMonth (time : TimeValue) : ℤ := time.calendarMonth - 12 * time.getUTCFullYear

def getUTCDate (time : TimeValue) : ℤ := dayOfMonth time.day

end TimeValue

/-- The day with these numbers; months past the year and dates past the month run over. -/
def makeDay (year month date : ℤ) : ℤ := firstDay (12 * year + month) + date - 1

def makeDate (day timeWithinDay : ℤ) : ℤ := day * msPerDay + timeWithinDay

def setUTCMonth (time : TimeValue) (month : ℤ) : Option TimeValue :=
  timeClip (makeDate (makeDay time.getUTCFullYear month time.getUTCDate) time.timeWithinDay)

def setUTCDate (time : TimeValue) (date : ℤ) : Option TimeValue :=
  timeClip (makeDate (makeDay time.getUTCFullYear time.getUTCMonth date) time.timeWithinDay)

/-! ## The service -/

inductive DividendCycleFrequency where
  | weekly
  | monthly
  | quarterly
  deriving DecidableEq, Repr

def DividendCycleFrequency.text : DividendCycleFrequency → String
  | weekly => "weekly"
  | monthly => "monthly"
  | quarterly => "quarterly"

def frequencies : List DividendCycleFrequency := [.weekly, .monthly, .quarterly]

inductive DistributionTrigger where
  | scheduled
  | manual
  deriving DecidableEq, Repr

structure DividendCycleConfig where
  issuerWallet : String
  frequency : DividendCycleFrequency
  nextDistributionAt : Option TimeValue
  lastDistributionAt : Option TimeValue
  deriving DecidableEq

structure DividendDistribution where
  id : String
  issuerWallet : String
  totalAmount : String
  recipientCount : ℕ
  trigger : DistributionTrigger
  txHash : Option String
  cycleFrequency : Option DividendCycleFrequency
  status : String
  distributedAt : TimeValue
  createdAt : TimeValue
  deriving DecidableEq

/-- What the table adds to a new distribution. -/
structure GeneratedColumns where
  id : String
  createdAt : TimeValue

/-- The two tables; a config's wallet is unique. -/
structure Database where
  configs : List DividendCycleConfig
  distributions : List DividendDistribution

inductive Failure where
  | appError (statusCode : ℕ) (message code : String)
  | queryFailed (message : String)
  deriving DecidableEq, Repr

def findConfig (db : Database) (issuerWallet : String) : Option DividendCycleConfig :=
  findRow DividendCycleConfig.issuerWallet db.configs issuerWallet

def saveConfig (db : Database) (config : DividendCycleConfig) : Database :=
  { db with configs := saveRow DividendCycleConfig.issuerWallet db.configs config }

/-- An invalid date is no timestamp of the database. -/
def invalidTimestamp : Failure :=
  .queryFailed "invalid input syntax for type timestamp with time zone"

def calculateNextDate (fromDate : TimeValue) : DividendCycleFrequency → Option TimeValue
  | .weekly => setUTCDate fromDate (fromDate.getUTCDate + 7)
  | .quarterly => setUTCMonth fromDate (fromDate.getUTCMonth + 3)
  | .monthly => setUTCMonth fromDate (fromDate.getUTCMonth + 1)

/-- The config is returned as it is; a missing one is created with the default cycle. -/
def getCycleConfig (db : Database) (issuerWallet : String) (now : TimeValue) :
    Except Failure DividendCycleConfig × Database :=
  match findConfig db issuerWallet with
  | some config => (.ok config, db)
  | none =>
      match calculateNextDate now .monthly with
      | none => (.error invalidTimestamp, db)
      | some next =>
          let config : DividendCycleConfig :=
            { issuerWallet := issuerWallet
              frequency := .monthly
              nextDistributionAt := some next
              lastDistributionAt := none }
          (.ok config, saveConfig db config)

/-- The frequency comes as a text. -/
def updateCycleFrequency (db : Database) (issuerWallet frequency : String) (now : TimeValue) :
    Except Failure DividendCycleConfig × Database :=
  match frequencies.find? fun known => known.text == frequency with
  | none =>
      (.error (.appError 400
        ("Invalid frequency. Must be one of: " ++
          ", ".intercalate (frequencies.map DividendCycleFrequency.text))
        "INVALID_FREQUENCY"), db)
  | some known =>
      match calculateNextDate now known with
      | none => (.error invalidTimestamp, db)
      | some next =>
          let config : DividendCycleConfig :=
            { issuerWallet := issuerWallet
              frequency := known
              nextDistributionAt := some next
              lastDistributionAt :=
                (findConfig db issuerWallet).bind DividendCycleConfig.lastDistributionAt }
          (.ok config, saveConfig db config)

def forbiddenTrigger : Failure :=
  .appError 403 "Only the issuer wallet may trigger a manual distribution."
    "FORBIDDEN_DISTRIBUTION_TRIGGER"

/-- The distribution is saved before the dates of the config. -/
def triggerManualDistribution (db : Database) (issuerWallet triggerWallet : String)
    (now : TimeValue) (generated : GeneratedColumns) :
    Except Failure DividendDistribution × Database :=
  if triggerWallet ≠ issuerWallet then (.error forbiddenTrigger, db)
  else
    let config := findConfig db issuerWallet
    let distribution : DividendDistribution :=
      { id := generated.id
        issuerWallet := issuerWallet
        totalAmount := "0"
        recipientCount := 0
        trigger := .manual
        txHash := none
        cycleFrequency := some ((config.map DividendCycleConfig.frequency).getD .monthly)
        status := "success"
        distributedAt := now
        createdAt := generated.createdAt }
    let recorded := { db with distributions := db.distributions ++ [distribution] }
    match config with
    | none => (.ok distribution, recorded)
    | some config =>
        match calculateNextDate now config.frequency with
        | none => (.error invalidTimestamp, recorded)
        | some next =>
            (.ok distribution, saveConfig recorded
              { config with lastDistributionAt := some now, nextDistributionAt := some next })

/-! ## One step of the calendar -/

section Steps

variable {start : TimeValue} {frequency : DividendCycleFrequency} {count : ℤ}

/-- The cycles that move by months of the calendar. -/
inductive MovesBy : DividendCycleFrequency → ℤ → Prop where
  | monthly : MovesBy .monthly 1
  | quarterly : MovesBy .quarterly 3

theorem MovesBy.pos (hmoves : MovesBy frequency count) : 0 < count := by
  cases hmoves <;> decide

theorem setUTCMonth_add (time : TimeValue) (count : ℤ) :
    setUTCMonth time (time.getUTCMonth + count) =
      timeClip (makeDate (addMonths count time.day) time.timeWithinDay) := by
  have hmonth : 12 * time.getUTCFullYear + (time.getUTCMonth + count) =
      monthFromDay time.day + count := by
    rw [TimeValue.getUTCMonth, TimeValue.calendarMonth]
    ring
  rw [setUTCMonth, makeDay, hmonth, addMonths, TimeValue.getUTCDate]

theorem calculateNextDate_eq (hmoves : MovesBy frequency count) (time : TimeValue) :
    calculateNextDate time frequency =
      timeClip (makeDate (addMonths count time.day) time.timeWithinDay) := by
  cases hmoves
  · exact setUTCMonth_add time 1
  · exact setUTCMonth_add time 3

theorem timeClip_eq_some {ms : ℤ} {time : TimeValue} :
    timeClip ms = some time ↔ time.ms = ms := by
  rw [timeClip]
  split_ifs with hrange
  · rw [Option.some_inj]
    exact ⟨fun hsame => hsame ▸ rfl, fun hsame => TimeValue.ext hsame.symm⟩
  · exact iff_of_false (by simp) fun hsame => hrange (hsame ▸ time.inRange)

/-- The parts of a time value that is put together from them. -/
theorem day_of_ms {time : TimeValue} {day rest : ℤ} (hms : time.ms = makeDate day rest)
    (hlow : 0 ≤ rest) (hhigh : rest < msPerDay) :
    time.day = day ∧ time.timeWithinDay = rest := by
  rw [msPerDay] at hhigh
  rw [TimeValue.day, TimeValue.timeWithinDay, hms, makeDate, msPerDay]
  omega

theorem timeWithinDay_bounds (time : TimeValue) :
    0 ≤ time.timeWithinDay ∧ time.timeWithinDay < msPerDay := by
  rw [TimeValue.timeWithinDay, msPerDay]
  omega

theorem makeDate_parts (time : TimeValue) : makeDate time.day time.timeWithinDay = time.ms :=
  Int.ediv_mul_add_emod time.ms msPerDay

/-! ## Dates on schedule -/

/-- The dates of distributions that all take place on their dates. -/
def scheduledDate (frequency : DividendCycleFrequency) (start : TimeValue) : ℕ → Option TimeValue
  | 0 => some start
  | times + 1 =>
      (scheduledDate frequency start times).bind fun now => calculateNextDate now frequency

/-- Dates only grow, so that what is out of range stays so. -/
theorem scheduledDate_eq (hmoves : MovesBy frequency count) (start : TimeValue) (times : ℕ) :
    start.day ≤ (addMonths count)^[times] start.day ∧
      scheduledDate frequency start times =
        timeClip (makeDate ((addMonths count)^[times] start.day) start.timeWithinDay) := by
  obtain ⟨hlow, hhigh⟩ := timeWithinDay_bounds start
  induction times with
  | zero => exact ⟨le_rfl, (timeClip_eq_some.mpr (makeDate_parts start).symm).symm⟩
  | succ times ih =>
      obtain ⟨hlater, hdate⟩ := ih
      have hgrows := addMonths_lt hmoves.pos ((addMonths count)^[times] start.day)
      rw [Function.iterate_succ_apply']
      refine ⟨hlater.trans hgrows.le, ?_⟩
      rw [scheduledDate, hdate]
      cases hclip : timeClip (makeDate ((addMonths count)^[times] start.day)
          start.timeWithinDay) with
      | some now =>
          obtain ⟨hday, hrest⟩ := day_of_ms (timeClip_eq_some.mp hclip) hlow hhigh
          rw [Option.bind_some, calculateNextDate_eq hmoves, hday, hrest]
      | none =>
          rw [Option.bind_none, eq_comm, timeClip, dif_neg]
          intro hrange
          have hinRange : |makeDate ((addMonths count)^[times] start.day) start.timeWithinDay| ≤
              100000000 * msPerDay := by
            have hstart := start.inRange
            rw [← makeDate_parts start] at hstart
            rw [makeDate, msPerDay, abs_le] at *
            omega
          rw [timeClip, dif_pos hinRange] at hclip
          cases hclip

/-- Every month on the way has the start's day, and a date can hold the last one. -/
def KeepsDay (start : TimeValue) (count : ℤ) (times : ℕ) : Prop :=
  (∀ time ≤ times, start.getUTCDate ≤ monthLength (start.calendarMonth + count * time)) ∧
    |makeDate (firstDay (start.calendarMonth + count * times) + start.getUTCDate - 1)
      start.timeWithinDay| ≤ 100000000 * msPerDay

theorem scheduledDate_month_iff (hmoves : MovesBy frequency count) (start : TimeValue)
    (times : ℕ) :
    (∃ date, scheduledDate frequency start times = some date ∧
        date.calendarMonth = start.calendarMonth + count * times) ↔
      KeepsDay start count times := by
  obtain ⟨hlow, hhigh⟩ := timeWithinDay_bounds start
  have hmonth := monthFromDay_iterate_iff count start.day times
  rw [(scheduledDate_eq hmoves start times).2]
  constructor
  · rintro ⟨date, hdate, hcalendar⟩
    have hms := timeClip_eq_some.mp hdate
    rw [TimeValue.calendarMonth, (day_of_ms hms hlow hhigh).1] at hcalendar
    have hall := hmonth.mp hcalendar
    have hrange := date.inRange
    rw [hms, addMonths_iterate_of_hasDays hall] at hrange
    exact ⟨hall, hrange⟩
  · rintro ⟨hall, hrange⟩
    rw [addMonths_iterate_of_hasDays hall]
    refine ⟨⟨_, hrange⟩, timeClip_eq_some.mpr rfl, ?_⟩
    rw [TimeValue.calendarMonth, (day_of_ms rfl hlow hhigh).1]
    exact (monthFromDay_place _ _ (dayOfMonth_bounds start.day).1 (hall times le_rfl)).1

/-- Weeks do not see the calendar. -/
theorem calculateNextDate_weekly (time : TimeValue) :
    calculateNextDate time .weekly = timeClip (time.ms + 7 * msPerDay) := by
  have hday : makeDay time.getUTCFullYear time.getUTCMonth (time.getUTCDate + 7) =
      time.day + 7 := by
    have hmonth : 12 * time.getUTCFullYear + time.getUTCMonth = monthFromDay time.day := by
      rw [TimeValue.getUTCMonth, TimeValue.calendarMonth]
      ring
    rw [makeDay, hmonth, TimeValue.getUTCDate, dayOfMonth]
    ring
  rw [calculateNextDate, setUTCDate, hday, ← makeDate_parts time, makeDate, makeDate]
  congr 1
  ring

end Steps

/-! ## Distributions on schedule -/

section Runs

variable {frequency : DividendCycleFrequency} {start now : TimeValue} {count : ℤ}
  {issuerWallet : String} {db created : Database} {config : DividendCycleConfig}

def nextDistributionAt (issuerWallet : String) (db : Database) : Option TimeValue :=
  (findConfig db issuerWallet).bind DividendCycleConfig.nextDistributionAt

/-- The issuer triggers a distribution on the date that is stored for it. -/
def distributeOnSchedule (issuerWallet : String) (generated : GeneratedColumns) (db : Database) :
    Option Database :=
  (nextDistributionAt issuerWallet db).bind fun now =>
    match triggerManualDistribution db issuerWallet issuerWallet now generated with
    | (.ok _, after) => some after
    | (.error _, _) => none

def distributionsOnSchedule (issuerWallet : String) (generated : ℕ → GeneratedColumns)
    (db : Database) : ℕ → Option Database
  | 0 => some db
  | times + 1 =>
      (distributionsOnSchedule issuerWallet generated db times).bind
        (distributeOnSchedule issuerWallet (generated times))

theorem findConfig_saveConfig (db : Database) (config : DividendCycleConfig) :
    findConfig (saveConfig db config) config.issuerWallet = some config :=
  findRow_saveRow_self

theorem wallet_of_findConfig (hconfig : findConfig db issuerWallet = some config) :
    config.issuerWallet = issuerWallet :=
  (mem_of_findRow hconfig).2

/-- A distribution moves the stored date on and leaves the frequency alone. -/
theorem distributeOnSchedule_eq (hconfig : findConfig db issuerWallet = some config)
    (hnow : config.nextDistributionAt = some now) (generated : GeneratedColumns) :
    (calculateNextDate now config.frequency = none ∧
        distributeOnSchedule issuerWallet generated db = none) ∨
      ∃ next after, calculateNextDate now config.frequency = some next ∧
        distributeOnSchedule issuerWallet generated db = some after ∧
        findConfig after issuerWallet =
          some { config with lastDistributionAt := some now, nextDistributionAt := some next } := by
  have hwallet := wallet_of_findConfig hconfig
  have hdate : nextDistributionAt issuerWallet db = some now := by
    rw [nextDistributionAt, hconfig, Option.bind_some, hnow]
  rw [distributeOnSchedule, hdate, Option.bind_some, triggerManualDistribution,
    if_neg (not_not.mpr rfl), hconfig]
  cases hnext : calculateNextDate now config.frequency with
  | none => exact .inl ⟨rfl, by simp only [hnext]⟩
  | some next =>
      refine .inr ⟨next, _, rfl, by simp only [hnext]; rfl, ?_⟩
      rw [← hwallet]
      exact findConfig_saveConfig _
        { config with lastDistributionAt := some now, nextDistributionAt := some next }

/-- The stored date is the scheduled one, as long as there is one. -/
theorem distributionsOnSchedule_spec (hconfig : findConfig db issuerWallet = some config)
    (hnext : config.nextDistributionAt = calculateNextDate start config.frequency)
    (generated : ℕ → GeneratedColumns) (times : ℕ) :
    (distributionsOnSchedule issuerWallet generated db times = none ∧
        scheduledDate config.frequency start (times + 1) = none) ∨
      ∃ after current, distributionsOnSchedule issuerWallet generated db times = some after ∧
        findConfig after issuerWallet = some current ∧ current.frequency = config.frequency ∧
        current.nextDistributionAt = scheduledDate config.frequency start (times + 1) := by
  induction times with
  | zero => exact .inr ⟨db, config, rfl, hconfig, rfl, by rw [hnext]; rfl⟩
  | succ times ih =>
      rw [distributionsOnSchedule, scheduledDate]
      rcases ih with ⟨hrun, hdate⟩ | ⟨before, current, hrun, hcurrent, hfrequency, hdate⟩
      · left
        rw [hrun, hdate]
        exact ⟨rfl, rfl⟩
      rw [hrun, ← hdate, Option.bind_some]
      cases hnow : current.nextDistributionAt with
      | none =>
          left
          rw [distributeOnSchedule, nextDistributionAt, hcurrent, Option.bind_some, hnow]
          exact ⟨rfl, rfl⟩
      | some now =>
          rw [Option.bind_some, ← hfrequency]
          rcases distributeOnSchedule_eq hcurrent hnow (generated times) with
            ⟨hdone, hafter⟩ | ⟨next, after, hdone, hafter, hsaved⟩
          · exact .inl ⟨hafter, hdone⟩
          · exact .inr ⟨after, _, hafter, hsaved, rfl, hdone.symm⟩

theorem nextDistributionAt_eq (hconfig : findConfig db issuerWallet = some config)
    (hnext : config.nextDistributionAt = calculateNextDate start config.frequency)
    (generated : ℕ → GeneratedColumns) (times : ℕ) :
    (distributionsOnSchedule issuerWallet generated db times).bind
        (nextDistributionAt issuerWallet) =
      scheduledDate config.frequency start (times + 1) := by
  rcases distributionsOnSchedule_spec hconfig hnext generated times with
    ⟨hrun, hdate⟩ | ⟨after, current, hrun, hcurrent, -, hdate⟩
  · rw [hrun, hdate, Option.bind_none]
  · rw [hrun, Option.bind_some, nextDistributionAt, hcurrent, Option.bind_some, hdate]

/-! ## Where a schedule begins -/

/-- The stored date was calculated from this start. -/
def BeginsAt (db : Database) (issuerWallet : String) (frequency : DividendCycleFrequency)
    (start : TimeValue) : Prop :=
  ∃ config, findConfig db issuerWallet = some config ∧ config.frequency = frequency ∧
    config.nextDistributionAt = calculateNextDate start frequency

theorem find_frequency (frequency : DividendCycleFrequency) :
    frequencies.find? (fun known => known.text == frequency.text) = some frequency := by
  cases frequency <;> decide

theorem beginsAt_updateCycleFrequency
    (hupdate : updateCycleFrequency db issuerWallet frequency.text start = (.ok config, created)) :
    BeginsAt created issuerWallet frequency start := by
  rw [updateCycleFrequency, find_frequency] at hupdate
  cases hnext : calculateNextDate start frequency with
  | none => simp [hnext] at hupdate
  | some next =>
      simp only [hnext, Prod.mk.injEq, Except.ok.injEq] at hupdate
      obtain ⟨rfl, rfl⟩ := hupdate
      exact ⟨_, findConfig_saveConfig _ _, rfl, hnext.symm⟩

theorem beginsAt_getCycleConfig (hmissing : findConfig db issuerWallet = none)
    (hcreate : getCycleConfig db issuerWallet start = (.ok config, created)) :
    BeginsAt created issuerWallet .monthly start := by
  rw [getCycleConfig, hmissing] at hcreate
  cases hnext : calculateNextDate start .monthly with
  | none => simp [hnext] at hcreate
  | some next =>
      simp only [hnext, Prod.mk.injEq, Except.ok.injEq] at hcreate
      obtain ⟨rfl, rfl⟩ := hcreate
      exact ⟨_, findConfig_saveConfig _ _, rfl, hnext.symm⟩

/-- A distribution on any date begins a schedule of its own. -/
theorem beginsAt_triggerManualDistribution {distribution : DividendDistribution}
    {generated : GeneratedColumns} (hconfig : findConfig db issuerWallet = some config)
    (htrigger : triggerManualDistribution db issuerWallet issuerWallet start generated =
      (.ok distribution, created)) :
    BeginsAt created issuerWallet config.frequency start := by
  rw [triggerManualDistribution, if_neg (not_not.mpr rfl), hconfig] at htrigger
  cases hnext : calculateNextDate start config.frequency with
  | none => simp [hnext] at htrigger
  | some next =>
      simp only [hnext, Prod.mk.injEq] at htrigger
      obtain ⟨-, rfl⟩ := htrigger
      rw [← wallet_of_findConfig hconfig]
      exact ⟨_, findConfig_saveConfig _
        { config with lastDistributionAt := some start, nextDistributionAt := some next },
        rfl, hnext.symm⟩

/-- Distributions on their dates reach the month that many steps after the start's exactly when
every month on the way has the start's day. -/
theorem scheduledMonth_iff (hbegins : BeginsAt db issuerWallet frequency start)
    (hmoves : MovesBy frequency count) (generated : ℕ → GeneratedColumns) (times : ℕ) :
    (∃ date, (distributionsOnSchedule issuerWallet generated db times).bind
          (nextDistributionAt issuerWallet) = some date ∧
        date.calendarMonth = start.calendarMonth + count * ((times + 1 : ℕ) : ℤ)) ↔
      KeepsDay start count (times + 1) := by
  obtain ⟨config, hconfig, rfl, hnext⟩ := hbegins
  rw [nextDistributionAt_eq hconfig hnext, scheduledDate_month_iff hmoves]

theorem exists_update {next : TimeValue} (db : Database) (issuerWallet : String)
    (hnext : calculateNextDate start frequency = some next) :
    ∃ config created,
      updateCycleFrequency db issuerWallet frequency.text start = (.ok config, created) := by
  rw [updateCycleFrequency, find_frequency]
  simp only [hnext]
  exact ⟨_, _, rfl⟩

end Runs

/-! ## The ends of January -/

/-- Midnight of 28 January 2026. -/
def january28 : TimeValue := ⟨20481 * msPerDay, by decide⟩

/-- Midnight of 31 January 2026. -/
def january31 : TimeValue := ⟨20484 * msPerDay, by decide⟩

/-- Midnight of 3 March 2026. -/
def march3 : TimeValue := ⟨20515 * msPerDay, by decide⟩

theorem january28_keepsDay :
    ∃ config created, updateCycleFrequency ⟨[], []⟩ "issuer" "monthly" january28 =
        (.ok config, created) ∧
      ∃ date, (distributionsOnSchedule "issuer" (fun _ => ⟨"id", january28⟩) created 1).bind
            (nextDistributionAt "issuer") = some date ∧
          date.calendarMonth = january28.calendarMonth + 1 * ((1 + 1 : ℕ) : ℤ) := by
  obtain ⟨config, created, hupdate⟩ := exists_update ⟨[], []⟩ "issuer"
    (show calculateNextDate january28 .monthly = some ⟨20512 * msPerDay, by decide⟩ by decide)
  have hkeeps : KeepsDay january28 1 2 := by
    refine ⟨fun time _ => ?_, by decide⟩
    have hdate : january28.getUTCDate = 28 := by decide
    exact hdate.trans_le (monthLength_bounds _).1
  exact ⟨config, created, hupdate,
    (scheduledMonth_iff (beginsAt_updateCycleFrequency hupdate) .monthly _ 1).mpr hkeeps⟩

/-- A month after 31 January comes 3 March. -/
theorem january31_skipsFebruary :
    ∃ config created, updateCycleFrequency ⟨[], []⟩ "issuer" "monthly" january31 =
        (.ok config, created) ∧
      (distributionsOnSchedule "issuer" (fun _ => ⟨"id", january31⟩) created 0).bind
          (nextDistributionAt "issuer") = some march3 ∧
      march3.calendarMonth ≠ january31.calendarMonth + 1 * ((0 + 1 : ℕ) : ℤ) := by
  have hnext : calculateNextDate january31 .monthly = some march3 := by decide
  obtain ⟨config, created, hupdate⟩ := exists_update ⟨[], []⟩ "issuer" hnext
  obtain ⟨stored, hconfig, -, hdate⟩ := beginsAt_updateCycleFrequency hupdate
  refine ⟨config, created, hupdate, ?_, by decide⟩
  rw [distributionsOnSchedule, Option.bind_some, nextDistributionAt, hconfig, Option.bind_some,
    hdate, hnext]

end StellarSettle.DividendCycle
