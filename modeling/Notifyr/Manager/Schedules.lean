import Mathlib
import Notifyr.Runtime.Effect

/-!
# Schedules

The models of `app/classes/scheduler.py`: what they accept, and the two objects that each of them
builds, one for Celery and one for APScheduler.

- `DateTime`, `datetime`: the moments of the calendar, without a timezone, and the constructor of
  `datetime`.
- `BeatObject`, `ApsTrigger`, `Scheduler`: the objects, and a validated schedule.
- `DateTimeSchedulerModel` and the models after it, with their `check_after`.
- `ScheduleOption`: a schedule of any kind before its validation.
-/

namespace Notifyr

/-! ## The calendar -/

/-- The fields of a `datetime`. -/
structure DateTime where
  year : ℤ
  month : ℤ
  day : ℤ
  hour : ℤ
  minute : ℤ
  second : ℤ
  microsecond : ℤ
  deriving DecidableEq

def isLeapYear (year : ℤ) : Bool := year % 4 = 0 && (year % 100 ≠ 0 || year % 400 = 0)

def daysInMonth (year month : ℤ) : ℤ :=
  if month = 2 then if isLeapYear year then 29 else 28
  else if month ∈ [4, 6, 9, 11] then 30 else 31

namespace DateTime

/-- `toordinal`: the days since the start of the calendar. -/
def ordinal (t : DateTime) : ℤ :=
  let y := t.year - 1
  365 * y + y / 4 - y / 100 + y / 400 +
    ((List.range (t.month - 1).toNat).map fun m => daysInMonth t.year (m + 1)).sum + t.day

/-- The time in microseconds since the start of the calendar. -/
def micros (t : DateTime) : ℤ :=
  (((t.ordinal * 24 + t.hour) * 60 + t.minute) * 60 + t.second) * 1000000 + t.microsecond

/-- The days of a week from Sunday, which is 0. -/
def weekday (t : DateTime) : ℤ := t.ordinal % 7

/-- What the constructor of `datetime` accepts. -/
def valid (t : DateTime) : Bool :=
  decide (1 ≤ t.year ∧ t.year ≤ 9999 ∧ 1 ≤ t.month ∧ t.month ≤ 12 ∧ 1 ≤ t.day ∧
    t.day ≤ daysInMonth t.year t.month ∧ 0 ≤ t.hour ∧ t.hour ≤ 23 ∧ 0 ≤ t.minute ∧
    t.minute ≤ 59 ∧ 0 ≤ t.second ∧ t.second ≤ 59 ∧ 0 ≤ t.microsecond ∧ t.microsecond ≤ 999999)

/-- `datetime.max`. -/
def max : DateTime := ⟨9999, 12, 31, 23, 59, 59, 999999⟩

end DateTime

/-- `datetime(..., tzinfo=tzinfo)`: a text is no timezone. -/
def datetime (t : DateTime) (tzinfo : Option String) : Py DateTime :=
  if ¬t.valid then .error .valueError
  else if tzinfo.isSome then .error .typeError
  else .ok t

/-- A second in microseconds. -/
def microsPerSecond : ℤ := 1000000

/-- `timedelta`, which is bounded in days. -/
def timedelta (micros : ℤ) : Py ℤ :=
  if micros / (86400 * microsPerSecond) ≤ 999999999 then .ok micros else .error .overflowError

/-- A `datetime` plus a time that is not negative. -/
def addMicros (t micros : ℤ) : Py ℤ :=
  if t + micros ≤ DateTime.max.micros then .ok (t + micros) else .error .overflowError

/-! ## What a schedule builds -/

/-- What a schedule gives Celery: `_beat_object`. Times are in microseconds. -/
inductive BeatObject
  | datetime (t : ℤ)
  | schedule (runEvery : ℤ) (relative : Option Bool)
  | crontab (params : List (String × String))
  | rrule
  | solar
  deriving DecidableEq

/-- The arguments of `IntervalTrigger`. -/
structure IntervalArgs where
  weeks : ℕ
  days : ℕ
  hours : ℕ
  minutes : ℕ
  seconds : ℕ
  startDate : Option ℤ
  endDate : Option ℤ
  timezone : Option String
  jitter : Option ℕ
  deriving DecidableEq

/-- The arguments of `CronTrigger`. -/
structure CronArgs where
  dayOfWeek : Option String
  minute : Option String
  month : Option String
  year : Option String
  startDate : Option ℤ
  endDate : Option ℤ
  deriving DecidableEq

/-- What a schedule gives APScheduler: `_aps_object`. -/
inductive ApsTrigger
  | date (t : ℤ)
  | interval (args : IntervalArgs)
  | cron (args : CronArgs)
  deriving DecidableEq

/-- A validated schedule. -/
structure Scheduler where
  beatObject : BeatObject
  apsObject : Option ApsTrigger
  deriving DecidableEq

/-- What third-party constructors answer: a timezone by its name, `crontab`, `CronTrigger`, `rrule`
and `solar`. -/
structure ScheduleLibs where
  timezone : String → Py Unit
  crontab : List (String × String) → Py Unit
  cronTrigger : CronArgs → Py Unit
  rrule : Py Unit
  solar : Py Unit

/-- `astimezone`. -/
def ScheduleLibs.astimezone (libs : ScheduleLibs) : Option String → Py Unit
  | some name => libs.timezone name
  | none => .ok ()

/-! ## The models -/

/-- `validate_clock_value`. -/
def validateClockValue (day : Option ℤ) (hour minute : ℤ) (month : Option ℤ)
    (second microsecond : ℤ) : Py Unit :=
  if ∃ m ∈ month, m < 1 ∨ 12 < m then .error .valueError
  else if ∃ d ∈ day, d < 1 ∨ 31 < d then .error .valueError
  else if hour < 0 ∨ 23 < hour then .error .valueError
  else if minute < 0 ∨ 59 < minute then .error .valueError
  else if second < 0 ∨ 59 < second then .error .valueError
  else if microsecond < 0 ∨ 999999 < microsecond then .error .valueError
  else .ok ()

/-- `DateTimeSchedulerModel`. -/
structure DateTimeSchedulerModel where
  year : ℤ
  month : Option ℤ := none
  day : Option ℤ := none
  hour : ℤ := 0
  minute : ℤ := 0
  second : ℤ := 0
  microsecond : ℤ := 0
  tzinfo : Option String := none

namespace DateTimeSchedulerModel

/-- `build`: `self.month or 1` and the like. -/
def build (m : DateTimeSchedulerModel) (now : DateTime) : Py ℤ :=
  let orOne (n : Option ℤ) : ℤ := match n with
    | none => 1
    | some n => if n = 0 then 1 else n
  DateTime.micros <$> datetime {
    year := if m.year = 0 then now.year else m.year
    month := orOne m.month
    day := orOne m.day
    hour := m.hour
    minute := m.minute
    second := m.second
    microsecond := m.microsecond } m.tzinfo

/-- `check_valid` and `check_after`. -/
def validate (m : DateTimeSchedulerModel) (now : DateTime) : Py Scheduler := do
  validateClockValue m.day m.hour m.minute m.month m.second m.microsecond
  let t ← m.build now
  if t < now.micros then throw .valueError
  return ⟨.datetime t, some (.date t)⟩

end DateTimeSchedulerModel

/-- `TimedeltaSchedulerModel`. -/
structure TimedeltaSchedulerModel where
  days : ℕ := 0
  seconds : ℕ := 0
  microseconds : ℕ := 0
  milliseconds : ℕ := 0
  minutes : ℕ := 0
  hours : ℕ := 0
  weeks : ℕ := 0
  tzinfo : Option String := none
  jitter : Option ℕ := none

namespace TimedeltaSchedulerModel

variable (m : TimedeltaSchedulerModel)

/-- The whole seconds of a time. -/
def wholeSeconds : ℤ :=
  (((m.weeks * 7 + m.days) * 24 + m.hours) * 60 + m.minutes) * 60 + m.seconds

/-- `build('timedelta')`. -/
def build : Py ℤ :=
  timedelta (m.wholeSeconds * microsPerSecond + m.milliseconds * 1000 + m.microseconds)

/-- `check_after`. -/
def validate (libs : ScheduleLibs) (now : DateTime) : Py Scheduler := do
  let object ← m.build
  if object ≤ 0 then throw .valueError
  let beat ← addMicros now.micros object
  let endDate ← addMicros beat (30 * microsPerSecond)
  libs.astimezone m.tzinfo
  return ⟨.datetime beat, some (.interval {
    weeks := m.weeks
    days := m.days
    hours := m.hours
    minutes := m.minutes
    seconds := m.seconds
    startDate := none
    endDate := some endDate
    timezone := m.tzinfo
    jitter := m.jitter })⟩

end TimedeltaSchedulerModel

/-- `IntervalSchedulerModel`. -/
structure IntervalSchedulerModel where
  interval : TimedeltaSchedulerModel
  relative : Option Bool := some false
  startDate : Option DateTimeSchedulerModel := none

/-- The validation of the interval and the start date, then `check_after`. -/
def IntervalSchedulerModel.validate (m : IntervalSchedulerModel) (libs : ScheduleLibs)
    (now : DateTime) : Py Scheduler := do
  let _ ← m.interval.validate libs now
  let _ ← m.startDate.mapM fun d => d.validate now
  let object ← m.interval.build
  match m.startDate with
  | none => throw .attributeError
  | some startDate =>
    let t ← startDate.build now
    return ⟨.schedule object m.relative, some (.interval {
      weeks := m.interval.weeks
      days := m.interval.days
      hours := m.interval.hours
      minutes := m.interval.minutes
      seconds := m.interval.seconds
      startDate := some t
      endDate := none
      timezone := none
      jitter := m.interval.jitter })⟩

/-- `CrontabSchedulerModel`. -/
structure CrontabSchedulerModel where
  minute : Option String := some "*"
  hour : Option String := some "*"
  dayOfWeek : Option String := some "*"
  dayOfMonth : Option String := some "*"
  monthOfYear : Option String := some "*"
  year : Option String := none
  timezone : Option String := none
  startDate : Option DateTimeSchedulerModel := none
  endDate : Option DateTimeSchedulerModel := none

namespace CrontabSchedulerModel

variable (m : CrontabSchedulerModel)

/-- The parameters of `crontab` that are not `None`. -/
def params : List (String × String) :=
  [("minute", m.minute), ("hour", m.hour), ("day_of_week", m.dayOfWeek),
    ("day_of_month", m.dayOfMonth), ("month_of_year", m.monthOfYear), ("year", m.year),
    ("timezone", m.timezone)].filterMap fun p => p.2.map fun v => (p.1, v)

/-- The arguments of `CronTrigger`. -/
def cronArgs (startDate endDate : Option ℤ) : CronArgs where
  dayOfWeek := m.dayOfWeek
  minute := m.minute
  month := m.monthOfYear
  year := m.year
  startDate
  endDate

/-- The validation of the dates, then `check_after`, which turns every exception into a
`ValueError`. -/
def validate (libs : ScheduleLibs) (now : DateTime) : Py Scheduler := do
  let _ ← m.startDate.mapM fun d => d.validate now
  let _ ← m.endDate.mapM fun d => d.validate now
  let built : Py Scheduler := do
    libs.crontab m.params
    let startDate ← m.startDate.mapM fun d => d.build now
    let endDate ← m.endDate.mapM fun d => d.build now
    libs.cronTrigger (m.cronArgs startDate endDate)
    return ⟨.crontab m.params, some (.cron (m.cronArgs startDate endDate))⟩
  match built with
  | .ok scheduler => .ok scheduler
  | .error _ => .error .valueError

end CrontabSchedulerModel

/-- A schedule before its validation; of the last two kinds only the outcome counts here. -/
inductive ScheduleOption
  | datetime (m : DateTimeSchedulerModel)
  | timedelta (m : TimedeltaSchedulerModel)
  | interval (m : IntervalSchedulerModel)
  | crontab (m : CrontabSchedulerModel)
  | rrule
  | solar

/-- `model_validate`. -/
def ScheduleOption.validate (libs : ScheduleLibs) (now : DateTime) : ScheduleOption → Py Scheduler
  | datetime m => m.validate now
  | timedelta m => m.validate libs now
  | interval m => m.validate libs now
  | crontab m => m.validate libs now
  | rrule => do
    libs.rrule
    return ⟨.rrule, none⟩
  | solar => do
    libs.solar
    return ⟨.solar, none⟩

end Notifyr
