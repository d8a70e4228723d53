import Mathlib.Data.Rat.Defs
import Mathlib.Tactic.NormNum
import Notifyr.Manager.Schedules

/-!
# Schedulers and task results

What a request for a task is made of, in `app/classes/celery.py`.

- `TaskType`, `TaskHeaviness`, `computeWeight`: the kinds of a task and its weight.
- `SchedulerModel`: a request that has passed `validate_model`, which keeps the Celery object of its
  schedule and not the schedule.
- `TaskExecutionResult`, `messages`: what a request is told of its tasks.
-/

namespace Notifyr

/-- `TaskType`. -/
inductive TaskType
  | rrule
  | solar
  | crontab
  | timedelta
  | datetime
  | now
  | interval
  deriving DecidableEq

/-- `task_type.value`. -/
def TaskType.value : TaskType → String
  | rrule => "rrule"
  | solar => "solar"
  | crontab => "crontab"
  | timedelta => "timedelta"
  | datetime => "datetime"
  | now => "now"
  | interval => "interval"

/-- A task type in a formatted string. -/
def TaskType.format : TaskType → String
  | rrule => "TaskType.RRULE"
  | solar => "TaskType.SOLAR"
  | crontab => "TaskType.CRONTAB"
  | timedelta => "TaskType.TIMEDELTA"
  | datetime => "TaskType.DATETIME"
  | now => "TaskType.NOW"
  | interval => "TaskType.INTERVAL"

/-- `TaskHeaviness`. -/
inductive TaskHeaviness
  | veryLight
  | light
  | moderate
  | heavy
  | veryHeavy
  deriving DecidableEq

/-- A heaviness in a text. -/
def TaskHeaviness.format : TaskHeaviness → String
  | veryLight => "TaskHeaviness.VERY_LIGHT"
  | light => "TaskHeaviness.LIGHT"
  | moderate => "TaskHeaviness.MODERATE"
  | heavy => "TaskHeaviness.HEAVY"
  | veryHeavy => "TaskHeaviness.VERY_HEAVY"

/-- `COST_LEVELS`. -/
def costLevels : TaskHeaviness → ℚ
  | .veryLight => 1 / 10
  | .light => 1 / 2
  | .moderate => 1
  | .heavy => 2
  | .veryHeavy => 5

/-- `Compute_Weight`: `None` is no key of `COST_LEVELS`. -/
def computeWeight (cost : ℚ) : Option TaskHeaviness → Py ℚ
  | some heaviness => .ok (cost * costLevels heaviness)
  | none => .error .keyError

/-! ## Schedules -/

/-- `SCHEDULER_MODEL_MAP[task_type].model_validate(option)`: each type but `now` has its model. -/
def schedulerModelMap (libs : ScheduleLibs) (now : DateTime) (option : ScheduleOption) :
    TaskType → Py Scheduler
  | .datetime => match option with
    | .datetime _ => option.validate libs now
    | _ => .error .valueError
  | .timedelta => match option with
    | .timedelta _ => option.validate libs now
    | _ => .error .valueError
  | .interval => match option with
    | .interval _ => option.validate libs now
    | _ => .error .valueError
  | .crontab => match option with
    | .crontab _ => option.validate libs now
    | _ => .error .valueError
  | .rrule => match option with
    | .rrule => option.validate libs now
    | _ => .error .valueError
  | .solar => match option with
    | .solar => option.validate libs now
    | _ => .error .valueError
  | .now => .error .keyError

/-- The value of `_schedule`: `None`, a schedule, or an object that a schedule has built. -/
inductive ScheduleSlot
  | none
  | model (scheduler : Scheduler)
  | built (object : BeatObject)
  deriving DecidableEq

namespace ScheduleSlot

/-- `_schedule._beat_object`: only a schedule has this attribute. -/
def beatObject : ScheduleSlot → Py BeatObject
  | model scheduler => .ok scheduler.beatObject
  | _ => .error .attributeError

/-- `_schedule._aps_object`. -/
def apsObject : ScheduleSlot → Py (Option ApsTrigger)
  | model scheduler => .ok scheduler.apsObject
  | _ => .error .attributeError

end ScheduleSlot

/-- `validate_model`: what it leaves in `_schedule`. -/
def validateModel (libs : ScheduleLibs) (now : DateTime) (taskType : TaskType) :
    Option ScheduleOption → Py ScheduleSlot
  | none => if taskType = .now then .ok .none else .error .valueError
  | some option =>
    if taskType = .now then .ok .none
    else do
      let scheduler ← schedulerModelMap libs now option taskType
      return .built scheduler.beatObject

/-- A validated request for a task. -/
structure SchedulerModel where
  taskName : String
  taskType : TaskType
  countdown : Option ℕ
  heaviness : Option TaskHeaviness
  schedule : ScheduleSlot
  validated : ∃ libs now option, validateModel libs now taskType option = .ok schedule

namespace SchedulerModel

variable (scheduler : SchedulerModel)

/-- A schedule is never kept. -/
theorem schedule_ne_model (s : Scheduler) : scheduler.schedule ≠ .model s := by
  obtain ⟨libs, now, option, h⟩ := scheduler.validated
  intro hmodel
  rw [hmodel] at h
  cases option with
  | none =>
    unfold validateModel at h
    split_ifs at h
    cases h
  | some option =>
    unfold validateModel at h
    split_ifs at h
    · cases h
    · obtain ⟨built, -, hbuilt⟩ := bind_ok h
      cases hbuilt

theorem beatObject_eq : scheduler.schedule.beatObject = .error .attributeError := by
  cases hslot : scheduler.schedule with
  | model s => exact absurd hslot (scheduler.schedule_ne_model s)
  | none => rfl
  | built object => rfl

theorem apsObject_eq : scheduler.schedule.apsObject = .error .attributeError := by
  cases hslot : scheduler.schedule with
  | model s => exact absurd hslot (scheduler.schedule_ne_model s)
  | none => rfl
  | built object => rfl

end SchedulerModel

/-! ## Results and messages -/

/-- `TaskExecutionResult`. -/
structure TaskExecutionResult (ρ : Type) where
  offloaded : Bool
  date : String
  handler : String
  expectedTbd : Option String
  index : Option ℤ
  heaviness : Option String
  result : Option ρ := none
  error : Bool := false
  taskId : Option String := none
  type : Option String := some "task"
  message : Option String := none

/-- `TaskExecutionResult.update`. -/
def TaskExecutionResult.update {ρ : Type} (r : TaskExecutionResult ρ) (taskId type : String)
    (expectedTbd : Option String) : TaskExecutionResult ρ :=
  { r with taskId := some taskId, type := some type, expectedTbd }

/-- A message to the client about one of its contents. -/
structure Message where
  name : String
  message : String
  index : Option ℤ
  code : ℕ
  permanent : Bool

/-- `FALLBACK_ENV_TASK`. -/
def fallbackEnvTask : ℕ := 549

/-- `UNSUPPORTED_TASK_TYPE`. -/
def unsupportedTaskType : ℕ := 498

/-- `MESSAGES`. -/
def messageOf (code : ℕ) (index : Option ℤ) (obj : String) : Option Message :=
  if code = fallbackEnvTask then
    some {
      name := "fallback runtime env task_type"
      message := "This task is not supported in the current runtime environment, we now used the '"
        ++ obj ++ "' to run this task"
      index
      code := fallbackEnvTask
      permanent := false }
  else if code = unsupportedTaskType then
    some {
      name := "unsupported task"
      message :=
        "The system could resolve the task_type, enable APS Scheduler or add Celery workers"
      index
      code := unsupportedTaskType
      permanent := true }
  else none

end Notifyr
