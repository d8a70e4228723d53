import Notifyr.Manager.Offload

/-!
# When a schedule fires

The objects that the two dispatchers hand over for a schedule, against the instants at which it
should fire.

- `ShouldFire`: the firing instants of a schedule, by its fields.
- `DispatchAgrees`: a schedule is validated, and both dispatchers hand over an object that fires
  then. What such an object does is up to Celery and APScheduler: `FiringSemantics`.
- `not_dispatchAgrees`: they never do, since they ask the object that was kept for its objects.
- `triggerTaskFromScheduler_run_of_ne_now`, `scheduleApsTask_run_of_ne_now`: nothing is handed over.
- `interval_validate_of_startDate_none`, `period_eq_iff`: what else the models get wrong.
-/

namespace Notifyr

open EffectM

/-- When the objects of a schedule fire, in microseconds, and what the texts of a crontab match. -/
structure FiringSemantics where
  beat : BeatObject → Set ℤ
  aps : ApsTrigger → Set ℤ
  minute : String → ℤ → Prop
  hour : String → ℤ → Prop
  weekday : String → ℤ → Prop
  day : String → ℤ → Prop
  month : String → ℤ → Prop
  year : String → ℤ → Prop

/-- A field of a crontab that is given matches. -/
def fieldMatches (reads : String → ℤ → Prop) (field : Option String) (n : ℤ) : Prop :=
  ∀ text ∈ field, reads text n

/-- The whole minutes at which all fields of a crontab match. -/
def CrontabSchedulerModel.Matches (sem : FiringSemantics) (m : CrontabSchedulerModel)
    (t : DateTime) : Prop :=
  t.valid ∧ t.second = 0 ∧ t.microsecond = 0 ∧
    fieldMatches sem.minute m.minute t.minute ∧ fieldMatches sem.hour m.hour t.hour ∧
    fieldMatches sem.weekday m.dayOfWeek t.weekday ∧ fieldMatches sem.day m.dayOfMonth t.day ∧
    fieldMatches sem.month m.monthOfYear t.month ∧ fieldMatches sem.year m.year t.year

/-- The instants at which a schedule should fire that was validated at a time: a datetime and a
timedelta once, an interval with its period from its start date if it has one, a crontab when its
fields match. -/
def ShouldFire (sem : FiringSemantics) (now : DateTime) (firings : Set ℤ) : ScheduleOption → Prop
  | .datetime m => ∃ t, m.build now = .ok t ∧ firings = {t}
  | .timedelta m => ∃ object, m.build = .ok object ∧ firings = {now.micros + object}
  | .interval m => ∃ object start, m.interval.build = .ok object ∧
      (∀ d ∈ m.startDate, d.build now = .ok start) ∧
      firings = {t | ∃ k : ℕ, t = start + k * object}
  | .crontab m => firings = {t | ∃ d : DateTime, m.Matches sem d ∧ d.micros = t}
  | .rrule => True
  | .solar => True

/-- The object that `trigger_task_from_scheduler` hands to Celery, as the `eta` of a task or as the
schedule of a RedBeat entry. -/
def celerySchedule (scheduler : SchedulerModel) : Py BeatObject := scheduler.schedule.beatObject

/-- The object that `_schedule_aps_task` hands to APScheduler; it hands over none where the type is
not handled. -/
def apsSchedule (scheduler : SchedulerModel) : Py (Option ApsTrigger) :=
  match scheduler.taskType with
  | .crontab => scheduler.schedule.apsObject
  | .interval => scheduler.schedule.apsObject
  | _ => .ok none

/-- A schedule is validated, and the dispatchers hand over two objects that fire when it should. -/
def DispatchAgrees (sem : FiringSemantics) (libs : ScheduleLibs) (now : DateTime)
    (taskType : TaskType) (option : ScheduleOption) : Prop :=
  ∃ scheduler : SchedulerModel, scheduler.taskType = taskType ∧
    validateModel libs now taskType (some option) = .ok scheduler.schedule ∧
    ∃ beat trigger, celerySchedule scheduler = .ok beat ∧
      apsSchedule scheduler = .ok (some trigger) ∧
      sem.beat beat = sem.aps trigger ∧ ShouldFire sem now (sem.beat beat) option

/-- No schedule is dispatched as it should: the object kept is no schedule any more. -/
theorem not_dispatchAgrees (sem : FiringSemantics) (libs : ScheduleLibs) (now : DateTime)
    (taskType : TaskType) (option : ScheduleOption) :
    ¬DispatchAgrees sem libs now taskType option := by
  rintro ⟨scheduler, -, -, beat, trigger, hbeat, -⟩
  unfold celerySchedule at hbeat
  rw [scheduler.beatObject_eq] at hbeat
  cases hbeat

/-- A task that fires once, at the start of 2030. -/
theorem not_dispatchAgrees_datetime :
    ¬DispatchAgrees
      { beat := fun object => match object with
          | .datetime t => {t}
          | _ => ∅
        aps := fun trigger => match trigger with
          | .date t => {t}
          | _ => ∅
        minute := fun _ _ => True, hour := fun _ _ => True, weekday := fun _ _ => True
        day := fun _ _ => True, month := fun _ _ => True, year := fun _ _ => True }
      ⟨fun _ => .ok (), fun _ => .ok (), fun _ => .ok (), .ok (), .ok ()⟩
      ⟨2025, 1, 1, 0, 0, 0, 0⟩ .datetime (.datetime { year := 2030 }) := by
  rintro ⟨scheduler, -, hslot, beat, trigger, hbeat, -⟩
  have hkept : scheduler.schedule =
      .built (.datetime (DateTime.micros ⟨2030, 1, 1, 0, 0, 0, 0⟩)) := by
    have hvalid : validateModel ⟨fun _ => .ok (), fun _ => .ok (), fun _ => .ok (), .ok (), .ok ()⟩
        ⟨2025, 1, 1, 0, 0, 0, 0⟩ .datetime (some (.datetime { year := 2030 })) =
          .ok (.built (.datetime (DateTime.micros ⟨2030, 1, 1, 0, 0, 0, 0⟩))) := by
      decide +kernel
    rw [hvalid] at hslot
    exact (Except.ok.inj hslot).symm
  unfold celerySchedule at hbeat
  rw [hkept] at hbeat
  cases hbeat

/-! ## The dispatchers -/

variable {τ ρ : Type} {m : TaskManager τ} {scheduler : SchedulerModel} {call : OffloadCall τ ρ}

/-- Celery is handed nothing. -/
theorem triggerTaskFromScheduler_run_of_ne_now (htype : scheduler.taskType ≠ .now)
    (w : Offloads τ ρ) :
    (triggerTaskFromScheduler m scheduler call).run w = (.error .attributeError, w) := by
  have hbeat := scheduler.beatObject_eq
  unfold triggerTaskFromScheduler
  split_ifs
  · have hdelta : scheduler.delta = .error .attributeError := by
      unfold SchedulerModel.delta
      rw [if_pos htype, hbeat]
      rfl
    rw [hdelta]
    rfl
  · rw [hbeat]
    rfl

/-- APScheduler is handed nothing. -/
theorem scheduleApsTask_run_of_ne_now (htype : scheduler.taskType ≠ .now) (w : Offloads τ ρ) :
    ((scheduleApsTask m scheduler call).run w).2 = w := by
  unfold scheduleApsTask
  rw [run_bind_lift]
  cases m.registered scheduler.taskName with
  | error e => rfl
  | ok u =>
    dsimp only
    cases hkind : scheduler.taskType with
    | now => exact absurd hkind htype
    | crontab =>
      dsimp only
      rw [scheduler.apsObject_eq]
      rfl
    | interval =>
      dsimp only
      rw [scheduler.apsObject_eq]
      rfl
    | _ => rfl

/-! ## The objects -/

/-- An interval without a start date is not validated. -/
theorem interval_validate_of_startDate_none {i : IntervalSchedulerModel} (h : i.startDate = none)
    (libs : ScheduleLibs) (now : DateTime) : ∃ e, i.validate libs now = .error e := by
  unfold IntervalSchedulerModel.validate
  cases i.interval.validate libs now with
  | error e => exact ⟨e, rfl⟩
  | ok interval =>
    rw [h]
    cases i.interval.build with
    | error e => exact ⟨e, rfl⟩
    | ok object => exact ⟨.attributeError, rfl⟩

/-- The period that the arguments of `IntervalTrigger` stand for. -/
def IntervalArgs.period (args : IntervalArgs) : ℤ :=
  ((((args.weeks * 7 + args.days) * 24 + args.hours) * 60 + args.minutes) * 60 + args.seconds) *
    microsPerSecond

/-- The trigger of a validated interval has its period exactly if it has no parts of a second. -/
theorem period_eq_iff {i : IntervalSchedulerModel} {libs : ScheduleLibs} {now : DateTime}
    {beat : BeatObject} {args : IntervalArgs} {object : ℤ}
    (h : i.validate libs now = .ok ⟨beat, some (.interval args)⟩)
    (hobject : i.interval.build = .ok object) :
    args.period = object ↔ i.interval.milliseconds = 0 ∧ i.interval.microseconds = 0 := by
  unfold IntervalSchedulerModel.validate at h
  obtain ⟨_, -, h⟩ := bind_ok h
  obtain ⟨_, -, h⟩ := bind_ok h
  obtain ⟨object', hobject', h⟩ := bind_ok h
  rw [hobject] at hobject'
  cases hobject'
  cases hstart : i.startDate with
  | none =>
    rw [hstart] at h
    cases h
  | some d =>
    rw [hstart] at h
    obtain ⟨t, -, h⟩ := bind_ok h
    cases h
    unfold TimedeltaSchedulerModel.build Notifyr.timedelta at hobject
    split_ifs at hobject
    cases hobject
    unfold IntervalArgs.period TimedeltaSchedulerModel.wholeSeconds
    dsimp only
    omega

end Notifyr
