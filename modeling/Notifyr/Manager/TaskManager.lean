import Notifyr.Manager.Celery

/-!
# The task manager

The calls of `offload_task` in one request: `app/manager/task_manager.py`, with what it calls of
`app/services/worker/celery_service.py` and `app/interface/timers.py`.

- `TaskManager`, `OffloadCall`, `Offloads`: the settings of a request, a call with what the world
  answers it, and what the calls have done so far.
- `routeOffload`, `triggerTaskFromScheduler`, `scheduleApsTask`: what hands work to a backend.
- `offloadLoop`: the loop of `_offload_task`, which goes from one algorithm to another.
- `offloadTask`, `offloadAll`: a call, and the calls of a request.

The strategies of `app/classes/env_selector.py` draw at random among the environments of a mask.
-/

namespace Notifyr

open EffectM

/-- `AlgorithmType`. -/
inductive AlgorithmType
  | normal
  | mix
  | worker
  | route
  | aps
  deriving DecidableEq

/-- Who a task is handed to. -/
inductive Backend
  | route
  | background
  | celery
  | aps
  deriving DecidableEq

/-- The task types of a backend: the server itself only runs what is due now, and
`_not_allowed_aps_task_type` names those that APScheduler does not take. -/
def Backend.supports : Backend → TaskType → Bool
  | .route, taskType => decide (taskType = .now)
  | .background, taskType => decide (taskType = .now)
  | .celery, _ => true
  | .aps, taskType => decide (taskType ∉ [.rrule, .solar])

/-- `EnvSelection`. -/
inductive EnvSelection
  | route
  | worker
  | aps
  | routebkg
  deriving DecidableEq

/-- `ENVS`. -/
def envs : List EnvSelection := [.route, .worker, .aps, .routebkg]

/-- The environments of a mask. -/
def allowedEnvs (mask : List ℕ) : List EnvSelection :=
  ((envs.zip mask).filter fun e => e.2 = 1).map (·.1)

/-- A draw of a strategy: one of the environments that are allowed. -/
structure EnvDraw where
  select : List EnvSelection → Py EnvSelection
  select_mem : ∀ allowed env, select allowed = .ok env → env ∈ allowed

/-- The argument of `naturaldelta`. -/
inductive DeltaArg
  | none
  | seconds (s : ℚ)
  | date (object : BeatObject)

/-- `RunType`. -/
inductive RunType
  | parallel
  | sequential
  deriving DecidableEq

/-- What `TaskMeta` says of a request. -/
structure TaskMeta where
  requestId : String
  fallback : Bool
  background : Bool
  runtype : RunType
  algorithm : AlgorithmType
  saveResult : Bool
  split : Bool
  retry : Bool

/-- `self.meta[key]`, where the values are flags. -/
def TaskMeta.flag (taskMeta : TaskMeta) (key : String) : Py Bool :=
  match key with
  | "fallback" => .ok taskMeta.fallback
  | "background" => .ok taskMeta.background
  | "save_result" => .ok taskMeta.saveResult
  | "split" => .ok taskMeta.split
  | "retry" => .ok taskMeta.retry
  | _ => .error .keyError

/-- What the calls of a request have in common: the manager, the configuration, the names in
`TASK_REGISTRY`, and texts. -/
structure TaskManager (τ : Type) where
  taskMeta : TaskMeta
  scheduler : Option SchedulerModel
  celeryWorkersExpected : ℤ
  apsActivated : Bool
  registry : List String
  qualname : τ → String
  naturaldelta : DeltaArg → String

/-- What running a callback comes to. -/
inductive CallbackOutcome (ρ : Type)
  | returns (result : Option ρ)
  | retry
  | raises (e : PyErr)

/-- A job of APScheduler; `next_run_time` is absent from a job of a scheduler that is not started,
and `None` in a paused one. -/
structure ApsJob where
  nextRunTime : Option ℚ

/-- `job.next_run_time.timestamp()`, where `job` may be `None`. -/
def nextRunAt : Option ApsJob → Py ℚ
  | some ⟨some t⟩ => .ok t
  | _ => .error .attributeError

/-- The argument `_s`. -/
structure HeavinessArg where
  heaviness : TaskHeaviness

/-- A call of `offload_task`: its arguments, the clock, whether the task service is available, and
the outcomes of what it may ask for: its callback, a draw, a task and a schedule of Celery, a job of
APScheduler. -/
structure OffloadCall (τ ρ : Type) where
  weight : ℚ
  delay : ℚ
  index : Option ℤ
  task : τ
  s : Option HeavinessArg := none
  date : String
  timestamp : ℚ
  available : Bool
  callback : CallbackOutcome ρ
  draw : EnvDraw
  applyAsync : Py String
  scheduleId : String
  redbeat : Py (Option ℚ)
  addJob : Py ApsJob

/-- `TaskConfig`. -/
structure TaskConfig (τ : Type) where
  task : τ
  delay : ℚ

/-- What the calls of a request have done; `handed` lists what was handed to a backend, with the
index of its content. -/
structure Offloads (τ ρ : Type) where
  taskConfig : List (TaskConfig τ) := []
  ttd : ℚ := 0
  tt : ℚ := 0
  weight : ℚ := 0
  taskResult : List (TaskExecutionResult ρ) := []
  messages : List Message := []
  handed : List (Backend × Option ℤ) := []

/-- A computation of the manager. -/
abbrev OffloadM (τ ρ : Type) := EffectM (Offloads τ ρ)

/-- `str(index)`. -/
def indexText : Option ℤ → String
  | some index => toString index
  | none => "None"

/-- `text.split('@')[1]`. -/
def partAfterAt (text : String) : Py String :=
  match (text.toList.splitOn '@')[1]? with
  | some part => .ok (String.ofList part)
  | none => .error .indexError

variable {τ ρ : Type}

/-- The work of a call goes to a backend. -/
def handTo (backend : Backend) (index : Option ℤ) : OffloadM τ ρ Unit :=
  modify fun w => { w with handed := w.handed ++ [(backend, index)] }

/-- `add_messages`. -/
def addMessages (code : ℕ) (index : Option ℤ) (obj : String) : OffloadM τ ρ Unit :=
  match messageOf code index obj with
  | some message => modify fun w => { w with messages := w.messages ++ [message] }
  | none => throw .valueError

/-- `add_messages()`: two of its parameters have no default. -/
def addMessagesBare : OffloadM τ ρ Unit := throw .typeError

/-- The text of the heaviness in a result. -/
def heavinessText (scheduler : SchedulerModel) : Option String :=
  some ((scheduler.heaviness.map TaskHeaviness.format).getD "None")

/-! ## Background tasks and the route -/

/-- `append_taskConfig`. -/
def appendTaskConfig (task : τ) (delay : ℚ) : OffloadM τ ρ ℚ := do
  if (← get).taskConfig.length = 0 then
    modify fun w => { w with ttd := w.ttd + delay }
  modify fun w => { w with tt := w.tt + delay }
  let newDelay := (← get).tt
  modify fun w => { w with taskConfig := w.taskConfig ++ [⟨task, delay⟩] }
  return newDelay

theorem appendTaskConfig_run (task : τ) (delay : ℚ) (w : Offloads τ ρ) :
    (appendTaskConfig task delay).run w =
      (.ok (w.tt + delay), { w with
        ttd := if w.taskConfig.length = 0 then w.ttd + delay else w.ttd
        tt := w.tt + delay
        taskConfig := w.taskConfig ++ [⟨task, delay⟩] }) := by
  unfold appendTaskConfig
  rw [run_bind_get]
  by_cases hfirst : w.taskConfig.length = 0
  · simp only [if_pos hfirst]
    rfl
  · simp only [if_neg hfirst]
    rfl

/-- `add_task`. -/
def addTask (m : TaskManager τ) (scheduler : SchedulerModel) (call : OffloadCall τ ρ) :
    OffloadM τ ρ (TaskExecutionResult ρ) := do
  let newDelay ← appendTaskConfig call.task call.delay
  handTo .background call.index
  return {
    offloaded := true
    date := call.date
    handler := "BackgroundTask"
    expectedTbd := some (m.naturaldelta (.seconds newDelay))
    index := call.index
    heaviness := heavinessText scheduler
    taskId := some m.taskMeta.requestId
    message := some ("[" ++ m.qualname call.task ++ "] - Task added successfully") }

/-- `TASK_REGISTRY[name]`. -/
def TaskManager.registered (m : TaskManager τ) (name : String) : Py Unit :=
  if name ∈ m.registry then .ok () else .error .keyError

/-- What `naturaldelta` is told of a task that is sent to Celery: its `eta`, or its countdown. -/
def SchedulerModel.delta (scheduler : SchedulerModel) : Py DeltaArg :=
  if scheduler.taskType ≠ .now then
    DeltaArg.date <$> scheduler.schedule.beatObject
  else
    .ok (scheduler.countdown.elim .none fun s => .seconds s)

/-- The result of `trigger_task_from_scheduler` before its update. -/
def celeryResult (scheduler : SchedulerModel) (call : OffloadCall τ ρ) : TaskExecutionResult ρ where
  offloaded := true
  date := call.date
  handler := "Celery"
  expectedTbd := none
  index := call.index
  heaviness := heavinessText scheduler
  message := some ("Task [" ++ scheduler.taskName ++ "] received successfully")

/-- `CeleryService.trigger_task_from_scheduler`. -/
def triggerTaskFromScheduler (m : TaskManager τ) (scheduler : SchedulerModel)
    (call : OffloadCall τ ρ) : OffloadM τ ρ (TaskExecutionResult ρ) :=
  if scheduler.taskType ∈ [.now, .datetime, .timedelta] then do
    let delta ← lift scheduler.delta
    let _ ← lift (m.registered scheduler.taskName)
    let id ← lift call.applyAsync
    handTo .celery call.index
    let taskId ← lift (partAfterAt id)
    return (celeryResult scheduler call).update taskId "task" (some (m.naturaldelta delta))
  else do
    let _ ← lift scheduler.schedule.beatObject
    let time ← lift call.redbeat
    handTo .celery call.index
    return (celeryResult scheduler call).update call.scheduleId "schedule"
      (time.map fun s => m.naturaldelta (.seconds s))

/-- The callback run by `_route_offload`. -/
def runCallback (m : TaskManager τ) (scheduler : SchedulerModel) (call : OffloadCall τ ρ) :
    OffloadM τ ρ (TaskExecutionResult ρ) :=
  match call.callback with
  | .returns result =>
    return {
      handler := "Route Handler"
      offloaded := false
      date := call.date
      expectedTbd := some "now"
      index := call.index
      result
      heaviness := heavinessText scheduler }
  | .retry => do
    -- the flag is kept under another name, and `expected_tbd` has no default
    if ← lift (m.taskMeta.flag "is_retry") then
      let _ ← triggerTaskFromScheduler m scheduler call
    throw .typeError
  | .raises e => throw e

/-- `_route_offload`. -/
def routeOffload (m : TaskManager τ) (scheduler : SchedulerModel) (fromEnv : Option EnvSelection)
    (call : OffloadCall τ ρ) : OffloadM τ ρ (TaskExecutionResult ρ) := do
  if m.taskMeta.background || fromEnv = some .routebkg then
    addTask m scheduler call
  else
    handTo .route call.index
    runCallback m scheduler call

/-! ## APScheduler -/

/-- `SchedulerInterface.now_schedule` and `cron_schedule`: the job of `add_job`. -/
def addJob (call : OffloadCall τ ρ) : OffloadM τ ρ (Option ApsJob) := do
  let job ← lift call.addJob
  handTo .aps call.index
  return some job

/-- `SchedulerInterface.interval_schedule`, which returns nothing. -/
def intervalSchedule (call : OffloadCall τ ρ) : OffloadM τ ρ (Option ApsJob) := do
  let _ ← addJob call
  return none

/-- The end of `_schedule_aps_task`. -/
def apsResult (m : TaskManager τ) (scheduler : SchedulerModel) (call : OffloadCall τ ρ) (delay : ℚ)
    (job : Option ApsJob) : OffloadM τ ρ (TaskExecutionResult ρ) := do
  let nextRun ← lift (nextRunAt job)
  return {
    offloaded := true
    date := call.date
    handler := "APScheduler"
    expectedTbd := some (m.naturaldelta (.seconds (nextRun + delay - call.timestamp)))
    index := call.index
    heaviness := heavinessText scheduler
    taskId := some (m.taskMeta.requestId ++ ":" ++ indexText call.index)
    type := some "schedule"
    message := some "Task Added to the APSScheduler, delay or problem might occur" }

/-- `_schedule_aps_task`. A pattern of two task types is a pattern of a tuple, which no task type
matches: `datetime` and `timedelta` go to the last case. -/
def scheduleApsTask (m : TaskManager τ) (scheduler : SchedulerModel) (call : OffloadCall τ ρ) :
    OffloadM τ ρ (TaskExecutionResult ρ) := do
  let _ ← lift (m.registered scheduler.taskName)
  let delay := call.delay + (scheduler.countdown.getD 0 : ℕ)
  match scheduler.taskType with
  | .now => addJob call >>= apsResult m scheduler call delay
  | .crontab => do
    let _ ← lift scheduler.schedule.apsObject
    addJob call >>= apsResult m scheduler call delay
  | .interval => do
    let _ ← lift scheduler.schedule.apsObject
    intervalSchedule call >>= apsResult m scheduler call delay
  | taskType =>
    return {
      offloaded := false
      date := call.date
      handler := "APScheduler"
      expectedTbd := none
      index := call.index
      heaviness := none
      error := true
      taskId := some (m.taskMeta.requestId ++ ":" ++ indexText call.index)
      type := some "error"
      message := some ("Schedule type not handled error: " ++ taskType.format) }

/-! ## Dispatch -/

/-- `_normal_offload`. -/
def normalOffload (m : TaskManager τ) (scheduler : SchedulerModel) (call : OffloadCall τ ρ) :
    OffloadM τ ρ (TaskExecutionResult ρ) :=
  if scheduler.taskType = .now then
    routeOffload m scheduler none call
  else if 1 ≤ m.celeryWorkersExpected then
    triggerTaskFromScheduler m scheduler call
  else
    scheduleApsTask m scheduler call

/-- The mask of `_mix_offload`. -/
def mixMask (m : TaskManager τ) (call : OffloadCall τ ρ) : List ℕ :=
  [1, if 1 ≤ m.celeryWorkersExpected then 1 else 0, if call.available then 1 else 0, 1]

/-- `_mix_offload`. No task type matches a pattern of several of them. -/
def mixOffload (m : TaskManager τ) (scheduler : SchedulerModel) (call : OffloadCall τ ρ) :
    OffloadM τ ρ (TaskExecutionResult ρ) :=
  match scheduler.taskType with
  | .now => do
    match ← lift (call.draw.select (allowedEnvs (mixMask m call))) with
    | .route => routeOffload m scheduler (some .route) call
    | .routebkg => routeOffload m scheduler (some .routebkg) call
    | .worker => triggerTaskFromScheduler m scheduler call
    | .aps => scheduleApsTask m scheduler call
  | taskType =>
    return {
      offloaded := false
      date := call.date
      handler := "RouteHandler"
      expectedTbd := none
      index := call.index
      heaviness := none
      error := true
      taskId := some m.taskMeta.requestId
      type := none
      message := some ("TaskType not supported by the server: " ++ taskType.format) }

/-- How many more algorithms the loop can go to. -/
def algorithmRank (m : TaskManager τ) (scheduler : SchedulerModel) : Option AlgorithmType → ℕ
  | some .aps => 1
  | some .worker => if 1 ≤ m.celeryWorkersExpected then 0 else 2
  | some .route => if scheduler.taskType = .now then 0 else 3
  | _ => 0

/-- The loop of `_offload_task`; no algorithm stands for `'error'`. -/
def offloadLoop (m : TaskManager τ) (scheduler : SchedulerModel) (call : OffloadCall τ ρ) :
    Option AlgorithmType → Option String → OffloadM τ ρ (TaskExecutionResult ρ)
  | some .normal, _ => normalOffload m scheduler call
  | some .worker, fromHandlerError => do
    if 1 ≤ m.celeryWorkersExpected then
      triggerTaskFromScheduler m scheduler call
    else if call.available then
      addMessages fallbackEnvTask call.index "aps"
      offloadLoop m scheduler call (some .aps) fromHandlerError
    else if scheduler.taskType = .now then
      addMessages fallbackEnvTask call.index "route"
      offloadLoop m scheduler call (some .route) fromHandlerError
    else
      addMessagesBare
      offloadLoop m scheduler call none (some "Celery")
  | some .route, fromHandlerError => do
    if scheduler.taskType ≠ .now then
      addMessages fallbackEnvTask call.index "celery worker"
      offloadLoop m scheduler call (some .worker) fromHandlerError
    else
      routeOffload m scheduler none call
  | some .mix, _ => mixOffload m scheduler call
  | some .aps, fromHandlerError => do
    if m.apsActivated then
      scheduleApsTask m scheduler call
    else if 1 ≤ m.celeryWorkersExpected then
      addMessages fallbackEnvTask call.index "celery worker"
      offloadLoop m scheduler call (some .worker) fromHandlerError
    else if scheduler.taskType = .now then
      addMessages fallbackEnvTask call.index "route"
      offloadLoop m scheduler call (some .route) fromHandlerError
    else
      offloadLoop m scheduler call none (some "APScheduler")
  | none, fromHandlerError => do
    addMessagesBare
    return {
      offloaded := false
      date := call.date
      handler := fromHandlerError.getD "None"
      expectedTbd := none
      index := call.index
      heaviness := none
      error := true
      taskId := some m.taskMeta.requestId
      type := some "schedule"
      message := some "Was not able to fallback to other task scheduler provider" }
termination_by algorithm => algorithmRank m scheduler algorithm
decreasing_by all_goals grind [algorithmRank]

/-- The object whose `_heaviness` is read: neither `None` nor an argument `_s` has one. -/
def schedulerFor (m : TaskManager τ) (call : OffloadCall τ ρ) : Py SchedulerModel :=
  match call.s, m.scheduler with
  | none, some scheduler => .ok scheduler
  | _, _ => .error .attributeError

/-- `offload_task`. -/
def offloadTask (m : TaskManager τ) (call : OffloadCall τ ρ) : OffloadM τ ρ Unit := do
  let scheduler ← lift (schedulerFor m call)
  let weight ← lift (computeWeight call.weight scheduler.heaviness)
  let values ← offloadLoop m scheduler call (some m.taskMeta.algorithm) none
  modify fun w => { w with taskResult := w.taskResult ++ [values], weight := w.weight + weight }

/-- The calls of a request, in their order. -/
def offloadAll (m : TaskManager τ) (calls : List (OffloadCall τ ρ)) : OffloadM τ ρ Unit :=
  calls.forM (offloadTask m)

end Notifyr
