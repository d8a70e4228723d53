import Notifyr.Manager.TaskManager

/-!
# The background tasks of a request

The tasks that `add_task` has kept, from `register_backgroundTask` to their execution after the
response: `app/manager/task_manager.py`.

- `CreateFrame`: the variables of the generator `_create_background_tasks`, which the callbacks it
  yields share; a callback reads them when it runs.
- `registerBackgroundTask`: the wrappers that the response gets.
- `runCallbackTask`: a callback, from its sleep to the result that it saves.
- `BackgroundRight`, `backgroundRight_iff`: each task has run once, as it was registered.
-/

namespace Notifyr

open EffectM

variable {τ ρ : Type}

/-- The variables of `_create_background_tasks`; one that has no value yet is not bound. -/
structure CreateFrame (τ : Type) where
  delay : Option ℚ := none
  toRetry : Option Bool := none
  i : Option ℕ := none
  t : Option (TaskConfig τ) := none
  task : Option τ := none

/-- A variable is read. -/
def readVar {α : Type} : Option α → Py α
  | some a => .ok a
  | none => .error .unboundLocalError

/-- The loop of `_create_background_tasks` goes to its next task. -/
def CreateFrame.next (frame : CreateFrame τ) (entry : TaskConfig τ × ℕ) : CreateFrame τ :=
  { frame with i := some entry.2, t := some entry.1, task := some entry.1.task }

/-- `_create_background_tasks`, run to its end: its variables then, and how many callbacks it has
yielded. The callbacks differ in nothing, since all of them read these variables. -/
def createBackgroundTasks (taskMeta : TaskMeta) (tasks : List (TaskConfig τ)) :
    Py (CreateFrame τ × ℕ) := do
  let frame : CreateFrame τ := {}
  let t ← readVar frame.t
  let frame := { frame with delay := some t.delay }
  let frame := { frame with toRetry := some taskMeta.retry }
  return (tasks.zipIdx.foldl CreateFrame.next frame, tasks.length)

/-- A function added to the `BackgroundTasks` of the response: the wrapper of a callback, or the
one that gathers the list `callbacks`, to which nothing is added. -/
inductive Wrapper (τ : Type)
  | one (frame : CreateFrame τ)
  | gather

/-- `register_backgroundTask`. -/
def registerBackgroundTask (taskMeta : TaskMeta) (tasks : List (TaskConfig τ)) :
    Py (List (Wrapper τ)) := do
  let (frame, callbacks) ← createBackgroundTasks taskMeta tasks
  match taskMeta.runtype with
  | .sequential => return List.replicate callbacks (.one frame)
  | .parallel => return [.gather]

/-! ## Execution -/

/-- What running a task comes to; a `TaskRetryError` carries an error. -/
inductive TaskOutcome (ρ : Type)
  | returns (result : Option ρ)
  | retry (error : PyErr)
  | raises (e : PyErr)

/-- What is saved of a task: its result, or what `parse_error` makes of an error. -/
inductive BkgResult (ρ : Type)
  | value (result : Option ρ)
  | error (e : PyErr) (bypass : Bool)

/-- What the tasks come to and how long they take, and what Redis answers to `hset`. -/
structure BkgEnv (τ ρ : Type) where
  outcome : τ → TaskOutcome ρ
  took : τ → ℚ
  hset : BkgResult ρ → Py Unit

/-- What the execution has done: the time, the gauge of background tasks, each task with the time
at which it was run, and the results by their index. -/
structure BkgWorld (τ ρ : Type) where
  now : ℚ := 0
  gauge : ℤ := 0
  runs : List (τ × ℚ) := []
  stored : List (String × BkgResult ρ) := []

/-- The result of a task. The scheduler of a request is no `s`, so a retry is bypassed. -/
def bkgResult : TaskOutcome ρ → BkgResult ρ
  | .returns result => .value result
  | .retry error => .error error true
  | .raises e => .error e false

/-- `asyncio.sleep`. -/
def sleep (seconds : ℚ) : EffectM (BkgWorld τ ρ) Unit :=
  modify fun w => { w with now := w.now + seconds }

/-- `gauge_inc`, and `gauge_dec` for a negative number. -/
def gaugeAdd (n : ℤ) : EffectM (BkgWorld τ ρ) Unit :=
  modify fun w => { w with gauge := w.gauge + n }

/-- `await task()`. -/
def awaitTask (env : BkgEnv τ ρ) (task : τ) : EffectM (BkgWorld τ ρ) (BkgResult ρ) := do
  modify fun w => { w with runs := w.runs ++ [(task, w.now)], now := w.now + env.took task }
  return bkgResult (env.outcome task)

/-- `store_bkg_result` under an index. -/
def storeBkgResult (env : BkgEnv τ ρ) (data : BkgResult ρ) (index : String) :
    EffectM (BkgWorld τ ρ) Unit := do
  lift (env.hset data)
  modify fun w => { w with stored := w.stored ++ [(index, data)] }

/-- `callback` of `_create_background_tasks`. -/
def runCallbackTask (env : BkgEnv τ ρ) (taskMeta : TaskMeta) (frame : CreateFrame τ) :
    EffectM (BkgWorld τ ρ) Unit := do
  let delay ← lift (readVar frame.delay)
  if 0 < delay then sleep delay
  gaugeAdd 1
  let task ← lift (readVar frame.task)
  let result ← awaitTask env task
  if taskMeta.saveResult then
    let i ← lift (readVar frame.i)
    storeBkgResult env result (toString i)
  gaugeAdd (-1)

/-- A function of the response's background tasks. -/
def runWrapper (env : BkgEnv τ ρ) (taskMeta : TaskMeta) :
    Wrapper τ → EffectM (BkgWorld τ ρ) Unit
  | .one frame => do
    sleep (1 / 10)
    runCallbackTask env taskMeta frame
  | .gather => sleep (1 / 10)

/-- `register_backgroundTask`, and the execution of the response's background tasks. -/
def runBackground (env : BkgEnv τ ρ) (taskMeta : TaskMeta) (tasks : List (TaskConfig τ)) :
    EffectM (BkgWorld τ ρ) Unit := do
  let wrappers ← lift (registerBackgroundTask taskMeta tasks)
  wrappers.forM (runWrapper env taskMeta)

/-! ## What has run -/

/-- A call of `add_task`. -/
def registerTask (m : TaskManager τ) (scheduler : SchedulerModel) (call : OffloadCall τ ρ) :
    OffloadM τ ρ Unit := do
  let _ ← addTask m scheduler call

/-- The tasks that `add_task` has kept of some calls. -/
def registeredTasks (m : TaskManager τ) (scheduler : SchedulerModel)
    (calls : List (OffloadCall τ ρ)) : List (TaskConfig τ) :=
  ((calls.forM (registerTask m scheduler)).run {}).2.taskConfig

/-- The registered tasks have run, in some order, each of them once, not before its delay, and its
result is saved under its index if results are. -/
def BackgroundRight (env : BkgEnv τ ρ) (taskMeta : TaskMeta) (tasks : List (TaskConfig τ)) :
    Prop :=
  let w := ((runBackground env taskMeta tasks).run {}).2
  ∃ order : List (TaskConfig τ × ℕ), order.Perm tasks.zipIdx ∧
    List.Forall₂ (fun entry run => run.1 = entry.1.task ∧ entry.1.delay ≤ run.2) order w.runs ∧
    (taskMeta.saveResult = true → w.stored.Perm (order.map fun entry =>
      (toString entry.2, bkgResult (env.outcome entry.1.task))))

/-- A call adds its task with its delay. -/
theorem registerTask_run (m : TaskManager τ) (scheduler : SchedulerModel) (call : OffloadCall τ ρ)
    (w : Offloads τ ρ) :
    ∃ w', (registerTask m scheduler call).run w = (.ok (), w') ∧
      w'.taskConfig = w.taskConfig ++ [⟨call.task, call.delay⟩] := by
  refine ⟨{ w with
    ttd := if w.taskConfig.length = 0 then w.ttd + call.delay else w.ttd
    tt := w.tt + call.delay
    taskConfig := w.taskConfig ++ [⟨call.task, call.delay⟩]
    handed := w.handed ++ [(.background, call.index)] }, ?_, rfl⟩
  unfold registerTask addTask
  rw [bind_assoc, run_bind, appendTaskConfig_run]
  rfl

/-- Each call adds one task with its delay, in the order of the calls. -/
theorem registeredTasks_eq (m : TaskManager τ) (scheduler : SchedulerModel)
    (calls : List (OffloadCall τ ρ)) :
    registeredTasks m scheduler calls = calls.map fun call => ⟨call.task, call.delay⟩ := by
  have hrun : ∀ w : Offloads τ ρ,
      ((calls.forM (registerTask m scheduler)).run w).2.taskConfig =
        w.taskConfig ++ calls.map fun call => ⟨call.task, call.delay⟩ := by
    induction calls with
    | nil => exact fun w => (List.append_nil _).symm
    | cons call calls ih =>
      intro w
      show ((registerTask m scheduler call >>= fun _ =>
        calls.forM (registerTask m scheduler)).run w).2.taskConfig = _
      obtain ⟨w', hcall, hconfig⟩ := registerTask_run m scheduler call w
      rw [run_bind, hcall]
      dsimp only
      rw [ih, hconfig, List.append_assoc]
      rfl
  exact hrun {}

/-- The generator reads `t` before its loop has bound it, so that nothing is added to the response,
whatever the tasks. -/
theorem runBackground_run (env : BkgEnv τ ρ) (taskMeta : TaskMeta) (tasks : List (TaskConfig τ))
    (w : BkgWorld τ ρ) :
    (runBackground env taskMeta tasks).run w = (.error .unboundLocalError, w) := rfl

/-- The registered tasks have run as they should only if there is none. -/
theorem backgroundRight_iff (env : BkgEnv τ ρ) (m : TaskManager τ) (scheduler : SchedulerModel)
    (calls : List (OffloadCall τ ρ)) :
    BackgroundRight env m.taskMeta (registeredTasks m scheduler calls) ↔ calls = [] := by
  unfold BackgroundRight
  simp only [runBackground_run, registeredTasks_eq]
  constructor
  · rintro ⟨order, hperm, hruns, -⟩
    have horder : order = [] := List.forall₂_nil_right_iff.mp hruns
    subst horder
    have hzip := List.nil_perm.mp hperm
    rw [List.zipIdx_eq_nil_iff, List.map_eq_nil_iff] at hzip
    exact hzip
  · rintro rfl
    exact ⟨[], .refl _, .nil, fun _ => .refl _⟩

/-- One task to be run at once, and results are not saved. -/
theorem not_backgroundRight :
    ¬BackgroundRight (⟨fun _ => .returns none, fun _ => 0, fun _ => .ok ()⟩ : BkgEnv String Unit)
      ⟨"request", true, true, .sequential, .route, false, false, false⟩
      [⟨"send_custom_sms", 0⟩] := by
  rintro ⟨order, hperm, hruns, -⟩
  have horder : order = [] := List.forall₂_nil_right_iff.mp hruns
  subst horder
  cases List.nil_perm.mp hperm

end Notifyr
