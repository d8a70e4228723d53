import Notifyr.Manager.TaskManager

/-!
# What the offloaded calls come to

Whether each call of `offload_task` returns, with one result, one share of the weight, and its
work handed to one backend or marked as an error.

- `OffloadRight`: this of the calls of a request.
- `OffloadMeets`: when a call meets it. It reads the settings, the task type, and the outcomes of
  the backends.
- `Settled`, and one lemma for each function: what a backend leaves when it returns, and when it
  does not.
- `offloadRight_iff`: the calls are right exactly if each of them meets the condition.
-/

namespace Notifyr

open EffectM

variable {τ ρ : Type}

/-! ## The property -/

/-- Where the work of a call has gone: to a backend that supports its type, or nowhere, and then
its result is marked as an error. -/
def HandedRight (taskType : TaskType) (error : Bool) : Option Backend → Prop
  | some backend => backend.supports taskType
  | none => error = true

/-- The share of a call in what a request has done. -/
structure CallShare (ρ : Type) where
  result : TaskExecutionResult ρ
  weight : ℚ
  backend : Option Backend

/-- What a share adds to the work handed over. -/
def CallShare.handed (share : CallShare ρ) : List (Backend × Option ℤ) :=
  share.backend.toList.map fun backend => (backend, share.result.index)

/-- A share as it should be. -/
structure ShareRight (m : TaskManager τ) (call : OffloadCall τ ρ) (share : CallShare ρ) :
    Prop where
  index : share.result.index = call.index
  weight : ∃ scheduler, m.scheduler = some scheduler ∧
    computeWeight call.weight scheduler.heaviness = .ok share.weight
  backend : ∃ scheduler, m.scheduler = some scheduler ∧
    HandedRight scheduler.taskType share.result.error share.backend

/-- The calls of a request all return, and what the request has done is made of one share a call,
in their order. -/
def OffloadRight (m : TaskManager τ) (calls : List (OffloadCall τ ρ)) : Prop :=
  ∃ w, (offloadAll m calls).run {} = (.ok (), w) ∧
    ∃ shares, List.Forall₂ (ShareRight m) calls shares ∧
      w.taskResult = shares.map (·.result) ∧
      w.weight = (shares.map (·.weight)).sum ∧
      w.handed = shares.flatMap (·.handed)

/-! ## The condition -/

/-- The route, or a background task of it, takes the work and returns. -/
def RouteTakes (m : TaskManager τ) (fromEnv : Option EnvSelection) (call : OffloadCall τ ρ) :
    Prop :=
  m.taskMeta.background = true ∨ fromEnv = some .routebkg ∨
    ∃ result, call.callback = .returns result

/-- Celery takes the work, under an id with the character that is looked for, and is not asked
for a schedule. -/
def CeleryTakes (m : TaskManager τ) (scheduler : SchedulerModel) (call : OffloadCall τ ρ) : Prop :=
  scheduler.taskType = .now ∧ scheduler.taskName ∈ m.registry ∧
    ∃ id, call.applyAsync = .ok id ∧ '@' ∈ id.toList

/-- APScheduler takes the work with a time for its job, or says that it does not take it; it is
not asked for a crontab or an interval. -/
def ApsTakes (m : TaskManager τ) (scheduler : SchedulerModel) (call : OffloadCall τ ρ) : Prop :=
  scheduler.taskName ∈ m.registry ∧ scheduler.taskType ∉ [.crontab, .interval] ∧
    (scheduler.taskType = .now → ∃ t, call.addJob = .ok ⟨some t⟩)

/-- The environment that is drawn takes the work. -/
def DrawTakes (m : TaskManager τ) (scheduler : SchedulerModel) (call : OffloadCall τ ρ) :
    EnvSelection → Prop
  | .route => RouteTakes m (some .route) call
  | .routebkg => True
  | .worker => CeleryTakes m scheduler call
  | .aps => ApsTakes m scheduler call

/-- No backend is left but the route, which takes what is due now. -/
def RouteOnly (m : TaskManager τ) (scheduler : SchedulerModel) (call : OffloadCall τ ρ) : Prop :=
  scheduler.taskType = .now ∧ RouteTakes m none call

/-- The algorithm `normal`. -/
def NormalMeets (m : TaskManager τ) (scheduler : SchedulerModel) (call : OffloadCall τ ρ) :
    Prop :=
  if scheduler.taskType = .now then RouteTakes m none call
  else m.celeryWorkersExpected < 1 ∧ ApsTakes m scheduler call

/-- The algorithm `mix`, which marks all but `now` as an error. -/
def MixMeets (m : TaskManager τ) (scheduler : SchedulerModel) (call : OffloadCall τ ρ) :
    Prop :=
  scheduler.taskType = .now →
    ∃ env, call.draw.select (allowedEnvs (mixMask m call)) = .ok env ∧
      DrawTakes m scheduler call env

/-- The algorithm `aps`. -/
def ApsMeets (m : TaskManager τ) (scheduler : SchedulerModel) (call : OffloadCall τ ρ) :
    Prop :=
  if m.apsActivated then ApsTakes m scheduler call
  else if 1 ≤ m.celeryWorkersExpected then CeleryTakes m scheduler call
  else RouteOnly m scheduler call

/-- The algorithm `worker`. -/
def WorkerMeets (m : TaskManager τ) (scheduler : SchedulerModel) (call : OffloadCall τ ρ) :
    Prop :=
  if 1 ≤ m.celeryWorkersExpected then CeleryTakes m scheduler call
  else if call.available ∧ m.apsActivated then ApsTakes m scheduler call
  else RouteOnly m scheduler call

/-- The algorithm `route`. -/
def RouteMeets (m : TaskManager τ) (scheduler : SchedulerModel) (call : OffloadCall τ ρ) :
    Prop :=
  if scheduler.taskType = .now then RouteTakes m none call
  else m.celeryWorkersExpected < 1 ∧ call.available ∧ m.apsActivated ∧ ApsTakes m scheduler call

/-- When an algorithm leads to a backend that takes the work of a call. -/
def AlgorithmMeets (m : TaskManager τ) (scheduler : SchedulerModel) (call : OffloadCall τ ρ) :
    AlgorithmType → Prop
  | .normal => NormalMeets m scheduler call
  | .mix => MixMeets m scheduler call
  | .worker => WorkerMeets m scheduler call
  | .route => RouteMeets m scheduler call
  | .aps => ApsMeets m scheduler call

/-- When a call meets the property: the request has a scheduler of a known heaviness, the call
brings none of its own, and its algorithm leads to a backend that takes the work. -/
def OffloadMeets (m : TaskManager τ) (call : OffloadCall τ ρ) : Prop :=
  call.s = none ∧ ∃ scheduler, m.scheduler = some scheduler ∧ scheduler.heaviness ≠ none ∧
    AlgorithmMeets m scheduler call m.taskMeta.algorithm

/-! ## What a backend leaves -/

/-- A result for a call, whose work has gone where it should; the results and the weight are as
they were. -/
structure Settled (scheduler : SchedulerModel) (call : OffloadCall τ ρ) (w : Offloads τ ρ)
    (result : TaskExecutionResult ρ) (w' : Offloads τ ρ) : Prop where
  taskResult : w'.taskResult = w.taskResult
  weight : w'.weight = w.weight
  index : result.index = call.index
  handed : ∃ backend : Option Backend,
    w'.handed = w.handed ++ backend.toList.map (fun b => (b, call.index)) ∧
      HandedRight scheduler.taskType result.error backend

variable {m : TaskManager τ} {scheduler : SchedulerModel} {call : OffloadCall τ ρ}

/-- A backend returns under a condition, and leaves a result; else it raises. -/
def TakesIf (x : OffloadM τ ρ (TaskExecutionResult ρ)) (scheduler : SchedulerModel)
    (call : OffloadCall τ ρ) (p : Prop) : Prop :=
  x.Settles p (Settled scheduler call)

/-- A message first changes nothing of this. -/
theorem TakesIf.after_message {x : OffloadM τ ρ (TaskExecutionResult ρ)} {p : Prop}
    (h : TakesIf x scheduler call p) (obj : String) :
    TakesIf (addMessages fallbackEnvTask call.index obj >>= fun _ => x) scheduler call p := by
  obtain ⟨message, hmessage⟩ : ∃ message, messageOf fallbackEnvTask call.index obj = some message :=
    ⟨_, rfl⟩
  unfold addMessages
  rw [hmessage]
  show TakesIf (modify (fun w => { w with messages := w.messages ++ [message] }) >>= fun _ => x)
    scheduler call p
  refine Settles.modify_bind h fun {w result w'} hlast => ?_
  exact ⟨hlast.taskResult, hlast.weight, hlast.index, hlast.handed⟩

/-- The work goes to a backend that supports it, and then there is a result, or an error. -/
theorem takesIf_handTo {x : OffloadM τ ρ (TaskExecutionResult ρ)} {p : Prop} {backend : Backend}
    (hsupports : backend.supports scheduler.taskType)
    (h : x.Settles p fun w result w' => w' = w ∧ result.index = call.index) :
    TakesIf (handTo backend call.index >>= fun _ => x) scheduler call p := by
  refine h.modify_bind fun {w result w'} hlast => ?_
  obtain ⟨rfl, hindex⟩ := hlast
  exact ⟨rfl, rfl, hindex, some backend, rfl, hsupports⟩

/-- An error result, and nothing was handed over. -/
theorem takesIf_error {result : TaskExecutionResult ρ} (hindex : result.index = call.index)
    (herror : result.error = true) : TakesIf (pure result) scheduler call True :=
  Returns.settles (fun w => ⟨result, w, rfl, rfl, rfl, hindex, none, (List.append_nil _).symm,
    herror⟩) trivial

/-- The text of an id is split where it has the character. -/
theorem partAfterAt_ok_iff (id : String) :
    (∃ part, partAfterAt id = .ok part) ↔ '@' ∈ id.toList := by
  unfold partAfterAt
  constructor
  · intro h
    by_contra hat
    have hsplit : id.toList.splitOn '@' = [id.toList] :=
      List.splitOnP_eq_singleton fun c hc => by
        rw [beq_eq_false_iff_ne]
        rintro rfl
        exact hat hc
    rw [hsplit] at h
    obtain ⟨part, hpart⟩ := h
    cases hpart
  · intro hat
    obtain ⟨before, after, hid⟩ := List.append_of_mem hat
    have hsplit : id.toList.splitOn '@' =
        before.splitOnP (· == '@') ++ after.splitOnP (· == '@') := by
      rw [hid]
      exact List.splitOnP_append_cons before after (beq_self_eq_true '@')
    have hlength : 1 < (id.toList.splitOn '@').length := by
      have h₁ := List.length_pos_iff.mpr (List.splitOnP_ne_nil (· == '@') before)
      have h₂ := List.length_pos_iff.mpr (List.splitOnP_ne_nil (· == '@') after)
      rw [hsplit, List.length_append]
      omega
    rw [List.getElem?_eq_getElem hlength]
    exact ⟨_, rfl⟩

/-! ## The backends -/

/-- A background task, where the task type is `now`. -/
theorem addTask_takes (hnow : scheduler.taskType = .now) :
    TakesIf (addTask m scheduler call) scheduler call True := by
  refine Returns.settles (fun w => ?_) trivial
  refine ⟨_, _, by unfold addTask; rw [run_bind, appendTaskConfig_run]; rfl, ?_⟩
  exact ⟨rfl, rfl, rfl, some .background, rfl, decide_eq_true hnow⟩

/-- A callback that asks for a retry ends the request like one that raises. -/
theorem runCallback_settles :
    (runCallback m scheduler call).Settles (∃ result, call.callback = .returns result)
      fun w result w' => w' = w ∧ result.index = call.index := by
  unfold runCallback
  cases call.callback with
  | returns result => exact Returns.settles (fun w => ⟨_, w, rfl, rfl, rfl⟩) ⟨result, rfl⟩
  | retry =>
    refine Raises.settles (fun w => ⟨.keyError, w, rfl⟩) ?_
    rintro ⟨result, h⟩
    cases h
  | raises e =>
    refine Raises.settles (raises_throw e) ?_
    rintro ⟨result, h⟩
    cases h

/-- The route, where the task type is `now`. -/
theorem routeOffload_takes (hnow : scheduler.taskType = .now) (fromEnv : Option EnvSelection) :
    TakesIf (routeOffload m scheduler fromEnv call) scheduler call
      (RouteTakes m fromEnv call) := by
  unfold routeOffload
  by_cases hbackground : (m.taskMeta.background || fromEnv = some .routebkg) = true
  · rw [if_pos hbackground]
    refine (addTask_takes hnow).of_iff (iff_of_true ?_ trivial)
    rcases Bool.or_eq_true_iff.mp hbackground with hb | henv
    · exact .inl hb
    · exact .inr (.inl (of_decide_eq_true henv))
  · rw [if_neg hbackground]
    have hsupports : Backend.route.supports scheduler.taskType := decide_eq_true hnow
    refine (takesIf_handTo hsupports runCallback_settles).of_iff ?_
    refine ⟨fun h => ?_, fun h => .inr (.inr h)⟩
    rcases h with hb | henv | h
    · exact absurd (by rw [hb]; rfl) hbackground
    · exact absurd (by rw [henv]; simp) hbackground
    · exact h

theorem registered_ok_iff (name : String) :
    (∃ u, m.registered name = .ok u) ↔ name ∈ m.registry := by
  unfold TaskManager.registered
  split_ifs with h
  · exact iff_of_true ⟨(), rfl⟩ h
  · exact iff_of_false nofun h

/-- A task that is sent with a time asks its schedule for it. -/
theorem delta_ok_iff : (∃ delta, scheduler.delta = .ok delta) ↔ scheduler.taskType = .now := by
  unfold SchedulerModel.delta
  by_cases hnow : scheduler.taskType = .now
  · rw [if_neg (not_not.mpr hnow)]
    exact iff_of_true ⟨_, rfl⟩ hnow
  · rw [if_pos hnow, scheduler.beatObject_eq]
    exact iff_of_false nofun hnow

/-- Celery. The id that it gives is split after the task was sent, and a schedule has no object
for it. -/
theorem triggerTaskFromScheduler_takes :
    TakesIf (triggerTaskFromScheduler m scheduler call) scheduler call
      (CeleryTakes m scheduler call) := by
  unfold triggerTaskFromScheduler
  split_ifs with htype
  · refine Settles.of_iff (settles_lift_bind fun delta _ => settles_lift_bind fun _ _ =>
      settles_lift_bind fun id _ => takesIf_handTo rfl (settles_lift_bind fun part _ =>
        Returns.settles (fun w => ⟨_, w, rfl, rfl, rfl⟩) trivial)) ?_
    simp only [and_true, exists_and_right, partAfterAt_ok_iff, registered_ok_iff,
      delta_ok_iff]
    rfl
  · rw [scheduler.beatObject_eq]
    refine Raises.settles (fun w => ⟨_, w, rfl⟩) ?_
    rintro ⟨hnow, -⟩
    rw [hnow] at htype
    exact htype (List.mem_cons_self ..)

/-- The end of a job that APScheduler has been given. -/
theorem apsResult_settles (delay : ℚ) (job : Option ApsJob) :
    (apsResult m scheduler call delay job).Settles (∃ t, nextRunAt job = .ok t)
      fun w result w' => w' = w ∧ result.index = call.index := by
  unfold apsResult
  refine (settles_lift_bind fun t _ =>
    Returns.settles (fun w => ⟨_, w, rfl, rfl, rfl⟩) trivial).of_iff ?_
  simp only [and_true]

/-- A job is added before its time is read. -/
theorem addJob_takes {f : Option ApsJob → OffloadM τ ρ (TaskExecutionResult ρ)}
    {p : ApsJob → Prop} (hsupports : Backend.aps.supports scheduler.taskType)
    (h : ∀ job, (f (some job)).Settles (p job) fun w result w' =>
      w' = w ∧ result.index = call.index) :
    TakesIf (addJob call >>= f) scheduler call (∃ job, call.addJob = .ok job ∧ p job) := by
  unfold addJob
  rw [bind_assoc]
  refine settles_lift_bind fun job _ => ?_
  rw [bind_assoc]
  exact takesIf_handTo hsupports (h job)

/-- Only a job with a time has one to read. -/
theorem nextRunAt_ok_iff (job : ApsJob) :
    (∃ t, nextRunAt (some job) = .ok t) ↔ ∃ t, job = ⟨some t⟩ := by
  rcases job with ⟨_ | t⟩
  · refine iff_of_false nofun ?_
    rintro ⟨t, h⟩
    cases h
  · exact iff_of_true ⟨t, rfl⟩ ⟨t, rfl⟩

/-- A result that says that the task type is not handled. -/
theorem notHandled_takes {result : TaskExecutionResult ρ} (hindex : result.index = call.index)
    (herror : result.error = true) (htype : scheduler.taskType ∉ [TaskType.crontab, .interval])
    (hnow : scheduler.taskType ≠ .now) :
    TakesIf (lift (m.registered scheduler.taskName) >>= fun _ => pure result) scheduler call
      (ApsTakes m scheduler call) := by
  refine (settles_lift_bind fun _ _ => takesIf_error hindex herror).of_iff ?_
  unfold ApsTakes
  simp only [and_true, registered_ok_iff, htype, hnow, not_false_eq_true, false_imp_iff]

/-- An attribute that the schedule does not have. -/
theorem apsObject_takes {f : Option ApsTrigger → OffloadM τ ρ (TaskExecutionResult ρ)}
    (htype : scheduler.taskType ∈ [TaskType.crontab, .interval]) :
    TakesIf (lift (m.registered scheduler.taskName) >>= fun _ =>
      lift scheduler.schedule.apsObject >>= f) scheduler call (ApsTakes m scheduler call) := by
  have hraises : (lift scheduler.schedule.apsObject >>= f).Raises := by
    rw [scheduler.apsObject_eq]
    exact fun w => ⟨.attributeError, w, rfl⟩
  refine (settles_lift_bind fun _ _ => hraises.settles not_false).of_iff ?_
  refine iff_of_false (fun h => h.2.1 htype) ?_
  rintro ⟨u, -, hfalse⟩
  exact hfalse

/-- APScheduler. -/
theorem scheduleApsTask_takes :
    TakesIf (scheduleApsTask m scheduler call) scheduler call (ApsTakes m scheduler call) := by
  unfold scheduleApsTask
  cases htype : scheduler.taskType with
  | now =>
    have hsupports : Backend.aps.supports scheduler.taskType := by
      rw [htype]
      rfl
    refine (settles_lift_bind fun _ _ =>
      addJob_takes hsupports fun job => apsResult_settles _ (some job)).of_iff ?_
    unfold ApsTakes
    rw [htype]
    simp only [exists_and_right, registered_ok_iff, nextRunAt_ok_iff]
    refine and_congr_right fun _ =>
      ⟨fun h => ?_, fun ⟨job, hjob, t, ht⟩ => ⟨by decide, fun _ => ?_⟩⟩
    · obtain ⟨t, ht⟩ := h.2 trivial
      exact ⟨_, ht, t, rfl⟩
    · exact ⟨t, ht ▸ hjob⟩
  | crontab => exact apsObject_takes (by rw [htype]; simp)
  | interval => exact apsObject_takes (by rw [htype]; simp)
  | _ => exact notHandled_takes rfl rfl (by rw [htype]; simp) (by rw [htype]; simp)

/-! ## The dispatch -/

theorem normalOffload_takes :
    TakesIf (normalOffload m scheduler call) scheduler call (NormalMeets m scheduler call) := by
  unfold normalOffload NormalMeets
  split_ifs with hnow hworkers
  · exact routeOffload_takes hnow none
  · refine triggerTaskFromScheduler_takes.of_iff ?_
    exact iff_of_false (fun h => absurd h.1 (not_lt.mpr hworkers)) (fun h => hnow h.1)
  · refine scheduleApsTask_takes.of_iff ?_
    exact and_iff_right (not_le.mp hworkers)

theorem mixOffload_takes :
    TakesIf (mixOffload m scheduler call) scheduler call (MixMeets m scheduler call) := by
  unfold mixOffload MixMeets
  cases htype : scheduler.taskType with
  | now =>
    refine (settles_lift_bind fun env _ => ?_).of_iff (forall_prop_of_true rfl)
    cases env with
    | route => exact routeOffload_takes htype _
    | worker => exact triggerTaskFromScheduler_takes
    | aps => exact scheduleApsTask_takes
    | routebkg =>
      exact (routeOffload_takes htype _).of_iff (iff_of_true trivial (.inr (.inl rfl)))
  | _ => exact (takesIf_error rfl rfl).of_iff (iff_of_true nofun trivial)

/-- No algorithm is left: the message that should say so raises. -/
theorem offloadLoop_none_takes (fromHandlerError : Option String) :
    TakesIf (offloadLoop m scheduler call none fromHandlerError) scheduler call False := by
  rw [offloadLoop]
  exact Raises.settles (raises_throw .typeError).bind not_false

theorem offloadLoop_route_now_takes (hnow : scheduler.taskType = .now)
    (fromHandlerError : Option String) :
    TakesIf (offloadLoop m scheduler call (some .route) fromHandlerError) scheduler call
      (RouteTakes m none call) := by
  rw [offloadLoop, if_neg (not_not.mpr hnow)]
  exact routeOffload_takes hnow none

theorem offloadLoop_aps_takes (fromHandlerError : Option String) :
    TakesIf (offloadLoop m scheduler call (some .aps) fromHandlerError) scheduler call
      (ApsMeets m scheduler call) := by
  rw [offloadLoop]
  unfold ApsMeets RouteOnly
  split_ifs with haps hworkers hnow
  · exact scheduleApsTask_takes
  · refine TakesIf.after_message ?_ _
    rw [offloadLoop, if_pos hworkers]
    exact triggerTaskFromScheduler_takes
  · refine (TakesIf.after_message (offloadLoop_route_now_takes hnow _) _).of_iff ?_
    exact and_iff_right hnow
  · refine (offloadLoop_none_takes _).of_iff ?_
    exact iff_of_false (fun h => hnow h.1) not_false

theorem offloadLoop_worker_takes (fromHandlerError : Option String) :
    TakesIf (offloadLoop m scheduler call (some .worker) fromHandlerError) scheduler call
      (WorkerMeets m scheduler call) := by
  rw [offloadLoop]
  unfold WorkerMeets
  by_cases hworkers : 1 ≤ m.celeryWorkersExpected
  · rw [if_pos hworkers, if_pos hworkers]
    exact triggerTaskFromScheduler_takes
  · rw [if_neg hworkers, if_neg hworkers]
    by_cases havailable : call.available = true
    · rw [if_pos havailable]
      refine (TakesIf.after_message (offloadLoop_aps_takes _) _).of_iff ?_
      unfold ApsMeets
      rw [if_neg hworkers]
      simp only [havailable, true_and]
    · have hnot : ¬(call.available = true ∧ m.apsActivated = true) := fun h => havailable h.1
      rw [if_neg havailable, if_neg hnot]
      unfold RouteOnly
      by_cases hnow : scheduler.taskType = .now
      · rw [if_pos hnow]
        refine (TakesIf.after_message (offloadLoop_route_now_takes hnow _) _).of_iff ?_
        exact and_iff_right hnow
      · rw [if_neg hnow]
        refine Raises.settles (raises_throw .typeError).bind ?_
        exact fun h => hnow h.1

theorem offloadLoop_route_takes (fromHandlerError : Option String) :
    TakesIf (offloadLoop m scheduler call (some .route) fromHandlerError) scheduler call
      (RouteMeets m scheduler call) := by
  unfold RouteMeets
  by_cases hnow : scheduler.taskType = .now
  · rw [if_pos hnow]
    exact offloadLoop_route_now_takes hnow _
  · rw [offloadLoop, if_pos hnow, if_neg hnow]
    refine (TakesIf.after_message (offloadLoop_worker_takes _) _).of_iff ?_
    -- Celery and the route do not take what is not due now
    unfold WorkerMeets CeleryTakes RouteOnly
    split_ifs with hworkers haps
    · exact iff_of_false (fun h => absurd h.1 (not_lt.mpr hworkers)) (fun h => hnow h.1)
    · exact ⟨fun h => h.2.2.2, fun h => ⟨not_le.mp hworkers, haps.1, haps.2, h⟩⟩
    · exact iff_of_false (fun h => haps ⟨h.2.1, h.2.2.1⟩) (fun h => hnow h.1)

/-- The loop, from the algorithm of the request. -/
theorem offloadLoop_takes (algorithm : AlgorithmType) :
    TakesIf (offloadLoop m scheduler call (some algorithm) none) scheduler call
      (AlgorithmMeets m scheduler call algorithm) := by
  cases algorithm with
  | normal =>
    rw [offloadLoop]
    exact normalOffload_takes
  | mix =>
    rw [offloadLoop]
    exact mixOffload_takes
  | worker => exact offloadLoop_worker_takes none
  | route => exact offloadLoop_route_takes none
  | aps => exact offloadLoop_aps_takes none

/-! ## A call, and the calls of a request -/

/-- What a call that returns adds to what the request has done. -/
def AddsShare (m : TaskManager τ) (call : OffloadCall τ ρ) (w w' : Offloads τ ρ) : Prop :=
  ∃ share, ShareRight m call share ∧
    w'.taskResult = w.taskResult ++ [share.result] ∧ w'.weight = w.weight + share.weight ∧
    w'.handed = w.handed ++ share.handed

theorem schedulerFor_ok_iff :
    schedulerFor m call = .ok scheduler ↔ call.s = none ∧ m.scheduler = some scheduler := by
  unfold schedulerFor
  rcases call.s with _ | _ <;> rcases m.scheduler with _ | _ <;> simp

/-- A heaviness that is known has a weight. -/
theorem computeWeight_ok_iff (cost : ℚ) (heaviness : Option TaskHeaviness) :
    (∃ weight, computeWeight cost heaviness = .ok weight) ↔ heaviness ≠ none := by
  cases heaviness with
  | none => exact iff_of_false nofun (fun h => h rfl)
  | some heaviness => exact iff_of_true ⟨_, rfl⟩ nofun

/-- The end of a call, after its work went somewhere. -/
theorem addsShare_of_settled {w w' : Offloads τ ρ} {result : TaskExecutionResult ρ} {weight : ℚ}
    (hscheduler : m.scheduler = some scheduler)
    (hweight : computeWeight call.weight scheduler.heaviness = .ok weight)
    (h : Settled scheduler call w result w') :
    AddsShare m call w
      { w' with taskResult := w'.taskResult ++ [result], weight := w'.weight + weight } := by
  obtain ⟨backend, hhanded, hright⟩ := h.handed
  refine ⟨⟨result, weight, backend⟩, ?_, ?_, ?_, ?_⟩
  · exact ⟨h.index, ⟨scheduler, hscheduler, hweight⟩, scheduler, hscheduler, hright⟩
  · rw [h.taskResult]
  · rw [h.weight]
  · unfold CallShare.handed
    rw [hhanded, h.index]

/-- A call returns under its condition, with its share; else it raises. -/
theorem offloadTask_settles :
    (offloadTask m call).Settles (OffloadMeets m call) fun w _ w' => AddsShare m call w w' := by
  unfold offloadTask
  have hend : ∀ (weight : ℚ) (values : TaskExecutionResult ρ),
      (modify fun w => { w with
        taskResult := w.taskResult ++ [values], weight := w.weight + weight } :
          OffloadM τ ρ Unit).Settles True fun w _ w' => w' = { w with
        taskResult := w.taskResult ++ [values], weight := w.weight + weight } :=
    fun weight values => Returns.settles (fun w => ⟨(), _, rfl, rfl⟩) trivial
  refine (settles_lift_bind fun scheduler hscheduler => settles_lift_bind fun weight hweight =>
    (offloadLoop_takes m.taskMeta.algorithm).bind (hend weight) fun hsettled hlast => ?_).of_iff ?_
  · subst hlast
    exact addsShare_of_settled (schedulerFor_ok_iff.mp hscheduler).2 hweight hsettled
  · simp only [and_true, exists_and_right, computeWeight_ok_iff, schedulerFor_ok_iff, and_assoc,
      exists_and_left]
    rfl

/-- The shares of the calls that have returned. -/
theorem shares_of_trail {calls : List (OffloadCall τ ρ)} {w w' : Offloads τ ρ}
    (h : Trail (AddsShare m) calls w w') :
    ∃ shares, List.Forall₂ (ShareRight m) calls shares ∧
      w'.taskResult = w.taskResult ++ shares.map (·.result) ∧
      w'.weight = w.weight + (shares.map (·.weight)).sum ∧
      w'.handed = w.handed ++ shares.flatMap (·.handed) := by
  induction h with
  | nil w => exact ⟨[], .nil, by simp, by simp, by simp⟩
  | cons hcall _ ih =>
    obtain ⟨share, hright, hresult, hweight, hhanded⟩ := hcall
    obtain ⟨shares, hshares, hresults, hweights, hhandeds⟩ := ih
    refine ⟨share :: shares, .cons hright hshares, ?_, ?_, ?_⟩
    · rw [hresults, hresult, List.map_cons, List.append_assoc]
      rfl
    · rw [hweights, hweight, List.map_cons, List.sum_cons, add_assoc]
    · rw [hhandeds, hhanded, List.flatMap_cons, List.append_assoc]

/-- The calls of a request are right exactly if each of them leads to a backend that takes its
work: a call that does not ends the request. -/
theorem offloadRight_iff (m : TaskManager τ) (calls : List (OffloadCall τ ρ)) :
    OffloadRight m calls ↔ ∀ call ∈ calls, OffloadMeets m call := by
  have hsettles : (offloadAll m calls).Settles (∀ call ∈ calls, OffloadMeets m call)
      fun w _ w' => Trail (AddsShare m) calls w w' :=
    settles_forM (fun _ => offloadTask_settles) calls
  constructor
  · rintro ⟨w, hrun, -⟩
    by_contra hnot
    obtain ⟨e, w', hraises⟩ := hsettles.raises hnot {}
    have hboth := hrun.symm.trans hraises
    cases hboth
  · intro hmeets
    obtain ⟨_, w, hrun, htrail⟩ := hsettles.returns hmeets {}
    obtain ⟨shares, hshares, hresults, hweights, hhandeds⟩ := shares_of_trail htrail
    refine ⟨w, hrun, shares, hshares, hresults, ?_, hhandeds⟩
    rw [hweights]
    exact zero_add _

/-! ## A failing request -/

/-- One task due now for the one Celery worker that is expected, sent under a UUID. -/
def uuidCall : OffloadCall String String where
  weight := 1
  delay := 0
  index := some 0
  task := "send_custom_sms"
  date := "2025-01-01T00:00:00"
  timestamp := 0
  available := true
  callback := .returns none
  draw := ⟨fun _ => .error .indexError, nofun⟩
  applyAsync := .ok "5f0c2f1e-8a1b-4c55-9d3e-2b7a4c1d9e60"
  scheduleId := "0"
  redbeat := .ok none
  addJob := .ok ⟨none⟩

/-- A manager with the algorithm `worker`. -/
def workerManager : TaskManager String where
  taskMeta := {
    requestId := "request"
    fallback := true
    background := true
    runtype := .sequential
    algorithm := .worker
    saveResult := false
    split := false
    retry := false }
  scheduler := some {
    taskName := "app.ntfr_tasks.task_send_custom_sms"
    taskType := .now
    countdown := none
    heaviness := some .light
    schedule := .none
    validated := ⟨⟨fun _ => .ok (), fun _ => .ok (), fun _ => .ok (), .ok (), .ok ()⟩,
      ⟨2025, 1, 1, 0, 0, 0, 0⟩, none, rfl⟩ }
  celeryWorkersExpected := 1
  apsActivated := false
  registry := ["app.ntfr_tasks.task_send_custom_sms"]
  qualname := id
  naturaldelta := fun _ => "now"

/-- The task is sent, and then its id has no second part: the call raises. -/
theorem not_offloadRight : ¬OffloadRight workerManager [uuidCall] := by
  rintro ⟨w, hrun, -⟩
  have hnot : ¬OffloadMeets workerManager uuidCall := by
    rintro ⟨-, scheduler, hscheduler, -, hmeets⟩
    cases hscheduler
    obtain ⟨-, -, id, hid, hat⟩ : CeleryTakes workerManager _ uuidCall := hmeets
    cases hid
    revert hat
    decide
  have hraises : (offloadAll workerManager [uuidCall]).Raises :=
    (offloadTask_settles.raises hnot).bind
  obtain ⟨e, w', he⟩ := hraises {}
  cases hrun.symm.trans he

end Notifyr
