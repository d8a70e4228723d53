import Mathlib.Data.Rat.Defs
import Notifyr.Runtime.Python

/-!
# The steps of an ingest task

`StepRunner` (`app/classes/step.py`), which runs a step of a task as the block of an
`async with`, and the wrapper of `RegisterTask` (`app/data_ingest_tasks.py`) around a run of the
task.

- `Step`: the record of a job's steps; `Step.jsonRoundTrip` is what a later run finds of it.
- `aenter`, `aexit`: entering and leaving a step.
- `runStep`, `runTask`: a step and a run of a task, with what happened in them.
- `runAttempt`, `runJob`: a run as the wrapper runs it, and the runs of a job.
- `StepsSound`: what the runs of a job owe; `stepsSound_iff` says for which jobs it is paid.
-/

namespace Notifyr

open Theory

/-- A local variable of a Python function. -/
inductive Local (α : Type)
  | unassigned
  | assigned (a : α)

/-- Reading a local variable. -/
def Local.read {α : Type} : Local α → Py α
  | unassigned => .error .unboundLocalError
  | assigned a => .ok a

/-! ## The record of the steps -/

/-- A key of `steps`: the index of a step, or what JSON makes of it. -/
inductive StepKey
  | int (n : Int)
  | str (s : String)
  deriving DecidableEq

/-- `StepMeta`. -/
structure StepMeta where
  success : Bool
  time : Rat
  date : String

/-- `Step`; `P` are the values of `current_params`. -/
structure Step (P : Type) where
  currentStep : Int
  steps : Dict StepKey StepMeta
  currentParams : Option P

/-- `Step(current_step=n, steps={}, current_params=None)`. -/
def Step.start (P : Type) (n : Int) : Step P := ⟨n, .empty, none⟩

/-- The keys of a JSON object are texts. -/
def StepKey.toJson : StepKey → StepKey
  | int n => str (toString n)
  | str s => str s

/-- A record as it is read back after it was stored. -/
def Step.jsonRoundTrip {P : Type} (state : Step P) : Step P :=
  { state with steps := Dict.ofEntries (state.steps.entries.map fun e => (e.1.toJson, e.2)) }

/-! ## A step -/

/-- What the body of a step can raise: `SkipStep`, `Retry`, or anything else. -/
inductive BodyExc
  | skipStep
  | retry
  | other (name : String)
  deriving DecidableEq

/-- What a run can raise: an exception of a body, or one that leaving a step raised. -/
inductive RunExc
  | body (e : BodyExc)
  | exit (e : PyErr)
  deriving DecidableEq

/-- The clock of a run: how long a step took, and the time of day. -/
structure Clock where
  elapsed : Rat
  isoformat : String

/-- `__aenter__`: the state, and whether the step is to be skipped. -/
def aenter {P : Type} (stepIndex : Int) (params : Option P) (state : Step P) : Step P × Bool :=
  let state := match params with
    | some p => { state with currentParams := some p }
    | none => state
  if StepKey.int stepIndex ∈ state.steps.keys then (state, true)
  else if state.currentStep ≥ stepIndex then (state, true)
  else (state, false)

/-- `__aexit__`: the state, and whether the exception is suppressed, or what is raised. -/
def aexit {P : Type} (clock : Clock) (stepIndex : Int) (excType : Option BodyExc)
    (state : Step P) : Step P × Py Bool :=
  -- `now` is assigned further down, so it is local and has no value yet
  let now : Local String := .unassigned
  match now.read with
  | .error e => (state, .error e)
  | .ok date =>
    let entry : StepMeta := ⟨true, clock.elapsed, date⟩
    let state := { state with steps := state.steps.set (.int stepIndex) entry }
    match excType with
    | none => ({ state with currentStep := stepIndex }, .ok true)
    | some .skipStep => (state, .ok true)
    | some _ =>
      ({ state with steps := state.steps.set (.int stepIndex) { entry with success := false } },
        .ok false)

/-- The body of a step: it may set `current_params`, and raise. -/
abbrev Body (P : Type) := Option P → Option P × Option BodyExc

/-- What became of the body of a step. -/
inductive BodyResult
  | skipped
  | completed
  | raised (e : BodyExc)

/-- A step that was run: its index, its body, and what it raised. -/
structure StepRecord where
  index : Int
  result : BodyResult
  exit : Option RunExc

/-- A step of a task: its index and the parameters of its `StepRunner`. -/
structure TaskStep (P : Type) where
  index : Int
  params : Option P

/-- The block of a step; its first statement is `skip()`. -/
def runBlock {P : Type} (skip : Bool) (body : Body P) (state : Step P) :
    Step P × BodyResult × Option BodyExc :=
  if skip then (state, .skipped, some .skipStep)
  else
    let (currentParams, exc) := body state.currentParams
    let state := { state with currentParams }
    match exc with
    | none => (state, .completed, none)
    | some e => (state, .raised e, some e)

/-- `async with StepRunner(step, index, params) as skip: …`. -/
def runStep {P : Type} (clock : Clock) (step : TaskStep P) (body : Body P) (state : Step P) :
    Step P × StepRecord :=
  let (state, skip) := aenter step.index step.params state
  let (state, result, exc) := runBlock skip body state
  match aexit clock step.index exc state with
  | (state, .error e) => (state, ⟨step.index, result, some (.exit e)⟩)
  | (state, .ok true) => (state, ⟨step.index, result, none⟩)
  | (state, .ok false) => (state, ⟨step.index, result, exc.map .body⟩)

/-- The steps of a task in order, up to the first that raises. -/
def runTask {P : Type} (clock : Clock) (bodies : Int → Body P) :
    List (TaskStep P) → Step P → Step P × List StepRecord × Option RunExc
  | [], state => (state, [], none)
  | step :: steps, state =>
    match runStep clock step (bodies step.index) state with
    | (state, record) =>
      match record.exit with
      | some e => (state, [record], some e)
      | none =>
        match runTask clock bodies steps state with
        | (state, records, exc) => (state, record :: records, exc)

/-! ## The runs of a job -/

/-- A task: its steps, and the index of its cleanup step. -/
structure IngestTask (P : Type) where
  steps : List (TaskStep P)
  cleanup : Int

/-- What a run meets: the clock and the bodies of its steps; what the refund of credits raises,
if anything; and the bodies of the steps when the refund runs the task again. -/
structure JobRun (P : Type) where
  clock : Clock
  bodies : Int → Body P
  refundError : Option PyErr
  cleanupBodies : Int → Body P

/-- The wrapper of `RegisterTask`: the steps that were run, and the record that the next run is
given. Only `Retry` stores a record; any other exception runs the task for its cleanup. -/
def runAttempt {P : Type} (task : IngestTask P) (stored : Option (Step P)) (a : JobRun P) :
    List StepRecord × Option (Step P) :=
  let step := stored.getD (.start P 0)
  match runTask a.clock a.bodies task.steps step with
  | (_, records, none) => (records, stored)
  | (step, records, some (.body .retry)) => (records, some step.jsonRoundTrip)
  | (step, records, some _) =>
    match a.refundError with
    | some _ => (records, stored)
    | none =>
      if step.currentStep < task.cleanup then
        let rerun := runTask a.clock a.cleanupBodies task.steps (.start P (task.cleanup - 1))
        (records ++ rerun.2.1, stored)
      else (records, stored)

/-- The runs of a job: the steps of each run, and the record stored after it. -/
def runJob {P : Type} (task : IngestTask P) :
    Option (Step P) → List (JobRun P) → List (List StepRecord × Option (Step P))
  | _, [] => []
  | stored, a :: attempts =>
    let run := runAttempt task stored a
    run :: runJob task run.2 attempts

/-! ## What the runs of a job owe -/

/-- The body was run. -/
def StepRecord.Ran (r : StepRecord) : Prop := r.result ≠ .skipped

/-- The body was run and failed, or asked for a retry. -/
def StepRecord.Failed (r : StepRecord) : Prop := ∃ e, r.result = .raised e ∧ e ≠ .skipStep

/-- What leaving a step owes: the exception of the body, `SkipStep` excepted. -/
def BodyResult.owed : BodyResult → Option RunExc
  | skipped => none
  | completed => none
  | raised .skipStep => none
  | raised e => some (.body e)

/-- The steps before a step. -/
def IngestTask.earlier {P : Type} (task : IngestTask P) (index : Int) : List Int :=
  (task.steps.map TaskStep.index).takeWhile (· ≠ index)

/-- What the runs of a job owe. -/
structure StepsSound {P : Type} (task : IngestTask P)
    (runs : List (List StepRecord × Option (Step P))) : Prop where
  /-- A step whose body completed is never run again. -/
  once : (runs.flatMap Prod.fst).Pairwise fun r r' =>
    r.result = .completed → r'.index = r.index → ¬ r'.Ran
  /-- A step whose body failed runs again in the next run. -/
  again : runs.IsChain fun run run' =>
    ∀ r ∈ run.1, r.Failed → ∃ r' ∈ run'.1, r'.index = r.index ∧ r'.Ran
  /-- A body runs only after all earlier steps completed or were skipped. -/
  ordered : ∀ pre r post, runs.flatMap Prod.fst = pre ++ r :: post → r.Ran →
    ∀ i ∈ task.earlier r.index, ∃ r' ∈ pre, r'.index = i ∧ r'.result.owed = none
  /-- Leaving a step raises what its body raised. -/
  exits : ∀ r ∈ runs.flatMap Prod.fst, r.exit = r.result.owed
  /-- The stored `current_step` never decreases. -/
  monotone : ((runs.map fun run => (run.2.getD (.start P 0)).currentStep)).Pairwise (· ≤ ·)

/-! ## When it is paid -/

section Steps

variable {P : Type} (clock : Clock)

/-- Leaving a step raises, whatever its body did, and leaves the record as it is. -/
theorem aexit_eq (stepIndex : Int) (excType : Option BodyExc) (state : Step P) :
    aexit clock stepIndex excType state = (state, .error .unboundLocalError) := rfl

theorem runStep_exit (step : TaskStep P) (body : Body P) (state : Step P) :
    (runStep clock step body state).2.exit = some (.exit .unboundLocalError) := rfl

/-- A run of a task ends with its first step. -/
theorem runTask_cons (bodies : Int → Body P) (step : TaskStep P) (steps : List (TaskStep P))
    (state : Step P) :
    runTask clock bodies (step :: steps) state =
      ((runStep clock step (bodies step.index) state).1,
        [(runStep clock step (bodies step.index) state).2],
        some (.exit .unboundLocalError)) := rfl

end Steps

/-- A task without steps does nothing. -/
theorem runAttempt_nil {P : Type} {task : IngestTask P} (h : task.steps = [])
    (stored : Option (Step P)) (a : JobRun P) : runAttempt task stored a = ([], stored) := by
  unfold runAttempt
  rw [h]
  rfl

theorem runJob_nil {P : Type} {task : IngestTask P} (h : task.steps = [])
    (stored : Option (Step P)) (attempts : List (JobRun P)) :
    runJob task stored attempts = List.replicate attempts.length ([], stored) := by
  induction attempts with
  | nil => rfl
  | cons a attempts ih =>
    rw [runJob, runAttempt_nil h]
    show ([], stored) :: runJob task stored attempts = _
    rw [ih]
    rfl

/-- The steps of the first pass are among the steps of a run. -/
theorem mem_runAttempt {P : Type} {task : IngestTask P} {stored : Option (Step P)} {a : JobRun P}
    {r : StepRecord}
    (h : r ∈ (runTask a.clock a.bodies task.steps (stored.getD (.start P 0))).2.1) :
    r ∈ (runAttempt task stored a).1 := by
  unfold runAttempt
  dsimp only
  rcases hrun : runTask a.clock a.bodies task.steps (stored.getD (.start P 0)) with
    ⟨step, records, exc⟩
  rw [hrun] at h
  split
  · rename_i heq
    cases heq
    exact h
  · rename_i heq
    cases heq
    exact h
  · rename_i heq
    cases heq
    cases a.refundError with
    | some e => exact h
    | none =>
      dsimp only
      split
      · exact List.mem_append_left _ h
      · exact h

/-- The first run of a job with a step leaves that step with an exception of its own. -/
theorem runAttempt_first {P : Type} {task : IngestTask P} {step : TaskStep P}
    {steps : List (TaskStep P)} (h : task.steps = step :: steps) (stored : Option (Step P))
    (a : JobRun P) :
    ∃ r ∈ (runAttempt task stored a).1, r.exit = some (.exit .unboundLocalError) := by
  refine ⟨(runStep a.clock step (a.bodies step.index) (stored.getD (.start P 0))).2, ?_,
    runStep_exit a.clock step _ _⟩
  refine mem_runAttempt ?_
  rw [h, runTask_cons]
  exact List.mem_singleton.mpr rfl

/-- No body owes the exception of leaving its step. -/
theorem BodyResult.owed_ne_exit (result : BodyResult) (e : PyErr) :
    result.owed ≠ some (.exit e) := by
  cases result with
  | skipped => nofun
  | completed => nofun
  | raised exc => cases exc <;> nofun

/-- Runs in which no step is run owe nothing. -/
theorem stepsSound_replicate {P : Type} (task : IngestTask P) (n : Nat) (stored : Option (Step P)) :
    StepsSound task (List.replicate n ([], stored)) := by
  have hflat : (List.replicate n (([] : List StepRecord), stored)).flatMap Prod.fst = [] :=
    List.flatMap_eq_nil_iff.mpr fun run hrun => by rw [List.eq_of_mem_replicate hrun]
  refine ⟨?_, ?_, ?_, ?_, ?_⟩
  · rw [hflat]
    exact List.Pairwise.nil
  · exact List.Pairwise.isChain (List.pairwise_replicate.mpr (.inr (List.forall_mem_nil _)))
  · intro pre r post hsplit
    rw [hflat] at hsplit
    exact absurd hsplit.symm (by simp)
  · rw [hflat]
    exact List.forall_mem_nil _
  · rw [List.map_replicate]
    exact List.pairwise_replicate.mpr (.inr (Int.le_refl _))

/-- **The runs of a job are sound exactly if no step is ever run.** -/
theorem stepsSound_iff {P : Type} (task : IngestTask P) (attempts : List (JobRun P)) :
    StepsSound task (runJob task none attempts) ↔ task.steps = [] ∨ attempts = [] := by
  constructor
  · intro h
    cases hsteps : task.steps with
    | nil => exact .inl rfl
    | cons step steps =>
      cases attempts with
      | nil => exact .inr rfl
      | cons a attempts =>
        obtain ⟨r, hr, hexit⟩ := runAttempt_first hsteps none a
        have hmem : r ∈ (runJob task none (a :: attempts)).flatMap Prod.fst := by
          rw [runJob]
          exact List.mem_append_left _ hr
        have howed := h.exits r hmem
        rw [hexit] at howed
        exact absurd howed.symm (r.result.owed_ne_exit _)
  · rintro (hsteps | rfl)
    · rw [runJob_nil hsteps]
      exact stepsSound_replicate task _ _
    · exact stepsSound_replicate task 0 none

/-- The task of a file, whose three bodies complete: its one run ends with an exception at the
first step, and completes no step. -/
theorem not_stepsSound :
    let task : IngestTask Unit := ⟨[⟨1, none⟩, ⟨2, none⟩, ⟨3, none⟩], 3⟩
    let completes : Int → Body Unit := fun _ params => (params, none)
    let attempt : JobRun Unit := ⟨⟨0, ""⟩, completes, some .typeError, completes⟩
    ((runJob task none [attempt]).flatMap Prod.fst).map StepRecord.exit =
        [some (.exit .unboundLocalError)] ∧
      ¬ StepsSound task (runJob task none [attempt]) := by
  intro task completes attempt
  refine ⟨rfl, fun h => ?_⟩
  have hexit := h.exits ⟨1, .completed, some (.exit .unboundLocalError)⟩
    (List.mem_append_left _ (List.mem_singleton.mpr rfl))
  exact absurd hexit.symm (BodyResult.owed_ne_exit _ _)

end Notifyr
