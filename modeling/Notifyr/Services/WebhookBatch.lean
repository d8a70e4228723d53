import Mathlib.Data.List.Perm.Basic
import Notifyr.Theory.Dict
import Notifyr.Theory.Runs

/-!
# Batches of webhook payloads

`WebhookAdapterInterface` (`app/interface/webhook_adapter.py`), for an adapter with a batch
configuration whose `deliver_async` is wrapped by `batch`.

- `BatchTask`: where a call of `add`, `flush` or `deliver_async` stands; between two of these places
  other calls go on.
- `perform`, `batchStep`: one step of a call, and of an adapter with any calls.
- `BatchRight`: all calls end, and one more flush delivers every payload once.
- `batchRight_iff`: for which runs this is so.
-/

namespace Notifyr

open Theory

/-! ## The adapter -/

/-- What is handed over to be delivered: a payload, or the values of a buffer. -/
inductive Delivery (α : Type)
  | payload (value : α)
  | batch (values : List (Delivery α))

/-- `batch_config['mode']`. -/
inductive BatchMode
  | single
  | group

/-- `batch_config`, and what `generateId` makes when it is seeded with the clock. -/
structure BatchConfig (κ : Type) where
  maxBatch : ℕ
  mode : BatchMode
  generateId : ℕ → κ

/-- The place of a call. -/
inductive BatchTask (α : Type)
  /-- `add`, before it has the lock of a reader. -/
  | addStore (payload : Delivery α)
  /-- `add`, after it has left the lock. -/
  | addTest (len : ℕ)
  /-- `flush`, at its beginning. -/
  | flushTest
  /-- `flush`, before it has the lock of a writer. -/
  | flushTake
  /-- `deliver_async`. -/
  | deliver (payload : Delivery α)

/-- An adapter and the calls that have not ended; `delivered` is what the function that `batch`
wraps has got. -/
structure BatchState (κ α : Type) where
  buffers : Dict κ (Delivery α) := Dict.empty
  clock : ℕ := 0
  tasks : List (BatchTask α) := []
  delivered : List (Delivery α) := []

/-- What happens to an adapter: a call comes, or the call at a position goes on. -/
inductive BatchAction (α : Type)
  | add (payload : α)
  | flush
  | go (i : ℕ)

variable {κ α : Type} [DecidableEq κ]

/-- One step of a call, and the place where it goes on, if it does not end. Either mode hands over
the whole batch; `batch` calls `add` and not the function that it wraps. -/
def perform (cfg : BatchConfig κ) (s : BatchState κ α) :
    BatchTask α → BatchState κ α × Option (BatchTask α)
  | .addStore payload =>
    let buffers := s.buffers.set (cfg.generateId s.clock) payload
    ({ s with buffers, clock := s.clock + 1 }, some (.addTest buffers.entries.length))
  | .addTest len => (s, if cfg.maxBatch ≤ len then some .flushTest else none)
  | .flushTest => (s, if s.buffers.entries = [] then none else some .flushTake)
  | .flushTake =>
    -- the buffer may have become empty since the test; then an empty batch is handed over
    let batch := .batch (s.buffers.entries.map Prod.snd)
    ({ s with buffers := Dict.empty }, match cfg.mode with
      | .single => some (.deliver batch)
      | .group => some (.deliver batch))
  -- `is_batch_allowed` holds here, so the wrapper never gets to the function it wraps
  | .deliver payload => (s, some (.addStore payload))

/-- A step of an adapter. -/
def batchStep (cfg : BatchConfig κ) (s : BatchState κ α) : BatchAction α → BatchState κ α
  | .add payload => { s with tasks := s.tasks ++ [.addStore (.payload payload)] }
  | .flush => { s with tasks := s.tasks ++ [.flushTest] }
  | .go i =>
    match s.tasks[i]? with
    | none => s
    | some task =>
      let (s', next) := perform cfg s task
      { s' with tasks := s.tasks.take i ++ next.toList ++ s.tasks.drop (i + 1) }

/-- The adapter after a run. -/
def batchRun (cfg : BatchConfig κ) (run : List (BatchAction α)) : BatchState κ α :=
  runFrom (batchStep cfg) {} run

/-! ## What batches are for -/

/-- The payload that an action adds. -/
def BatchAction.added? : BatchAction α → Option α
  | add payload => some payload
  | flush => none
  | go _ => none

/-- The payloads that were added in a run. -/
def addedIn (run : List (BatchAction α)) : List α := run.filterMap BatchAction.added?

/-- A call that has not ended goes on. -/
def GoesOn (s : BatchState κ α) (action : BatchAction α) : Prop :=
  ∃ i < s.tasks.length, action = .go i

/-- The calls of an adapter go on, and no other one comes. -/
def Waits (cfg : BatchConfig κ) (s : BatchState κ α) (steps : List (BatchAction α)) : Prop :=
  Always (batchStep cfg) GoesOn s steps

/-- Whatever the order is, the calls of an adapter end. -/
def Terminates (cfg : BatchConfig κ) (s : BatchState κ α) : Prop :=
  ∃ bound, ∀ steps, Waits cfg s steps → steps.length ≤ bound

/-- Each payload is delivered once: by itself, or in one list. -/
def Served (mode : BatchMode) (added : List α) (delivered : List (Delivery α)) : Prop :=
  match mode with
  | .single => delivered.Perm (added.map .payload)
  | .group => ∃ batches : List (List α),
      delivered = batches.map (fun batch => .batch (batch.map .payload)) ∧
        batches.flatten.Perm added

/-- All calls of a run end; and when they have, so does one more flush, which leaves every payload
delivered and none in the buffer. -/
structure BatchRight (cfg : BatchConfig κ) (run : List (BatchAction α)) : Prop where
  ends : Terminates cfg (batchRun cfg run)
  flushEnds : ∀ steps, Waits cfg (batchRun cfg run) steps →
    (batchRun cfg (run ++ steps)).tasks = [] →
      Terminates cfg (batchRun cfg (run ++ steps ++ [.flush]))
  served : ∀ steps steps', Waits cfg (batchRun cfg run) steps →
    (batchRun cfg (run ++ steps)).tasks = [] →
    Waits cfg (batchRun cfg (run ++ steps ++ [.flush])) steps' →
    (batchRun cfg (run ++ steps ++ [.flush] ++ steps')).tasks = [] →
      Served cfg.mode (addedIn run) (batchRun cfg (run ++ steps ++ [.flush] ++ steps')).delivered ∧
        (batchRun cfg (run ++ steps ++ [.flush] ++ steps')).buffers = Dict.empty

/-! ## What one step does -/

variable (cfg : BatchConfig κ)

theorem perform_delivered (s : BatchState κ α) (task : BatchTask α) :
    (perform cfg s task).1.delivered = s.delivered := by
  cases task <;> rfl

/-- Nothing is ever delivered. -/
theorem batchStep_delivered (s : BatchState κ α) (action : BatchAction α) :
    (batchStep cfg s action).delivered = s.delivered := by
  cases action with
  | add payload => rfl
  | flush => rfl
  | go i =>
    unfold batchStep
    dsimp only
    split
    · rfl
    · exact perform_delivered cfg s _

theorem runFrom_delivered (s : BatchState κ α) (steps : List (BatchAction α)) :
    (runFrom (batchStep cfg) s steps).delivered = s.delivered := by
  induction steps generalizing s with
  | nil => rfl
  | cons action steps ih =>
    rw [runFrom_cons, ih]
    exact batchStep_delivered cfg s action

theorem batchRun_append (run steps : List (BatchAction α)) :
    batchRun cfg (run ++ steps) = runFrom (batchStep cfg) (batchRun cfg run) steps :=
  runFrom_append (batchStep cfg) {} run steps

/-- Calls that end come to an end. -/
theorem exists_quiet {s : BatchState κ α} (h : Terminates cfg s) :
    ∃ steps, Waits cfg s steps ∧ (runFrom (batchStep cfg) s steps).tasks = [] := by
  obtain ⟨bound, hbound⟩ := h
  induction bound generalizing s with
  | zero =>
    by_cases hnone : s.tasks = []
    · exact ⟨[], trivial, hnone⟩
    · have hlen := hbound [.go 0] ⟨⟨0, List.length_pos_of_ne_nil hnone, rfl⟩, trivial⟩
      exact absurd hlen (by simp)
  | succ bound ih =>
    by_cases hnone : s.tasks = []
    · exact ⟨[], trivial, hnone⟩
    · have hfirst : GoesOn s (.go 0 : BatchAction α) :=
        ⟨0, List.length_pos_of_ne_nil hnone, rfl⟩
      -- the first call goes on, and what it leaves ends within one step less
      have hrest : ∀ steps, Waits cfg (batchStep cfg s (.go 0)) steps →
          steps.length ≤ bound := by
        intro steps hsteps
        have hlen := hbound (.go 0 :: steps) ⟨hfirst, hsteps⟩
        rw [List.length_cons] at hlen
        omega
      obtain ⟨steps, hsteps, hquiet⟩ := ih hrest
      exact ⟨.go 0 :: steps, ⟨hfirst, hsteps⟩, hquiet⟩

theorem served_nil_iff (mode : BatchMode) (added : List α) :
    Served mode added [] ↔ added = [] := by
  cases mode with
  | single =>
    constructor
    · intro h
      exact List.map_eq_nil_iff.mp h.nil_eq.symm
    · rintro rfl
      exact List.Perm.refl _
  | group =>
    constructor
    · rintro ⟨batches, hnil, hperm⟩
      rw [List.map_eq_nil_iff.mp hnil.symm] at hperm
      exact hperm.nil_eq.symm
    · rintro rfl
      exact ⟨[], rfl, List.Perm.refl _⟩

/-- The step of the only call. -/
theorem batchStep_only (buffers : Dict κ (Delivery α)) (clock : ℕ) (task : BatchTask α)
    (delivered : List (Delivery α)) :
    batchStep cfg ⟨buffers, clock, [task], delivered⟩ (.go 0) =
      { (perform cfg ⟨buffers, clock, [task], delivered⟩ task).1 with
        tasks := (perform cfg ⟨buffers, clock, [task], delivered⟩ task).2.toList } := by
  unfold batchStep
  simp only [List.getElem?_cons_zero, List.take_zero, List.nil_append, Nat.zero_add,
    List.drop_succ_cons, List.drop_zero, List.append_nil]

/-- A flush puts the batch that it has taken back into the buffer, as one payload. -/
theorem flush_puts_back (hmax : 1 < cfg.maxBatch) {s : BatchState κ α} (hquiet : s.tasks = [])
    (hne : s.buffers.entries ≠ []) :
    runFrom (batchStep cfg) s [.flush, .go 0, .go 0, .go 0, .go 0, .go 0] =
      { s with
        buffers := (Dict.empty : Dict κ (Delivery α)).set (cfg.generateId s.clock)
          (.batch (s.buffers.entries.map Prod.snd))
        clock := s.clock + 1 } := by
  obtain ⟨buffers, clock, tasks, delivered⟩ := s
  subst hquiet
  have htest : perform cfg ⟨buffers, clock, [.flushTest], delivered⟩ .flushTest =
      (⟨buffers, clock, [.flushTest], delivered⟩, some .flushTake) := by
    show (_, if buffers.entries = [] then none else some BatchTask.flushTake) = _
    rw [if_neg hne]
  have htake : perform cfg ⟨buffers, clock, [.flushTake], delivered⟩ .flushTake =
      (⟨Dict.empty, clock, [.flushTake], delivered⟩,
        some (.deliver (.batch (buffers.entries.map Prod.snd)))) := by
    unfold perform
    cases cfg.mode <;> rfl
  have hend : ∀ s : BatchState κ α, perform cfg s (.addTest 1) = (s, none) := by
    intro s
    show (s, if cfg.maxBatch ≤ 1 then some BatchTask.flushTest else none) = (s, none)
    rw [if_neg (Nat.not_le.mpr hmax)]
  have hflush : batchStep cfg ⟨buffers, clock, [], delivered⟩ .flush =
      ⟨buffers, clock, [.flushTest], delivered⟩ := rfl
  simp only [runFrom_cons, runFrom_nil, hflush, batchStep_only, htest, htake, Option.toList_some]
  -- the batch has come to `add`, which stores it and tests the length one
  show batchStep cfg (batchStep cfg ⟨Dict.empty, clock,
    [.addStore (.batch (buffers.entries.map Prod.snd))], delivered⟩ (.go 0)) (.go 0) = _
  rw [batchStep_only]
  show batchStep cfg ⟨Dict.empty.set _ _, clock + 1, [.addTest 1], delivered⟩ (.go 0) = _
  rw [batchStep_only, hend]
  rfl

/-! ## Runs without payloads -/

/-- The buffer is empty, and only flushes have not ended. -/
structure Idle (s : BatchState κ α) : Prop where
  buffers : s.buffers = Dict.empty
  tasks : ∀ task ∈ s.tasks, task = .flushTest

theorem Idle.go {s : BatchState κ α} (h : Idle s) {i : ℕ} (hi : i < s.tasks.length) :
    Idle (batchStep cfg s (.go i)) ∧
      (batchStep cfg s (.go i)).tasks.length + 1 = s.tasks.length := by
  have htask : s.tasks[i]? = some .flushTest := by
    rw [List.getElem?_eq_getElem hi, h.tasks _ (List.getElem_mem hi)]
  have hstep : batchStep cfg s (.go i) =
      { s with tasks := s.tasks.take i ++ [] ++ s.tasks.drop (i + 1) } := by
    unfold batchStep
    dsimp only
    rw [htask]
    unfold perform
    rw [if_pos (by rw [h.buffers]; rfl)]
    rfl
  rw [hstep]
  refine ⟨⟨h.buffers, fun task htask => ?_⟩, ?_⟩
  · rw [List.append_nil] at htask
    rcases List.mem_append.mp htask with hfirst | hlast
    · exact h.tasks task (List.mem_of_mem_take hfirst)
    · exact h.tasks task (List.mem_of_mem_drop hlast)
  · simp only [List.append_nil, List.length_append, List.length_take, List.length_drop]
    omega

theorem Idle.flush {s : BatchState κ α} (h : Idle s) : Idle (batchStep cfg s .flush) := by
  refine ⟨h.buffers, fun task htask => ?_⟩
  rcases List.mem_append.mp htask with hold | hnew
  · exact h.tasks task hold
  · exact List.mem_singleton.mp hnew

theorem Idle.run {s : BatchState κ α} (h : Idle s) {steps : List (BatchAction α)}
    (hnone : addedIn steps = []) : Idle (runFrom (batchStep cfg) s steps) := by
  induction steps generalizing s with
  | nil => exact h
  | cons action steps ih =>
    unfold addedIn at hnone
    rw [List.filterMap_cons] at hnone
    cases action with
    | add payload => cases hnone
    | flush => exact ih (h.flush cfg) hnone
    | go i =>
      refine ih ?_ hnone
      by_cases hi : i < s.tasks.length
      · exact (h.go cfg hi).1
      · have hsame : batchStep cfg s (.go i) = s := by
          unfold batchStep
          dsimp only
          rw [List.getElem?_eq_none (by omega)]
        rw [hsame]
        exact h

/-- An idle adapter ends its calls, one with each step. -/
theorem Idle.terminates {s : BatchState κ α} (h : Idle s) : Terminates cfg s := by
  refine ⟨s.tasks.length, fun steps hsteps => ?_⟩
  induction steps generalizing s with
  | nil => exact Nat.zero_le _
  | cons action steps ih =>
    obtain ⟨⟨i, hi, rfl⟩, hrest⟩ := hsteps
    obtain ⟨hidle, hlen⟩ := h.go cfg hi
    have hle := ih hidle hrest
    rw [List.length_cons]
    omega

theorem addedIn_of_waits {s : BatchState κ α} {steps : List (BatchAction α)}
    (h : Waits cfg s steps) : addedIn steps = [] := by
  induction steps generalizing s with
  | nil => rfl
  | cons action steps ih =>
    obtain ⟨⟨i, -, rfl⟩, hrest⟩ := h
    exact ih hrest

theorem addedIn_append (run steps : List (BatchAction α)) :
    addedIn (run ++ steps) = addedIn run ++ addedIn steps := List.filterMap_append

/-- Batches do what they are for exactly in runs that add nothing. -/
theorem batchRight_iff (run : List (BatchAction α)) :
    BatchRight cfg run ↔ addedIn run = [] := by
  constructor
  · intro h
    -- the calls of the run end, so do those of one more flush, and still nothing is delivered
    obtain ⟨steps, hsteps, hquiet⟩ := exists_quiet cfg h.ends
    rw [← batchRun_append] at hquiet
    obtain ⟨steps', hsteps', hquiet'⟩ := exists_quiet cfg (h.flushEnds steps hsteps hquiet)
    rw [← batchRun_append] at hquiet'
    have hserved := (h.served steps steps' hsteps hquiet hsteps' hquiet').1
    have hdelivered : (batchRun cfg (run ++ steps ++ [.flush] ++ steps')).delivered = [] :=
      runFrom_delivered cfg {} _
    rw [hdelivered] at hserved
    exact (served_nil_iff cfg.mode _).mp hserved
  · intro hnone
    -- where nothing is added the adapter stays idle, and idle adapters have nothing to deliver
    have hstart : Idle ({} : BatchState κ α) := ⟨rfl, by simp⟩
    have hidle : ∀ steps, addedIn steps = [] → Idle (batchRun cfg (run ++ steps)) := by
      intro steps hsteps
      refine hstart.run cfg ?_
      rw [addedIn_append, hnone, hsteps]
      rfl
    have hflush : ∀ steps, Waits cfg (batchRun cfg run) steps →
        addedIn (steps ++ [.flush]) = [] := by
      intro steps hsteps
      rw [addedIn_append, addedIn_of_waits cfg hsteps]
      rfl
    refine ⟨?_, ?_, ?_⟩
    · have hrun := hidle [] rfl
      rw [List.append_nil] at hrun
      exact hrun.terminates cfg
    · intro steps hsteps hquiet
      rw [List.append_assoc]
      exact (hidle _ (hflush steps hsteps)).terminates cfg
    · intro steps steps' hsteps hquiet hsteps' hquiet'
      have hdelivered : (batchRun cfg (run ++ steps ++ [.flush] ++ steps')).delivered = [] :=
        runFrom_delivered cfg {} _
      rw [hdelivered, hnone]
      refine ⟨(served_nil_iff cfg.mode []).mpr rfl, ?_⟩
      have hall : addedIn (steps ++ [.flush] ++ steps') = [] := by
        rw [addedIn_append, hflush steps hsteps, addedIn_of_waits cfg hsteps']
        rfl
      have hlast := hidle _ hall
      rw [← List.append_assoc, ← List.append_assoc] at hlast
      exact hlast.buffers

/-- An adapter with batches of fifty, delivered as lists. -/
def groupsOfFifty : BatchConfig ℕ where
  maxBatch := 50
  mode := .group
  generateId clock := clock

/-- A payload that is added is not delivered by the flush after it. -/
theorem payload_undelivered : ¬ BatchRight groupsOfFifty [.add "order"] := by
  intro h
  obtain ⟨⟨batches, hnil, hperm⟩, -⟩ := h.served [.go 0, .go 0]
    [.go 0, .go 0, .go 0, .go 0, .go 0]
    ⟨⟨0, by decide, rfl⟩, ⟨0, by decide, rfl⟩, trivial⟩ rfl
    ⟨⟨0, by decide, rfl⟩, ⟨0, by decide, rfl⟩, ⟨0, by decide, rfl⟩, ⟨0, by decide, rfl⟩,
      ⟨0, by decide, rfl⟩, trivial⟩ rfl
  rw [List.map_eq_nil_iff.mp hnil.symm] at hperm
  cases hperm.nil_eq

end Notifyr
