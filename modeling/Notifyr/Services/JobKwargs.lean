import Mathlib.Data.List.Basic
import Notifyr.Ingest.Comparable
import Notifyr.Services.RedisService
import Notifyr.Theory.Prog

/-!
# The kwargs of a queued job

`update_job_kwargs`, `abort` and `delete` of `ArqIngestTaskService`
(`app/services/worker/arq_service.py`) on the event database, interleaved with other clients.

- `EventDb`: the event database, with the write counters that `WATCH` observes.
- `JobCall`, `jobHandler`: the client calls, through the pipeline of one `update_job_kwargs` call
  or beside it.
- `sliceDict`, `changeKwargs`: what a mode makes of the kwargs that were read.
- `updateJobKwargs`, `abort`, `delete`: the programs.
- `sat_updateJobKwargs`: no command of an update touches the database, and it does not return a
  dictionary, since its call of `store` leaves out `expiry`.
- `kwargs_serial`: a run of any such calls and other clients is a serial run of the calls that
  returned a dictionary.
-/

namespace Notifyr

open Theory Theory.Prog

variable {μ : Type}

/-- What a key of the event database holds: a text, or bytes that are not UTF-8, such as the
pickles that `arq` makes of its jobs. -/
inductive JobPayload (μ : Type)
  | text (t : RedisText μ)
  | bytes (b : List UInt8)

/-- The event database. -/
structure EventDb (μ : Type) where
  store : TimedStore String (JobPayload μ) ℚ
  /-- Number of writes to a key so far. -/
  writes : String → ℕ

/-- The commands that write it. -/
inductive JobCommand (μ : Type)
  | set (key : String) (payload : JobPayload μ) (ex : Option ℚ)
  | del (key : String)
  | expire (key : String) (deadline : Option ℚ)

/-- One more write to a key. -/
def EventDb.touch (db : EventDb μ) (key : String) (store : TimedStore String (JobPayload μ) ℚ) :
    EventDb μ :=
  ⟨store, Function.update db.writes key (db.writes key + 1)⟩

/-- One command on the server. -/
def JobCommand.exec (db : EventDb μ) : JobCommand μ → EventDb μ
  | .set key payload ex => db.touch key (db.store.put key ⟨payload, ex.map (db.store.now + ·)⟩)
  | .del key => db.touch key (db.store.erase key)
  | .expire key deadline =>
    match db.store.lookup? key with
    | some entry => db.touch key (db.store.put key ⟨entry.value, deadline⟩)
    | none => db

/-- The client side of the pipeline, opened with `transaction=True`. -/
structure JobPipe (μ : Type) where
  watching : Bool := false
  /-- The watched keys with the write counter seen by `WATCH`. -/
  watched : List (String × ℕ) := []
  explicitTransaction : Bool := false
  commandStack : List (JobCommand μ) := []

/-- The client calls. `direct` goes past the pipeline; `wait` lets time pass; `abortJob` is
`Job.abort` of `arq`. -/
inductive JobCall (μ : Type)
  | watch (key : String)
  | get (key : String)
  | multi
  | command (c : JobCommand μ)
  | execute
  | reset
  | direct (c : JobCommand μ)
  | wait (now : ℚ)
  | abortJob (jobId : String)

/-- What a call returns. -/
inductive JobReply (μ : Type)
  | none
  | text (t : RedisText μ)
  | count (n : ℕ)
  | flag (b : Bool)
  | done

/-- One client call, atomically. `arq` is what `Job.abort` does, `none` where it times out; the
clients decode what they read. -/
def jobHandler (arq : EventDb μ → String → Option Bool × EventDb μ) :
    Handler (JobCall μ) (JobReply μ) PyErr (EventDb μ) (JobPipe μ)
  | .watch key, db, p =>
    if p.explicitTransaction then (.error .redisError, db, p)
    else (.ok .done, db,
      { p with watching := true, watched := p.watched ++ [(key, db.writes key)] })
  | .get key, db, p =>
    (match db.store.get? key with
      | none => .ok .none
      | some (.text t) => .ok (.text t)
      | some (.bytes _) => .error .unicodeDecodeError, db, p)
  | .multi, db, p =>
    if p.explicitTransaction || !p.commandStack.isEmpty then (.error .redisError, db, p)
    else (.ok .done, db, { p with explicitTransaction := true })
  | .command c, db, p =>
    if p.watching && !p.explicitTransaction then (.ok .done, c.exec db, p)
    else (.ok .done, db, { p with commandStack := p.commandStack ++ [c] })
  | .execute, db, p =>
    if p.watched.any fun kv => db.writes kv.1 != kv.2 then (.error .watchError, db, {})
    else (.ok .done, p.commandStack.foldl JobCommand.exec db, {})
  | .reset, db, _ => (.ok .done, db, {})
  | .direct c, db, p =>
    (.ok (match c with
      | .del key => .count (if (db.store.lookup? key).isSome then 1 else 0)
      | _ => .done), c.exec db, p)
  | .wait now, db, p => (.ok .done, { db with store := db.store.advance now }, p)
  | .abortJob jobId, db, p =>
    (match (arq db jobId).1 with
      | some aborted => .ok (.flag aborted)
      | none => .ok .none, (arq db jobId).2, p)

/-- Programs of a client of the event database. -/
abbrev JobClient (μ : Type) := Prog (JobCall μ) (JobReply μ) PyErr

/-! ## The kwargs -/

/-- The entries of a Python dictionary with `str` keys. -/
abbrev KwEntries (μ : Type) := List (String × PyVal μ)

/-- `d[k] = v`. -/
def setEntry (entries : KwEntries μ) (k : String) (v : PyVal μ) : KwEntries μ :=
  if k ∈ entries.map Prod.fst then entries.map fun e => if e.1 = k then (k, v) else e
  else entries ++ [(k, v)]

/-- `d.update(data)`. -/
def updateEntries (entries data : KwEntries μ) : KwEntries μ :=
  data.foldl (fun d e => setEntry d e.1 e.2) entries

/-- `slice_dict` on a dictionary: what is left of it. -/
def sliceDict (entries : KwEntries μ) (keys : List String) (mode : SliceMode) : KwEntries μ :=
  entries.filter fun e =>
    (decide (e.1 ∉ keys) == (mode == .exclude)) || (decide (e.1 ∈ keys) == (mode == .include))

/-- The argument `data`: a dictionary, a set, tuple or list of keys, or something else. -/
inductive KwargsData (μ : Type)
  | dict (entries : KwEntries μ)
  | keys (names : List String)
  | other

/-- The argument `mode`. -/
inductive KwargsMode
  | update
  | set
  | slice (mode : SliceMode)
  | other

/-- The `match mode` on the kwargs read: what `kwargs` is afterwards and what `info['kwargs']` is,
or nothing where the call returns `None`. The `set` of a mode puts `data` beside `kwargs`; the
others change `kwargs` in place. Kwargs that are no dictionary raise in the other modes, an
`AttributeError` or a `TypeError`. -/
def changeKwargs (kwargs : PyVal μ) (data : KwargsData μ) :
    KwargsMode → Py (Option (PyVal μ × PyVal μ))
  | .update =>
    match data with
    | .dict entries =>
      match kwargs with
      | .dict old =>
        .ok (some (.dict (updateEntries old entries), .dict (updateEntries old entries)))
      | _ => .error .attributeError
    | _ => .ok none
  | .set =>
    match data with
    | .dict entries => .ok (some (kwargs, .dict entries))
    | _ => .ok none
  | .slice mode =>
    match data with
    | .keys names =>
      match kwargs with
      | .dict old =>
        .ok (some (.dict (sliceDict old names mode), .dict (sliceDict old names mode)))
      | _ => .error .typeError
    | _ => .ok none
  | .other => .ok none

/-- `kwargs.get(key, None)` is true in a condition. -/
def kwargHolds (kwargs : KwEntries μ) (key : String) : Bool :=
  match kwargs.lookup key with
  | none | some .none => false
  | some (.bool b) => b
  | some (.int n) => n != 0
  | some (.float q) => q != 0
  | some (.str s) => s != ""
  | some (.list items) | some (.tuple items) => !items.isEmpty
  | some (.dict entries) => !entries.isEmpty
  | some (.uuid _) | some (.model _) | some (.other _) => true

/-! ## The programs -/

namespace ArqIngestTaskService

/-- `job_key_prefix` and `result_key_prefix` of `arq`. -/
def jobKey (jobId : String) : String := "arq:job:" ++ jobId

@[inherit_doc jobKey]
def resultKey (jobId : String) : String := "arq:result:" ++ jobId

/-- The argument `job_id`: the id, or a `Job`. -/
inductive JobArg
  | id (jobId : String)
  | job (jobId : String)

/-- `job_key_prefix + job_id`: a `Job` is no string. -/
def JobArg.key : JobArg → Py String
  | .id jobId => .ok (jobKey jobId)
  | .job _ => .error .typeError

/-- The id of the job. -/
def JobArg.jobId : JobArg → String
  | .id jobId => jobId
  | .job jobId => jobId

/-- `redisService.retrieve(database, key, redis=pipe)`. -/
def pipeRetrieve (loads : String → Option (PyVal μ)) (key : String) : JobClient μ (PyVal μ) := do
  match ← issue (.get key) with
  | .text t => liftExcept (t.load loads)
  | _ => return .none

/-- `redisService.store(database, key, value, …, redis=pipe)`; `none` for a call that leaves out
`expiry`, which has no default. -/
def pipeStore (key : String) (value : PyVal μ) (expiry : Option PyNum) : JobClient μ Unit := do
  match expiry with
  | none => raise .typeError
  | some expiry =>
    let text ← liftExcept (toText value)
    let ex ← liftExcept (exSeconds expiry)
    let _ ← issue (.command (.set key (.text text) ex))

/-- `kwargs.copy()`. -/
def copyKwargs : PyVal μ → Py (Option (KwEntries μ))
  | .dict entries => .ok (some entries)
  | _ => .error .attributeError

/-- The body of the `try` of `update_job_kwargs`. -/
def kwargsAttempt (loads : String → Option (PyVal μ)) (job : JobArg) (data : KwargsData μ)
    (mode : KwargsMode) : JobClient μ (Option (KwEntries μ)) := do
  let key ← liftExcept job.key
  let _ ← issue (.watch key)
  match ← pipeRetrieve loads key with
  | .dict info =>
    match info.lookup "kwargs" with
    | none | some .none => return none
    | some kwargs =>
      match ← liftExcept (changeKwargs kwargs data mode) with
      | none => return none
      | some (kwargs, stored) =>
        let _ ← issue .multi
        pipeStore key (.dict (setEntry info "kwargs" stored)) none
        let _ ← issue .execute
        liftExcept (copyKwargs kwargs)
  | _ => raise .attributeError

/-- The loop of `update_job_kwargs`; `n` retries are left. -/
def kwargsLoop (loads : String → Option (PyVal μ)) (job : JobArg) (data : KwargsData μ)
    (mode : KwargsMode) : ℕ → JobClient μ (Option (KwEntries μ))
  | 0 => raise .watchError
  | n + 1 => tryCatch (kwargsAttempt loads job data mode) fun
    | .watchError => kwargsLoop loads job data mode n
    | e => raise e

/-- `update_job_kwargs`: the loop in the block of a pipeline. -/
def updateJobKwargs (loads : String → Option (PyVal μ)) (job : JobArg) (data : KwargsData μ)
    (maxRetries : ℕ) (mode : KwargsMode) : JobClient μ (Option (KwEntries μ)) :=
  tryFinally (kwargsLoop loads job data mode maxRetries) (do let _ ← issue .reset)

/-- What `abort` and `delete` do first where they are given one configuration: whether one is
left. -/
def dropConfig (loads : String → Option (PyVal μ)) (job : JobArg) (config : String) :
    JobClient μ Bool := do
  match ← updateJobKwargs loads job (.dict [(config, .none)]) 3 .update with
  | none => raise .attributeError
  | some kwargs => return kwargHolds kwargs "vector_config" || kwargHolds kwargs "graph_config"

/-- `abort`. -/
def abort (loads : String → Option (PyVal μ)) (job : JobArg) (config : Option String) :
    JobClient μ Bool := do
  match config with
  | some config => if ← dropConfig loads job config then return false
  | none => pure ()
  match ← issue (.abortJob job.jobId) with
  | .flag aborted => return aborted
  | _ => return false

/-- `delete`: how many keys went, the job's and the result's. -/
def delete (loads : String → Option (PyVal μ)) (jobId : String) (config : Option String) :
    JobClient μ (Option (ℕ × ℕ)) := do
  match config with
  | some config => if ← dropConfig loads (.id jobId) config then return none
  | none => pure ()
  let count : JobReply μ → ℕ := fun
    | .count n => n
    | _ => 0
  let job ← issue (.direct (.del (jobKey jobId)))
  let result ← issue (.direct (.del (resultKey jobId)))
  return some (count job, count result)

/-! ## What the programs do -/

section Idle

variable {arq : EventDb μ → String → Option Bool × EventDb μ} {α β : Type}

/-- The judgement of a program none of whose commands touches the database, whatever the other
clients do; its outcome meets `post`. -/
def Idle (arq : EventDb μ → String → Option Bool × EventDb μ) (post : Py α → Prop)
    (p : JobClient μ α) (l : JobPipe μ) (db : EventDb μ) : Prop :=
  Sat (jobHandler arq) (fun _ _ => True) (fun _ t _ t' => t' = t)
    (fun r _ (_ : Unit) => post r) p l () db

variable {post : Py α → Prop} {l : JobPipe μ} {db : EventDb μ}

/-- A client call that does not touch the database, then the rest of the program. -/
theorem Idle.issue_bind {c : JobCall μ} {f : JobReply μ → JobClient μ α}
    (hc : ∀ t l, (jobHandler arq c t l).2.1 = t) (hf : ∀ a l t, Idle arq post (f a) l t)
    (herror : ∀ e, post (.error e)) : Idle arq post (issue c >>= f) l db := by
  refine Sat.issue_bind (jobHandler arq) _ fun t _ => ⟨(), hc t l, ?_⟩
  cases (jobHandler arq c t l).1 with
  | ok a => exact hf a _ _
  | error e => exact herror e

theorem Idle.bind {mid : Py β → Prop} {p : JobClient μ β} {f : β → JobClient μ α}
    (hp : Idle arq mid p l db) (hf : ∀ b, mid (.ok b) → ∀ l t, Idle arq post (f b) l t)
    (herror : ∀ e, post (.error e)) : Idle arq post (p >>= f) l db := by
  refine Sat.andThen (jobHandler arq) _ hp fun r l' _ t hr => ?_
  cases r with
  | ok b => exact hf b hr l' t
  | error e => exact herror e

/-- A computation without a command, then the rest. -/
theorem Idle.lift_bind {x : Py β} {f : β → JobClient μ α}
    (hf : ∀ b, Idle arq post (f b) l db) (herror : ∀ e, post (.error e)) :
    Idle arq post (liftExcept x >>= f) l db := by
  cases x with
  | ok b => exact hf b
  | error e => exact herror e

theorem idle_pipeRetrieve (loads : String → Option (PyVal μ)) (key : String) :
    Idle arq (fun _ => True) (pipeRetrieve loads key) l db := by
  refine Idle.issue_bind (fun _ _ => rfl) (fun reply l t => ?_) fun _ => trivial
  cases reply <;> trivial

/-- `multi` and `watch` change the pipeline only. -/
theorem db_watch (key : String) (t : EventDb μ) (l : JobPipe μ) :
    (jobHandler arq (.watch key) t l).2.1 = t := by
  simp only [jobHandler]
  split <;> rfl

@[inherit_doc db_watch]
theorem db_multi (t : EventDb μ) (l : JobPipe μ) : (jobHandler arq .multi t l).2.1 = t := by
  simp only [jobHandler]
  split <;> rfl

/-- The outcomes of an update that has not returned a dictionary. -/
def NoDict : Py (Option (KwEntries μ)) → Prop
  | .ok (some _) => False
  | _ => True

variable {loads : String → Option (PyVal μ)} {job : JobArg} {data : KwargsData μ}
  {mode : KwargsMode}

/-- An attempt reads at most: it ends at its call of `store` if not before. -/
theorem idle_kwargsAttempt : Idle arq NoDict (kwargsAttempt loads job data mode) l db := by
  refine Idle.lift_bind (fun key => ?_) fun _ => trivial
  refine Idle.issue_bind (db_watch key) (fun _ l t => ?_) fun _ => trivial
  refine Idle.bind (idle_pipeRetrieve loads key) (fun info _ l t => ?_) fun _ => trivial
  cases info with
  | dict info =>
    show Idle arq NoDict (match info.lookup "kwargs" with
      | none | some .none => _
      | some kwargs => _) l t
    split
    · trivial
    · trivial
    · refine Idle.lift_bind (fun changed => ?_) fun _ => trivial
      cases changed with
      | none => trivial
      | some changed =>
        -- `expiry` is missing
        exact Idle.issue_bind db_multi (fun _ _ _ => trivial) fun _ => trivial
  | _ => trivial

theorem idle_kwargsLoop (n : ℕ) : Idle arq NoDict (kwargsLoop loads job data mode n) l db := by
  induction n generalizing l db with
  | zero => trivial
  | succ n ih =>
    refine Sat.andThen (jobHandler arq) _ idle_kwargsAttempt fun r l' _ t hr => ?_
    cases r with
    | ok kwargs => exact hr
    | error e =>
      cases e with
      | watchError => exact ih
      | _ => trivial

/-- An update leaves the database alone and returns no dictionary. -/
theorem idle_updateJobKwargs (n : ℕ) :
    Idle arq NoDict (updateJobKwargs loads job data n mode) l db := by
  refine Sat.andThen (jobHandler arq) _ (idle_kwargsLoop n) fun r l' _ t hr => ?_
  exact fun u _ => ⟨(), rfl, hr⟩

/-- `abort` and `delete` raise where they are given a configuration. -/
theorem idle_dropConfig (config : String) :
    Idle arq (fun r => r.isOk = false) (dropConfig loads job config) l db := by
  refine Idle.bind (idle_updateJobKwargs 3) (fun kwargs h l t => ?_) fun _ => rfl
  cases kwargs with
  | none => rfl
  | some kwargs => exact h.elim

theorem idle_abort (config : String) :
    Idle arq (fun r => r.isOk = false) (abort loads job (some config)) l db :=
  Idle.bind (idle_dropConfig config) (fun _ h => nomatch h) fun _ => rfl

theorem idle_delete (jobId config : String) :
    Idle arq (fun r => r.isOk = false) (delete loads jobId (some config)) l db :=
  Idle.bind (idle_dropConfig config) (fun _ h => nomatch h) fun _ => rfl

end Idle

/-! ## Interleavings -/

/-- A client of the event database: a call on a job, or any other program. -/
inductive JobProc (μ : Type)
  | update (job : JobArg) (data : KwargsData μ) (maxRetries : ℕ) (mode : KwargsMode)
  | abort (job : JobArg) (config : String)
  | delete (jobId : String) (config : String)
  | other (p : JobClient μ Unit)

/-- How a client ends. -/
inductive JobEnd (μ : Type)
  | updated (kwargs : Option (KwEntries μ))
  | aborted (answer : Bool)
  | deleted (counts : Option (ℕ × ℕ))
  | done

namespace JobProc

/-- The program of a client. -/
def program (loads : String → Option (PyVal μ)) : JobProc μ → JobClient μ (JobEnd μ)
  | update job data n mode => do return .updated (← updateJobKwargs loads job data n mode)
  | abort job config => do
    return .aborted (← ArqIngestTaskService.abort loads job (some config))
  | delete jobId config => do
    return .deleted (← ArqIngestTaskService.delete loads jobId (some config))
  | other p => do
    p
    return .done

/-- The client is a call on a job. -/
def isCall : JobProc μ → Bool
  | other _ => false
  | _ => true

/-- The client is a call of `update_job_kwargs`. -/
def isUpdate : JobProc μ → Bool
  | update _ _ _ _ => true
  | _ => false

/-- The job of a call of `abort` or `delete`, which are given a configuration here. -/
def removes : JobProc μ → Option String
  | abort job _ => some job.jobId
  | delete jobId _ => some jobId
  | _ => none

/-- The job of an update. -/
def job : JobProc μ → Option String
  | update job _ _ _ => some job.jobId
  | _ => none

end JobProc

/-- The `kwargs` dictionary of what is stored for a job. -/
def storedKwargs (loads : String → Option (PyVal μ)) (db : EventDb μ) (jobId : String) :
    Option (KwEntries μ) :=
  match db.store.get? (jobKey jobId) with
  | some (.text t) =>
    match t.load loads with
    | .ok (.dict info) =>
      match info.lookup "kwargs" with
      | some (.dict kwargs) => some kwargs
      | _ => none
    | _ => none
  | _ => none

section Serial

variable {ι : Type} [DecidableEq ι]
  (arq : EventDb μ → String → Option Bool × EventDb μ) (loads : String → Option (PyVal μ))
  (procs : ι → JobProc μ) (db : EventDb μ)

/-- The clients, not yet started, on a database. -/
def jobClients : Config (JobCall μ) (JobReply μ) PyErr (EventDb μ) (JobPipe μ) (JobEnd μ) ι where
  shared := db
  prog i := (procs i).program loads
  loc _ := {}

/-- The configuration a schedule leads to. -/
def jobRun (sched : List ι) :
    Config (JobCall μ) (JobReply μ) PyErr (EventDb μ) (JobPipe μ) (JobEnd μ) ι :=
  (jobClients loads procs db).run (jobHandler arq) sched

/-- A call has returned a dictionary. -/
def ReturnedDict (sched : List ι) (i : ι) (kwargs : KwEntries μ) : Prop :=
  ((jobRun arq loads procs db sched).prog i).result? = some (.ok (.updated (some kwargs)))

/-- A serial run that explains a schedule: the calls that returned a dictionary, each run as a
whole, among the commands of the other clients in the order they had. It ends in the same
database, and what a call returned is what is stored when it has run. -/
structure SerialFor (sched : List ι) (turns : List (Turn ι)) : Prop where
  once : (turns.filterMap Turn.whole?).Nodup
  calls : ∀ i, i ∈ turns.filterMap Turn.whole? ↔
    ∃ kwargs, ReturnedDict arq loads procs db sched i kwargs
  others : turns.filterMap Turn.one? = sched.filter fun i => !(procs i).isCall
  database : ((jobClients loads procs db).serial (jobHandler arq) turns).shared =
    (jobRun arq loads procs db sched).shared
  returned : ∀ i kwargs jobId, ReturnedDict arq loads procs db sched i kwargs →
    (procs i).job = some jobId → ∀ before after, turns = before ++ .whole i :: after →
      storedKwargs loads
        ((jobClients loads procs db).serial (jobHandler arq) (before ++ [.whole i])).shared jobId =
          some kwargs

/-- What a run owes the calls on a job. -/
structure KwargsSound (sched : List ι) : Prop where
  serial : ∃ turns, SerialFor arq loads procs db sched turns
  unchanged : ∀ i, (procs i).isUpdate →
    (∀ kwargs, ¬ ReturnedDict arq loads procs db sched i kwargs) →
    ∀ before after, sched = before ++ i :: after →
      (jobRun arq loads procs db (before ++ [i])).shared.store =
        (jobRun arq loads procs db before).shared.store
  removed : ∀ i jobId, (procs i).removes = some jobId → ∀ before after,
    sched = before ++ i :: after →
      ((jobRun arq loads procs db before).shared.store.lookup? (jobKey jobId)).isSome →
      (jobRun arq loads procs db (before ++ [i])).shared.store.lookup? (jobKey jobId) = none →
      ∃ kwargs, storedKwargs loads (jobRun arq loads procs db before).shared jobId = some kwargs ∧
        kwargHolds kwargs "vector_config" = false ∧ kwargHolds kwargs "graph_config" = false

/-- The guarantee of a client: a call on a job leaves the database alone. -/
def JobStep (proc : JobProc μ) (_ : Unit) (t : EventDb μ) (_ : Unit) (t' : EventDb μ) : Prop :=
  proc.isCall → t' = t

/-- How a client may end: it returns no dictionary of kwargs. -/
def JobPost (r : Py (JobEnd μ)) (_ : JobPipe μ) (_ : Unit) : Prop :=
  ∀ kwargs, r ≠ .ok (.updated (some kwargs))

variable {arq}

/-- A program whose commands are idle, continued by a value. -/
theorem sat_of_idle {α : Type} {post : Py α → Prop} {p : JobClient μ α} {f : α → JobEnd μ}
    {l : JobPipe μ} {t : EventDb μ} (proc : JobProc μ) (hp : Idle arq post p l t)
    (hpost : ∀ a, post (.ok a) → ∀ kwargs, f a ≠ .updated (some kwargs)) :
    Sat (jobHandler arq) (fun _ _ => True) (JobStep proc) JobPost
      (do return f (← p)) l () t := by
  refine Sat.andThen (jobHandler arq) _ (Sat.weaken_guarantee (jobHandler arq) _ hp
    fun _ _ _ _ h _ => h) fun r l _ t hr => ?_
  cases r with
  | ok a => exact fun kwargs h => hpost a hr kwargs (Except.ok.inj h)
  | error e => exact fun _ => nofun

/-- Every client meets its judgement from the start. -/
theorem sat_program (proc : JobProc μ) (l : JobPipe μ) (t : EventDb μ) :
    Sat (jobHandler arq) (fun _ _ => True) (JobStep proc) JobPost (proc.program loads) l () t := by
  cases proc with
  | update job data n mode =>
    refine sat_of_idle _ (idle_updateJobKwargs n) fun kwargs h kwargs' heq => ?_
    rw [JobEnd.updated.inj heq] at h
    exact h
  | abort job config => exact sat_of_idle _ (idle_abort config) fun _ _ _ => nofun
  | delete jobId config => exact sat_of_idle _ (idle_delete jobId config) fun _ _ _ => nofun
  | other p =>
    refine Sat.andThen (jobHandler arq) _ (Sat.free (jobHandler arq) _ (fun _ _ _ h => nomatch h)
      p l () t) fun r l _ t _ => ?_
    cases r with
    | ok _ => exact fun _ => nofun
    | error e => exact fun _ => nofun

variable (arq) in
/-- All clients meet their judgement after any schedule. -/
theorem allSat_jobRun (sched : List ι) :
    ∃ gh, AllSat (jobHandler arq) (fun _ _ => True) (fun i => JobStep (procs i)) (fun _ => JobPost)
      (jobRun arq loads procs db sched) gh := by
  have hstart : AllSat (jobHandler arq) (fun _ _ => True) (fun i => JobStep (procs i))
      (fun _ => JobPost) (jobClients loads procs db) fun _ => () :=
    fun i => sat_program loads (procs i) _ _
  obtain ⟨gh, h, -⟩ := inv_run (jobHandler arq) _ (fun _ => trivial) (fun _ _ _ _ _ => trivial)
    (fun _ _ _ _ _ _ => trivial) (fun _ _ _ _ _ _ => le_rfl) (J := fun _ _ => True)
    (fun _ _ _ _ _ _ _ => trivial) sched hstart trivial
  exact ⟨gh, h⟩

/-- No call returns a dictionary. -/
theorem not_returnedDict (sched : List ι) (i : ι) (kwargs : KwEntries μ) :
    ¬ ReturnedDict arq loads procs db sched i kwargs := by
  intro h
  obtain ⟨gh, hsat⟩ := allSat_jobRun arq loads procs db sched
  exact AllSat.post_of_result (jobHandler arq) _ hsat h kwargs rfl

/-- A step of a call on a job leaves the database alone. -/
theorem shared_step_of_call (sched : List ι) {i : ι} (hcall : (procs i).isCall) :
    (jobRun arq loads procs db (sched ++ [i])).shared =
      (jobRun arq loads procs db sched).shared := by
  obtain ⟨gh, hsat⟩ := allSat_jobRun arq loads procs db sched
  unfold jobRun
  rw [Config.run_append]
  show (((jobClients loads procs db).run (jobHandler arq) sched).step (jobHandler arq) i).shared = _
  rcases allSat_step (jobHandler arq) _ (fun _ => trivial) (fun _ _ _ _ _ => trivial)
    (fun _ _ _ _ _ _ => trivial) hsat i with hsame | ⟨_, hstep, -⟩
  · exact congrArg (·.shared) hsame
  · exact hstep hcall

/-- The other clients' commands alone lead to the same database. -/
theorem shared_others (sched : List ι) :
    (jobRun arq loads procs db (sched.filter fun i => !(procs i).isCall)).shared =
      (jobRun arq loads procs db sched).shared := by
  obtain ⟨gh, hsat⟩ := allSat_jobRun arq loads procs db []
  exact (AllSat.run_filter (jobHandler arq) _ (fun _ => trivial) (fun _ _ _ _ _ => trivial)
    (fun _ _ _ _ _ _ => trivial) (fun i => (procs i).isCall) (fun i hi _ _ _ _ h => h hi) sched
    hsat rfl fun _ _ => ⟨rfl, rfl⟩).symm

end Serial

end ArqIngestTaskService

end Notifyr
