import Notifyr.Cost.Cancellation
import Notifyr.Runtime.Bytes

/-!
# Uploading files for ingestion

`ingest_files` (`app/ressources/agentic/data_ingest_ressource.py`) with the charge for it and the
background tasks that enqueue its jobs.

- `UploadWorld`: the jobs that `arq` knows, the files stored for them and the limiter database.
- `existsJob`, `searchSha`, `downloadFile`: the checks of a file, which may raise.
- `ingestFile`: one round of the loop; `ingestFiles`: the handler.
- `enqueueAll`: the background tasks of `Merchant.safe_payment`.
- `upload`: a whole request. The object for its response is made with positional arguments, so no
  request gets past its first line.
- `UploadRight`: what an upload owes its caller; `upload_right_iff`: when it does.
-/

namespace Notifyr

open Theory

/-! ## The data -/

/-- An uploaded file. -/
structure UploadedFile where
  filename : Option String
  content : Bytes

/-- The state of a job of `arq`. -/
inductive ArqState
  | deferred
  | queued
  | inProgress
  | complete (success : Bool)
  deriving DecidableEq

/-- A job of `arq`, with what the service reads of its kwargs. -/
structure ArqJob where
  jobId : String
  nickname : Option String
  sha : Option String
  state : ArqState
  deriving DecidableEq

/-- The job has not ended. -/
def ArqJob.live (job : ArqJob) : Bool :=
  match job.state with
  | .complete _ => false
  | _ => true

/-- `ArqDataTaskConstant.FILE_DATA_TASK`. -/
def fileDataTask : String := "file"

/-- `FileIngestUriMetadata`. -/
structure FileUriMetadata extends UriMetadata where
  sha : String

/-- `FileUploadIngestEnqueueResponse`; of an `UploadError` its reason. -/
structure UploadResponse where
  vector : Bool
  graph : Bool
  expire : Option String
  defer : Option String
  metadata : List FileUriMetadata := []
  errors : Dict String String := .empty

/-- What `ingest_files` reads of the task of a request. The dates are computed, and the dump of
the model may raise. -/
structure UploadTask where
  dbConfig : DbConfig
  expireDate : Py (Option String)
  deferDate : Py (Option String)
  dump : Py Unit

/-- What the code is given: `str.lower`, the digest of `compute_sha256`, the folder of the
uploads, the error of the operating system for a path, and whether enqueueing raises. -/
structure UploadEnv where
  lower : String → String
  sha256 : Bytes → String
  dataIngestionDir : String
  refuses : String → Option String
  enqueueRaises : String → Bool
  cost : CostConfig
  definition : FileCostDefinition
  info : CostInfo
  clock : ℕ → Month

/-- `compute_data_file_upload_path`. -/
def UploadEnv.uploadPath (env : UploadEnv) (uri : String) : String :=
  s!"{env.dataIngestionDir}uploads/{uri}"

/-- What a request changes. -/
structure UploadWorld where
  jobs : List ArqJob
  files : String → Option Bytes
  redis : Redis

/-- What the body of the loop raises: `JobAlreadyExistsError`, `OSError`, or something else. -/
inductive UploadExc
  | jobAlreadyExists (reason : String)
  | osError (text : String)
  | other (e : PyErr)

/-! ## The checks -/

/-- `exists(job_id, True, True)`: a failed job is deleted, any other one is an error. -/
def existsJob (jobs : List ArqJob) (jobId : String) : Except UploadExc (List ArqJob) :=
  match jobs.find? fun job => job.jobId = jobId with
  | none => .ok jobs
  | some job =>
    match job.state with
    | .complete true => .error (.jobAlreadyExists "job as been completed")
    | .complete false => .ok (jobs.filter fun job => job.jobId ≠ jobId)
    | _ => .error (.jobAlreadyExists "job already exists")

/-- `search(task, {'sha': sha}, True)`, among the queued jobs and those that have succeeded. -/
def searchSha (jobs : List ArqJob) (task sha : String) : Except UploadExc Unit :=
  if jobs.any fun job => (job.live || job.state = .complete true) && job.nickname = some task &&
      job.sha = some sha then
    .error (.jobAlreadyExists
      s!"job exist found with the search params: \x7b'sha': '{sha}'\x7d")
  else .ok ()

/-- `download_file`. -/
def downloadFile (env : UploadEnv) (files : String → Option Bytes) (path : String)
    (content : Bytes) : Except UploadExc (String → Option Bytes) :=
  if (files path).isSome then .error (.osError s!"File already exists: {path}")
  else
    match env.refuses path with
    | some text => .error (.osError text)
    | none => .ok (Function.update files path (some content))

/-! ## The handler -/

/-- The loop between two files. `pending` are the background tasks so far. -/
structure UploadState where
  ingestSha : List String := []
  response : UploadResponse
  pending : List FileUriMetadata := []
  jobs : List ArqJob
  files : String → Option Bytes

/-- The body of the `try`, with the state it leaves when it raises. -/
def tryFile (env : UploadEnv) (task : UploadTask) (st : UploadState) (uri : String)
    (content : Bytes) : UploadState × Except UploadExc Unit :=
  let sha := env.sha256 content
  if sha ∈ st.ingestSha then
    (st, .error (.jobAlreadyExists "File already added in the uploaded files"))
  else
    let st := { st with ingestSha := sha :: st.ingestSha }
    match existsJob st.jobs uri with
    | .error e => (st, .error e)
    | .ok jobs =>
      let st := { st with jobs }
      match searchSha st.jobs fileDataTask sha with
      | .error e => (st, .error e)
      | .ok () =>
        match downloadFile env st.files (env.uploadPath uri) content with
        | .error e => (st, .error e)
        | .ok files =>
          let added : FileUriMetadata := { uri, size := content.length, sha }
          let st := { st with
            files
            response := { st.response with metadata := st.response.metadata ++ [added] } }
          -- the arguments of `safe_payment`
          match task.dump with
          | .error e => (st, .error (.other e))
          | .ok () => ({ st with pending := st.pending ++ [added] }, .ok ())

/-- One round of the loop. -/
def ingestFile (env : UploadEnv) (task : UploadTask) (st : UploadState) (file : UploadedFile) :
    UploadState × Py Unit :=
  match file.filename with
  | none => (st, .error .attributeError)
  | some name =>
    let uri := env.lower name
    match tryFile env task st uri file.content with
    | (st, .ok ()) => (st, .ok ())
    | (st, .error (.other e)) => (st, .error e)
    | (st, .error (.jobAlreadyExists reason)) | (st, .error (.osError reason)) =>
      ({ st with response := { st.response with
          errors := st.response.errors.set uri reason } }, .ok ())

/-- The loop. -/
def ingestLoop (env : UploadEnv) (task : UploadTask) :
    UploadState → List UploadedFile → UploadState × Py Unit
  | st, [] => (st, .ok ())
  | st, file :: files =>
    match ingestFile env task st file with
    | (st, .error e) => (st, .error e)
    | (st, .ok ()) => ingestLoop env task st files

/-- An argument of a response. -/
inductive ResponseArg
  | flag (b : Bool)
  | date (text : Option String)

/-- `FileUploadIngestEnqueueResponse(*positional)`: a `pydantic` model takes keyword arguments
only, and some of its fields are required. -/
def UploadResponse.new (positional : List ResponseArg) : Py UploadResponse :=
  if positional.isEmpty then .error .valueError else .error .typeError

/-- `ingest_files`: the response, the background tasks and what is left. -/
def ingestFiles (env : UploadEnv) (task : UploadTask) (w : UploadWorld)
    (files : List UploadedFile) : Py (UploadResponse × List FileUriMetadata) × UploadWorld :=
  let made : Py UploadResponse := do
    let expire ← task.expireDate
    let defer ← task.deferDate
    UploadResponse.new
      [.flag task.dbConfig.vector, .flag task.dbConfig.graph, .date expire, .date defer]
  match made with
  | .error e => (.error e, w)
  | .ok response =>
    match ingestLoop env task { response, jobs := w.jobs, files := w.files } files with
    | (st, .error e) => (.error e, { w with jobs := st.jobs, files := st.files })
    | (st, .ok ()) =>
      (.ok (st.response, st.pending), { w with jobs := st.jobs, files := st.files })

/-! ## The charge and the background tasks -/

/-- The request as the cost classes see it. -/
def ingestRequest (env : UploadEnv) (task : UploadTask) (metadata : List FileUriMetadata) :
    IngestRequest :=
  .file env.definition task.dbConfig (metadata.map (·.toUriMetadata))

/-- `enqueue_task`; `enqueue_job` returns `None` where the id of the job is taken. -/
def enqueueTask (jobs : List ArqJob) (item : FileUriMetadata) : List ArqJob :=
  if jobs.any fun job => job.jobId = item.uri then jobs
  else jobs ++ [⟨item.uri, some fileDataTask, some item.sha, .queued⟩]

/-- The wrappers of `safe_payment`, one after the other. One that cannot enqueue refunds its file,
and the first that raises ends them. -/
def enqueueAll (env : UploadEnv) (task : UploadTask) (w : UploadWorld) (cost : Cost) :
    List FileUriMetadata → UploadWorld
  | [] => w
  | item :: pending =>
    if env.enqueueRaises item.uri then
      let cost := (FileIngestCost.init env.definition).postRefund [item.toUriMetadata]
        task.dbConfig cost.resetBill
      let (refunded, redis, _) :=
        runAlone pipelineHandler (merchantRefund env.cost cost (env.clock 0)) w.redis {}
      match refunded with
      | .error _ => { w with redis }
      | .ok () => enqueueAll env task { w with redis } cost pending
    else enqueueAll env task { w with jobs := enqueueTask w.jobs item } cost pending

/-- A request from its handler on: the charge for its response, then the background tasks. An
exception ends it before both. -/
def upload (env : UploadEnv) (task : UploadTask) (w : UploadWorld) (files : List UploadedFile) :
    Py UploadResponse × UploadWorld :=
  match ingestFiles env task w files with
  | (.error e, w) => (.error e, w)
  | (.ok (response, pending), w) =>
    let request := ingestRequest env task response.metadata
    let cost := request.freshCost env.info
    let (charged, redis, _) :=
      runAlone pipelineHandler (admission env.cost request cost env.clock) w.redis {}
    match charged with
    | .error e => (.error e, { w with redis })
    | .ok _ =>
      (.ok response, enqueueAll env task { w with redis } (request.postPurchase cost) pending)

/-! ## What an upload owes its caller -/

/-- The metadata of a response, if there is one. -/
def metadataIn : Py UploadResponse → List FileUriMetadata
  | .ok response => response.metadata
  | .error _ => []

/-- The names a response has entries for, in its metadata and in its errors. -/
def namesIn : Py UploadResponse → List String
  | .ok response => response.metadata.map (·.uri) ++ response.errors.keys
  | .error _ => []

/-- No two live jobs of the file task have the same content. -/
def LiveDistinct (jobs : List ArqJob) : Prop :=
  ((jobs.filter fun job => job.live && job.nickname = some fileDataTask).map (·.sha)).Nodup

instance (jobs : List ArqJob) : Decidable (LiveDistinct jobs) :=
  inferInstanceAs (Decidable (List.Nodup _))

/-- The jobs that a request has enqueued. -/
def enqueuedBy (before after : UploadWorld) : List ArqJob :=
  after.jobs.filter fun job => job ∉ before.jobs

/-- What an upload owes its caller: each file is in the response once; each entry of the metadata
has one new job, whose stored file has the entry's digest; live jobs stay distinct; and the
balance went down by the price of the files with a new job. -/
structure UploadRight (env : UploadEnv) (task : UploadTask) (files : List UploadedFile)
    (before : UploadWorld) (result : Py UploadResponse × UploadWorld) : Prop where
  each_once : ((namesIn result.1).map some).Perm (files.map fun f => f.filename.map env.lower)
  enqueued : ∀ item ∈ metadataIn result.1,
    ∃ job, (enqueuedBy before result.2).filter (fun job => job.jobId = item.uri) = [job] ∧
      job.nickname = some fileDataTask ∧
      (result.2.files (env.uploadPath item.uri)).map env.sha256 = some item.sha
  distinct : LiveDistinct result.2.jobs
  charged : ∃ sizes : List ℚ,
    (enqueuedBy before result.2).map (fun job =>
      (result.2.files (env.uploadPath job.jobId)).map fun content => (content.length : ℚ)) =
        sizes.map some ∧
    result.2.redis.strings (redisCreditKey documentCredit) =
      (before.redis.strings (redisCreditKey documentCredit)).map fun balance =>
        if env.cost.costFlag then
          balance - task.dbConfig.count * (sizes.map fun size => filePrice env.definition size).sum
        else balance

/-- No request gets a response: the one that is made takes no positional arguments. -/
theorem ingestFiles_error (env : UploadEnv) (task : UploadTask) (w : UploadWorld)
    (files : List UploadedFile) : ∃ e, ingestFiles env task w files = (.error e, w) := by
  unfold ingestFiles
  cases hexpire : task.expireDate with
  | error e => exact ⟨e, rfl⟩
  | ok expire =>
    cases hdefer : task.deferDate with
    | error e => exact ⟨e, rfl⟩
    | ok defer => exact ⟨.typeError, rfl⟩

/-- An upload ends in an exception and leaves everything as it was. -/
theorem upload_error (env : UploadEnv) (task : UploadTask) (w : UploadWorld)
    (files : List UploadedFile) : ∃ e, upload env task w files = (.error e, w) := by
  obtain ⟨e, h⟩ := ingestFiles_error env task w files
  refine ⟨e, ?_⟩
  unfold upload
  rw [h]

theorem enqueuedBy_self (w : UploadWorld) : enqueuedBy w w = [] :=
  List.filter_eq_nil_iff.mpr fun job hjob => by simpa using hjob

/-- **An upload is right exactly if it has no file and the live jobs were distinct before.** -/
theorem upload_right_iff (env : UploadEnv) (task : UploadTask) (w : UploadWorld)
    (files : List UploadedFile) :
    UploadRight env task files w (upload env task w files) ↔ files = [] ∧ LiveDistinct w.jobs := by
  obtain ⟨e, h⟩ := upload_error env task w files
  rw [h]
  constructor
  · rintro ⟨honce, -, hdistinct, -⟩
    exact ⟨List.map_eq_nil_iff.mp honce.nil_eq.symm, hdistinct⟩
  · rintro ⟨rfl, hdistinct⟩
    refine ⟨.nil, fun item hitem => (nomatch hitem), hdistinct, [], ?_, ?_⟩
    · exact congrArg _ (enqueuedBy_self w)
    · cases w.redis.strings (redisCreditKey documentCredit) with
      | none => rfl
      | some balance => simp

/-- An empty store for two files. -/
def emptyUploads : UploadWorld := ⟨[], fun _ => none, Redis.tenCredits⟩

/-- Names are kept, the digest of a content is its length. -/
def plainUploads : UploadEnv where
  lower name := name
  sha256 content := toString content.length
  dataIngestionDir := "/data/"
  refuses _ := none
  enqueueRaises _ := false
  cost := ⟨true, false⟩
  definition := ⟨10, 1⟩
  info := ⟨"r1", "client", "now", none, none⟩
  clock _ := (2024, 1)

/-- A request with one file ends in an exception, and the file is not in its response. -/
theorem not_upload_right :
    ¬ UploadRight plainUploads ⟨⟨true, false⟩, .ok none, .ok none, .ok ()⟩ [⟨some "a.txt", [1]⟩]
      emptyUploads (upload plainUploads ⟨⟨true, false⟩, .ok none, .ok none, .ok ()⟩ emptyUploads
        [⟨some "a.txt", [1]⟩]) := by
  rintro ⟨honce, -, -, -⟩
  exact absurd honce.length_eq (by decide)

end Notifyr
