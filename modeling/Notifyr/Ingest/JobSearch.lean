import Mathlib.Data.List.Nodup
import Notifyr.Ingest.Comparable

/-!
# The search for jobs

`search` of `ArqIngestTaskService` (`app/services/worker/arq_service.py`) over the queued jobs and
the results, for every mode, flag and filter.

- `searchJobs`: the nested loop, which is left by a returned job or by an error.
- `hits`: the pairs of a job and a parameter at which the loop stops, with `searchJobs_eq`.
- `SearchedRight`: what a search answers for the jobs of the task that pass the filter.
- `searchedRight_iff`: when it is so. A filter keeps the jobs that it should leave out.

Values are compared by a function that stands for `==`.
-/

namespace Theory

/-! ## Loops that collect, loops that stop

A loop over `l` in which each `a` brings the items `hits a`. -/

variable {α β σ ε : Type} {hits : α → List β}

/-- A loop that collects the items. -/
theorem foldlM_collects {step : List β → α → Except ε (List β)}
    (h : ∀ found a, step found a = .ok (found ++ hits a)) (l : List α) (found : List β) :
    l.foldlM step found = .ok (found ++ l.flatMap hits) := by
  induction l generalizing found with
  | nil => simp [pure, Except.pure]
  | cons a l ih => simp [h, ih, bind, Except.bind]

/-- A loop that stops at the first item. -/
theorem foldlM_stops {step : σ → α → Except ε σ} {stop : β → ε}
    (h : ∀ s a, step s a = (hits a).head?.elim (.ok s) fun b => .error (stop b))
    (l : List α) (s : σ) :
    l.foldlM step s = (l.flatMap hits).head?.elim (.ok s) fun b => .error (stop b) := by
  induction l with
  | nil => rfl
  | cons a l ih =>
    rw [List.foldlM_cons, h, List.flatMap_cons]
    cases hits a with
    | nil => exact ih
    | cons b bs => rfl

end Theory

namespace Notifyr

open Theory

/-- What the search does with the values of a dictionary: `==`, a string as a value, and the text
of the parameters in a message. -/
structure JobValues (V : Type) where
  eq : V → V → Bool
  ofStr : String → V
  repr : Dict String V → String

/-- A queued job. -/
structure JobDef (V : Type) where
  jobId : String
  kwargs : Dict String V

/-- A job that has run. -/
structure JobResult (V : Type) extends JobDef V where
  success : Bool

/-- `Literal['single', 'match']`. -/
inductive SearchMode
  | single | all
  deriving DecidableEq

/-- What the search raises. -/
inductive JobError
  | jobAlreadyExists (jobId reason : String)
  | jobDoesNotExists (jobId reason : String)

/-- What the search returns. -/
inductive JobsFound (V : Type)
  | jobs (jobs : List (JobDef V))
  | job (job : JobDef V)
  | none

/-- The arguments of `search`. -/
structure JobQuery (V : Type) where
  task : String
  params : Dict String V
  raises : Option Bool
  mode : SearchMode
  filter : Option (List String)
  filterMode : SliceMode

section Search

variable {V : Type} (m : JobValues V) (query : JobQuery V)

/-- `get_jobs_results(success)`. -/
def getJobsResults (results : List (JobResult V)) (success : Option Bool) : List (JobDef V) :=
  match success with
  | none => results.map (·.toJobDef)
  | some success => (results.filter (·.success == success)).map (·.toJobDef)

/-- `nickname == task`. -/
def JobDef.named (job : JobDef V) : Bool :=
  match job.kwargs.get? "_nickname" with
  | none => false
  | some nickname => m.eq nickname (m.ofStr query.task)

/-- The two tests of the filter. -/
def JobDef.skipped (job : JobDef V) : Bool :=
  match query.filter with
  | none => false
  | some filter =>
    (decide (job.jobId ∈ filter) == (query.filterMode == .include)) ||
      (decide (job.jobId ∉ filter) == (query.filterMode == .exclude))

/-- `k in job.kwargs and v == job.kwargs[k]`. -/
def JobDef.has (job : JobDef V) (param : String × V) : Bool :=
  match job.kwargs.get? param.1 with
  | none => false
  | some v => m.eq param.2 v

/-- How the search is left at a job that has a parameter. -/
def stopAt (job : JobDef V) : Except JobError (JobsFound V) :=
  if query.raises = some true then
    .error (.jobAlreadyExists job.jobId
      ("job exist found with the search params: " ++ m.repr query.params))
  else .ok (.job job)

/-- One parameter of one job. -/
def searchParam (job : JobDef V) (jobs : List (JobDef V)) (param : String × V) :
    Except (Except JobError (JobsFound V)) (List (JobDef V)) :=
  if job.has m param then
    match query.mode with
    | .single => .error (stopAt m query job)
    | .all => .ok (jobs ++ [job])
  else .ok jobs

/-- One job. -/
def searchJob (jobs : List (JobDef V)) (job : JobDef V) :
    Except (Except JobError (JobsFound V)) (List (JobDef V)) :=
  if !job.named m query then .ok jobs
  else if job.skipped query then .ok jobs
  else query.params.entries.foldlM (searchParam m query job) jobs

/-- What the search answers after the loop. -/
def searchEnd (jobs : List (JobDef V)) : Except JobError (JobsFound V) :=
  if jobs ≠ [] then .ok (.jobs jobs)
  else if query.raises = some false then
    .error (.jobDoesNotExists "not specified"
      ("job does not exist found with the search params: " ++ m.repr query.params))
  else
    match query.mode with
    | .single => .ok .none
    | .all => .ok (.jobs jobs)

/-- `search`. -/
def searchJobs (queued : List (JobDef V)) (results : List (JobResult V)) :
    Except JobError (JobsFound V) :=
  match (queued ++ getJobsResults results (some true)).foldlM (searchJob m query) [] with
  | .error exit => exit
  | .ok jobs => searchEnd m query jobs

/-! ## What a search is for -/

/-- The job is one of the task, passes the filter and has a parameter. -/
structure JobDef.Wanted (job : JobDef V) : Prop where
  task : ∃ nickname, job.kwargs.get? "_nickname" = some nickname ∧
    m.eq nickname (m.ofStr query.task) = true
  filter : ∀ filter, query.filter = some filter →
    match query.filterMode with
    | .include => job.jobId ∈ filter
    | .exclude => job.jobId ∉ filter
  param : ∃ k v w, query.params.get? k = some v ∧ job.kwargs.get? k = some w ∧ m.eq v w = true

/-- The jobs found are the ones wanted, each of them once. -/
structure FoundRight (jobs found : List (JobDef V)) : Prop where
  once : (found.map (·.jobId)).Nodup
  only : ∀ job ∈ found, job ∈ jobs ∧ job.Wanted m query
  each : ∀ job ∈ jobs, job.Wanted m query → job.jobId ∈ found.map (·.jobId)

/-- The answer to a search. -/
def SearchedRight (queued : List (JobDef V)) (results : List (JobResult V)) : Prop :=
  let jobs := queued ++ getJobsResults results (some true)
  let missing := ∀ job ∈ jobs, ¬ job.Wanted m query
  match query.mode, searchJobs m query queued results with
  | .all, .ok (.jobs found) =>
    FoundRight m query jobs found ∧ ¬ (query.raises = some false ∧ missing)
  | .all, .error (.jobDoesNotExists ..) => query.raises = some false ∧ missing
  | .all, _ => False
  | .single, .ok (.job job) => query.raises ≠ some true ∧ job.Wanted m query ∧
    ∃ before after, jobs = before ++ job :: after ∧ ∀ job ∈ before, ¬ job.Wanted m query
  | .single, .ok .none => query.raises ≠ some false ∧ missing
  | .single, .ok (.jobs _) => False
  | .single, .error (.jobAlreadyExists ..) => query.raises = some true ∧ ¬ missing
  | .single, .error (.jobDoesNotExists ..) => query.raises = some false ∧ missing

/-! ## Where the search stops -/

/-- The job is one of the task that has a parameter. -/
def JobDef.Candidate (job : JobDef V) : Prop :=
  job.named m query = true ∧ ∃ param ∈ query.params.entries, job.has m param = true

/-- The job at each of its parameters at which the search stops. -/
def JobDef.hits (job : JobDef V) : List (JobDef V) :=
  if job.named m query && !job.skipped query then
    List.replicate (query.params.entries.countP (job.has m)) job
  else []

variable {m query}

theorem named_iff (job : JobDef V) : job.named m query = true ↔
    ∃ nickname, job.kwargs.get? "_nickname" = some nickname ∧
      m.eq nickname (m.ofStr query.task) = true := by
  unfold JobDef.named
  cases job.kwargs.get? "_nickname" with
  | none => simp
  | some nickname => simp

theorem exists_has_iff (job : JobDef V) :
    (∃ param ∈ query.params.entries, job.has m param = true) ↔
      ∃ k v w, query.params.get? k = some v ∧ job.kwargs.get? k = some w ∧ m.eq v w = true := by
  constructor
  · rintro ⟨⟨k, v⟩, hmem, hhas⟩
    unfold JobDef.has at hhas
    cases hw : job.kwargs.get? k with
    | none =>
      rw [hw] at hhas
      cases hhas
    | some w =>
      rw [hw] at hhas
      exact ⟨k, v, w, (Dict.mem_entries_iff _ _ _).1 hmem, hw, hhas⟩
  · rintro ⟨k, v, w, hv, hw, heq⟩
    refine ⟨(k, v), (Dict.mem_entries_iff _ _ _).2 hv, ?_⟩
    simp [JobDef.has, hw, heq]

/-- The tests leave out the jobs that pass the filter. -/
theorem skipped_iff {filter : List String} (h : query.filter = some filter) (job : JobDef V) :
    job.skipped query = true ↔
      match query.filterMode with
      | .include => job.jobId ∈ filter
      | .exclude => job.jobId ∉ filter := by
  unfold JobDef.skipped
  rw [h]
  rcases query.filterMode with _ | _
  · by_cases hmem : job.jobId ∈ filter
    · simp [hmem]
    · simp [hmem]
  · by_cases hmem : job.jobId ∈ filter
    · simp [hmem]
    · simp [hmem]

theorem wanted_iff (job : JobDef V) : job.Wanted m query ↔
    job.Candidate m query ∧ (query.filter = none ∨ job.skipped query = true) := by
  constructor
  · rintro ⟨htask, hfilter, hparam⟩
    refine ⟨⟨(named_iff job).2 htask, (exists_has_iff job).2 hparam⟩, ?_⟩
    cases h : query.filter with
    | none => exact .inl rfl
    | some filter => exact .inr ((skipped_iff h job).2 (hfilter filter h))
  · rintro ⟨⟨htask, hparam⟩, hfilter⟩
    refine ⟨(named_iff job).1 htask, fun filter h => ?_, (exists_has_iff job).1 hparam⟩
    rcases hfilter with hnone | hskipped
    · rw [hnone] at h
      cases h
    · exact (skipped_iff h job).1 hskipped

theorem mem_hits (job job' : JobDef V) : job' ∈ job.hits m query ↔
    job' = job ∧ job.Candidate m query ∧ job.skipped query = false := by
  unfold JobDef.hits JobDef.Candidate
  rw [← List.countP_pos_iff]
  cases job.named m query with
  | false => simp
  | true =>
    cases job.skipped query with
    | true => simp
    | false => simp [List.mem_replicate, Nat.pos_iff_ne_zero, and_comm]

/-! ## The loop -/

theorem flatMap_has (job : JobDef V) (params : List (String × V)) :
    (params.flatMap fun param => if job.has m param then [job] else []) =
      List.replicate (params.countP (job.has m)) job := by
  induction params with
  | nil => rfl
  | cons param params ih =>
    cases hhas : job.has m param with
    | true => simp [hhas, ih, List.replicate_succ]
    | false => simp [hhas, ih]

theorem searchJob_all (h : query.mode = .all) (found : List (JobDef V)) (job : JobDef V) :
    searchJob m query found job = .ok (found ++ job.hits m query) := by
  have hstep (found : List (JobDef V)) (param : String × V) :
      searchParam m query job found param =
        .ok (found ++ if job.has m param then [job] else []) := by
    unfold searchParam
    cases job.has m param with
    | true => simp [h]
    | false => simp
  unfold searchJob JobDef.hits
  rw [foldlM_collects hstep, flatMap_has]
  cases job.named m query with
  | false => simp
  | true =>
    cases job.skipped query with
    | true => simp
    | false => simp

theorem searchJob_single (h : query.mode = .single) (found : List (JobDef V)) (job : JobDef V) :
    searchJob m query found job =
      (job.hits m query).head?.elim (.ok found) fun job => .error (stopAt m query job) := by
  have hstep (found : List (JobDef V)) (param : String × V) :
      searchParam m query job found param =
        (if job.has m param then [job] else []).head?.elim (.ok found)
          fun job => .error (stopAt m query job) := by
    unfold searchParam
    cases job.has m param with
    | true => simp [h]
    | false => simp
  unfold searchJob JobDef.hits
  rw [foldlM_stops hstep, flatMap_has]
  cases job.named m query with
  | false => simp
  | true =>
    cases job.skipped query with
    | true => simp
    | false => simp

/-- A search, by the jobs at which it stops. -/
theorem searchJobs_eq (queued : List (JobDef V)) (results : List (JobResult V)) :
    searchJobs m query queued results =
      let hits := (queued ++ getJobsResults results (some true)).flatMap (·.hits m query)
      match query.mode with
      | .all => searchEnd m query hits
      | .single => hits.head?.elim (searchEnd m query []) (stopAt m query) := by
  unfold searchJobs
  cases h : query.mode with
  | all => rw [foldlM_collects (searchJob_all h), List.nil_append]
  | single =>
    rw [foldlM_stops (searchJob_single h)]
    dsimp only
    cases ((queued ++ getJobsResults results (some true)).flatMap (·.hits m query)).head? with
    | none => rfl
    | some job => rfl

/-! ## When the answer is right -/

variable (m query) in
/-- For which jobs a search answers what it should. -/
def SearchGuard (jobs : List (JobDef V)) : Prop :=
  match query.filter with
  | none => query.mode = .single ∨
    (∀ job ∈ jobs, job.named m query = true → query.params.entries.countP (job.has m) ≤ 1) ∧
      jobs.Pairwise fun job job' =>
        job.Candidate m query → job'.Candidate m query → job.jobId ≠ job'.jobId
  | some _ => (∀ job ∈ jobs, ¬ job.Candidate m query) ∨
    query.mode = .single ∧ query.raises = some true ∧
      (∃ job ∈ jobs, job.Wanted m query) ∧
        ∃ job ∈ jobs, job.Candidate m query ∧ ¬ job.Wanted m query

variable {queued : List (JobDef V)} {results : List (JobResult V)}

/-- A search for all the jobs is right if the stops of its loop are. -/
theorem searchedRight_all (h : query.mode = .all) : SearchedRight m query queued results ↔
    let jobs := queued ++ getJobsResults results (some true)
    FoundRight m query jobs (jobs.flatMap (·.hits m query)) := by
  dsimp only
  unfold SearchedRight
  rw [searchJobs_eq, h]
  dsimp only
  generalize queued ++ getJobsResults results (some true) = jobs
  have hempty : FoundRight m query jobs [] ↔ ∀ job ∈ jobs, ¬ job.Wanted m query := by
    constructor
    · intro hright job hjob hwanted
      exact List.not_mem_nil (hright.each job hjob hwanted)
    · intro hmissing
      exact ⟨List.nodup_nil, by simp, fun job hjob hwanted => (hmissing job hjob hwanted).elim⟩
  unfold searchEnd
  cases hhits : jobs.flatMap (·.hits m query) with
  | nil =>
    by_cases hraises : query.raises = some false
    · simp [hraises, hempty]
    · simp [hraises, hempty, h]
  | cons job hits =>
    rw [if_pos (List.cons_ne_nil job hits)]
    refine and_iff_left_of_imp fun hright hmissing => ?_
    obtain ⟨hmem, hwanted⟩ := hright.only job List.mem_cons_self
    exact hmissing.2 job hmem hwanted

/-- A search for one job is right if the first stop of its loop is. -/
theorem searchedRight_single (h : query.mode = .single) : SearchedRight m query queued results ↔
    let jobs := queued ++ getJobsResults results (some true)
    (jobs.flatMap (·.hits m query)).head?.elim (∀ job ∈ jobs, ¬ job.Wanted m query) fun job =>
      if query.raises = some true then ∃ job ∈ jobs, job.Wanted m query
      else job.Wanted m query ∧
        ∃ before after, jobs = before ++ job :: after ∧ ∀ job ∈ before, ¬ job.Wanted m query := by
  dsimp only
  unfold SearchedRight
  rw [searchJobs_eq, h]
  dsimp only
  generalize queued ++ getJobsResults results (some true) = jobs
  cases (jobs.flatMap (·.hits m query)).head? with
  | none =>
    by_cases hraises : query.raises = some false
    · simp [searchEnd, hraises]
    · simp [searchEnd, hraises, h]
  | some job =>
    by_cases hraises : query.raises = some true
    · simp [stopAt, hraises]
    · simp [stopAt, hraises]

/-- Where nothing is filtered the loop stops at the jobs that are wanted. -/
theorem mem_hits_of_none (h : query.filter = none) (job job' : JobDef V) :
    job' ∈ job.hits m query ↔ job' = job ∧ job.Wanted m query := by
  have hskipped : job.skipped query = false := by
    unfold JobDef.skipped
    rw [h]
  rw [mem_hits, wanted_iff, hskipped]
  simp [h]

/-- A filter makes the loop stop at the other jobs. -/
theorem mem_hits_of_some {filter : List String} (h : query.filter = some filter)
    (job job' : JobDef V) :
    job' ∈ job.hits m query ↔ job' = job ∧ job.Candidate m query ∧ ¬ job.Wanted m query := by
  rw [mem_hits, wanted_iff, h]
  cases job.skipped query with
  | true => simp
  | false => simp

/-- Where no two stops are for one job. -/
theorem nodup_hits_iff (h : query.filter = none) (jobs : List (JobDef V)) :
    ((jobs.flatMap (·.hits m query)).map (·.jobId)).Nodup ↔
      (∀ job ∈ jobs, job.named m query = true → query.params.entries.countP (job.has m) ≤ 1) ∧
        jobs.Pairwise fun job job' =>
          job.Candidate m query → job'.Candidate m query → job.jobId ≠ job'.jobId := by
  have hmem (job : JobDef V) (id : String) :
      id ∈ (job.hits m query).map (·.jobId) ↔ id = job.jobId ∧ job.Candidate m query := by
    have hwanted : job.Wanted m query ↔ job.Candidate m query := by simp [wanted_iff, h]
    simp only [List.mem_map, mem_hits_of_none h, hwanted]
    constructor
    · rintro ⟨job', ⟨rfl, hcandidate⟩, rfl⟩
      exact ⟨rfl, hcandidate⟩
    · rintro ⟨rfl, hcandidate⟩
      exact ⟨job, ⟨rfl, hcandidate⟩, rfl⟩
  have hjob (job : JobDef V) : ((job.hits m query).map (·.jobId)).Nodup ↔
      (job.named m query = true → query.params.entries.countP (job.has m) ≤ 1) := by
    have hskipped : job.skipped query = false := by
      unfold JobDef.skipped
      rw [h]
    unfold JobDef.hits
    cases job.named m query with
    | false => simp
    | true => simp [hskipped, List.nodup_replicate]
  rw [List.map_flatMap, List.nodup_flatMap]
  refine and_congr (forall₂_congr fun job _ => hjob job) ?_
  refine List.Pairwise.iff fun job job' => ?_
  constructor
  · intro hdisjoint hjob' hjob'' hid
    exact hdisjoint ((hmem job _).2 ⟨rfl, hjob'⟩) ((hmem job' _).2 ⟨hid, hjob''⟩)
  · intro hne id hid hid'
    obtain ⟨rfl, hcandidate⟩ := (hmem job id).1 hid
    obtain ⟨heq, hcandidate'⟩ := (hmem job' _).1 hid'
    exact hne hcandidate hcandidate' heq

theorem foundRight_of_none (h : query.filter = none) (jobs : List (JobDef V)) :
    FoundRight m query jobs (jobs.flatMap (·.hits m query)) ↔
      ((jobs.flatMap (·.hits m query)).map (·.jobId)).Nodup := by
  have hmem (job : JobDef V) :
      job ∈ jobs.flatMap (·.hits m query) ↔ job ∈ jobs ∧ job.Wanted m query := by
    simp [List.mem_flatMap, mem_hits_of_none h]
  exact ⟨fun hright => hright.once, fun hnodup => ⟨hnodup, fun job hjob => (hmem job).1 hjob,
    fun job hjob hwanted => List.mem_map_of_mem ((hmem job).2 ⟨hjob, hwanted⟩)⟩⟩

theorem foundRight_of_some {filter : List String} (h : query.filter = some filter)
    (jobs : List (JobDef V)) : FoundRight m query jobs (jobs.flatMap (·.hits m query)) ↔
      ∀ job ∈ jobs, ¬ job.Candidate m query := by
  have hmem (job : JobDef V) : job ∈ jobs.flatMap (·.hits m query) ↔
      job ∈ jobs ∧ job.Candidate m query ∧ ¬ job.Wanted m query := by
    simp [List.mem_flatMap, mem_hits_of_some h]
  have hcandidate {job : JobDef V} (hwanted : job.Wanted m query) : job.Candidate m query :=
    ((wanted_iff job).1 hwanted).1
  constructor
  · intro hright job hjob hjob'
    by_cases hwanted : job.Wanted m query
    · obtain ⟨found, hfound, -⟩ := List.mem_map.1 (hright.each job hjob hwanted)
      exact ((hmem found).1 hfound).2.2 (hright.only found hfound).2
    · exact hwanted (hright.only job ((hmem job).2 ⟨hjob, hjob', hwanted⟩)).2
  · intro hnone
    have hempty : jobs.flatMap (·.hits m query) = [] := by
      refine List.eq_nil_iff_forall_not_mem.2 fun job hjob => ?_
      obtain ⟨hjob, hjob', -⟩ := (hmem job).1 hjob
      exact hnone job hjob hjob'
    rw [hempty]
    refine ⟨List.nodup_nil, by simp, fun job hjob hwanted => ?_⟩
    exact (hnone job hjob (hcandidate hwanted)).elim

/-- Where the first stop is found. -/
theorem head?_hits (jobs : List (JobDef V)) {job : JobDef V}
    (h : (jobs.flatMap (·.hits m query)).head? = some job) :
    ∃ before after, jobs = before ++ job :: after ∧ job ∈ job.hits m query ∧
      ∀ job ∈ before, job.hits m query = [] := by
  rw [List.head?_flatMap, List.findSome?_eq_some_iff] at h
  obtain ⟨before, job', after, rfl, hhead, hbefore⟩ := h
  have hmem : job ∈ job'.hits m query := List.mem_of_mem_head? hhead
  obtain ⟨rfl, -⟩ := (mem_hits job' job).1 hmem
  exact ⟨before, after, rfl, hmem, fun job hjob => List.head?_eq_none_iff.1 (hbefore job hjob)⟩

theorem hits_of_head? {jobs : List (JobDef V)}
    (h : (jobs.flatMap (·.hits m query)).head? = none) {job : JobDef V} (hjob : job ∈ jobs) :
    job.hits m query = [] :=
  List.flatMap_eq_nil_iff.1 (List.head?_eq_none_iff.1 h) job hjob

theorem single_of_none (h : query.filter = none) (jobs : List (JobDef V)) :
    (jobs.flatMap (·.hits m query)).head?.elim (∀ job ∈ jobs, ¬ job.Wanted m query) fun job =>
      if query.raises = some true then ∃ job ∈ jobs, job.Wanted m query
      else job.Wanted m query ∧
        ∃ before after, jobs = before ++ job :: after ∧
          ∀ job ∈ before, ¬ job.Wanted m query := by
  have hnot {job : JobDef V} (hjob : job.hits m query = []) : ¬ job.Wanted m query := fun hwanted =>
    List.eq_nil_iff_forall_not_mem.1 hjob job ((mem_hits_of_none h job job).2 ⟨rfl, hwanted⟩)
  cases hhead : (jobs.flatMap (·.hits m query)).head? with
  | none => exact fun job hjob => hnot (hits_of_head? hhead hjob)
  | some job =>
    obtain ⟨before, after, rfl, hmem, hbefore⟩ := head?_hits jobs hhead
    have hwanted := ((mem_hits_of_none h job job).1 hmem).2
    dsimp only [Option.elim]
    split
    · exact ⟨job, by simp, hwanted⟩
    · exact ⟨hwanted, before, after, rfl, fun job hjob => hnot (hbefore job hjob)⟩

theorem single_of_some {filter : List String} (h : query.filter = some filter)
    (jobs : List (JobDef V)) :
    ((jobs.flatMap (·.hits m query)).head?.elim (∀ job ∈ jobs, ¬ job.Wanted m query) fun job =>
      if query.raises = some true then ∃ job ∈ jobs, job.Wanted m query
      else job.Wanted m query ∧
        ∃ before after, jobs = before ++ job :: after ∧
          ∀ job ∈ before, ¬ job.Wanted m query) ↔
      (∀ job ∈ jobs, ¬ job.Candidate m query) ∨ query.raises = some true ∧
        (∃ job ∈ jobs, job.Wanted m query) ∧
          ∃ job ∈ jobs, job.Candidate m query ∧ ¬ job.Wanted m query := by
  cases hhead : (jobs.flatMap (·.hits m query)).head? with
  | none =>
    have hwanted {job : JobDef V} (hjob : job ∈ jobs) (hcandidate : job.Candidate m query) :
        job.Wanted m query := by
      by_contra hnot
      exact List.eq_nil_iff_forall_not_mem.1 (hits_of_head? hhead hjob) job
        ((mem_hits_of_some h job job).2 ⟨rfl, hcandidate, hnot⟩)
    constructor
    · exact fun hmissing =>
        .inl fun job hjob hcandidate => hmissing job hjob (hwanted hjob hcandidate)
    · rintro (hnone | ⟨-, -, job, hjob, hcandidate, hnot⟩)
      · exact fun job hjob hjob' => hnone job hjob ((wanted_iff job).1 hjob').1
      · exact (hnot (hwanted hjob hcandidate)).elim
  | some job =>
    obtain ⟨before, after, rfl, hmem, -⟩ := head?_hits jobs hhead
    obtain ⟨-, hcandidate, hnot⟩ := (mem_hits_of_some h job job).1 hmem
    have hjob : job ∈ before ++ job :: after := by simp
    dsimp only [Option.elim]
    split
    · rename_i hraises
      constructor
      · exact fun hwanted => .inr ⟨hraises, hwanted, job, hjob, hcandidate, hnot⟩
      · rintro (hnone | ⟨-, hwanted, -⟩)
        · exact (hnone job hjob hcandidate).elim
        · exact hwanted
    · rename_i hraises
      refine iff_of_false (fun hright => hnot hright.1) ?_
      rintro (hnone | ⟨hraises', -⟩)
      · exact hnone job hjob hcandidate
      · exact hraises hraises'

/-- A search answers with the jobs that are wanted just where it is not filtered, and for all the
jobs no job is found twice; with a filter, just where there is nothing to be found, or where the
error is raised for another job. -/
theorem searchedRight_iff : SearchedRight m query queued results ↔
    SearchGuard m query (queued ++ getJobsResults results (some true)) := by
  unfold SearchGuard
  cases hfilter : query.filter with
  | none =>
    dsimp only
    cases hmode : query.mode with
    | all =>
      rw [searchedRight_all hmode]
      dsimp only
      rw [foundRight_of_none hfilter, nodup_hits_iff hfilter]
      simp
    | single =>
      exact iff_of_true ((searchedRight_single hmode).2 (single_of_none hfilter _)) (.inl rfl)
  | some filter =>
    dsimp only
    cases hmode : query.mode with
    | all =>
      rw [searchedRight_all hmode]
      dsimp only
      rw [foundRight_of_some hfilter]
      simp
    | single =>
      rw [searchedRight_single hmode]
      dsimp only
      rw [single_of_some hfilter]
      simp

end Search

/-- Strings as values. -/
def stringValues : JobValues String := ⟨fun a b => a == b, id, fun _ => "params"⟩

/-- A job of the task `crawl` that has two of the parameters searched for. -/
def crawlJob : JobDef String :=
  ⟨"j", .ofEntries [("_nickname", "crawl"), ("sha", "s"), ("url", "u")]⟩

/-- A job is found once for each of its parameters, and a filter that includes it leaves it out. -/
theorem not_searchedRight_crawlJob :
    ¬ SearchedRight stringValues
      ⟨"crawl", .ofEntries [("sha", "s"), ("url", "u")], none, .all, none, .include⟩
      [crawlJob] [] ∧
    ¬ SearchedRight stringValues
      ⟨"crawl", .ofEntries [("sha", "s")], none, .single, some ["j"], .include⟩ [crawlJob] [] := by
  constructor
  · rintro ⟨hright, -⟩
    exact absurd hright.once (by decide)
  · rintro ⟨-, hmissing⟩
    refine hmissing crawlJob (List.mem_append_left _ List.mem_cons_self) ⟨?_, ?_, ?_⟩
    · exact ⟨"crawl", by decide, by decide⟩
    · rintro filter ⟨⟩
      decide
    · exact ⟨"sha", "s", "s", by decide, by decide, by decide⟩

end Notifyr
