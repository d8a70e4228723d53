import Mathlib.Data.List.Dedup
import Notifyr.Ingest.Urls

/-!
# Soft deduplication of crawls

A new crawl against the jobs that are known: `ComparableURL` (`app/classes/url.py`),
`CrawlingComparableURL` (`app/models/ingest_model.py`) and the second `search` of
`ingest_web_crawling` (`app/services/worker/arq_service.py`).

- `compareUrl`, `compareParam`, `compareCrawl`: the comparisons, which take away from the request.
- `search`: the request against one job after the other.
- `CrawlUrls.Has`, `KnownUrls.Has`: the URLs of a request and of a job.
- `DedupRight`: what should be left of a request; `DedupMeets`: when it is.
- `Tracks`: what the jobs so far have left of the query parameters of a request.
- `dedup_right_iff`: the exact condition, whatever the order of the jobs.
-/

namespace Notifyr

open Theory

/-! ## Comparisons -/

/-- What a set holds: a URL of `pydantic` or a text. The two are never equal. -/
inductive UrlItem
  | url (text : String)
  | str (s : String)
  deriving DecidableEq

/-- `urls` in the kwargs of a job: the dump of a request, whose URLs are texts. -/
inductive KnownUrls
  | listed (urls : List String)
  | seeding (domain : List String)
  | generator (config : URLConfigModel)

/-- The keys of a dumped `SeedingURLModel`. -/
def seedingFields : List String :=
  ["domain", "source", "max_urls", "score_threshold", "queries", "pattern", "top", "jsonld"]

/-- The keys of a dumped `URLParam`. -/
def paramFields : List ParamValue := [.str "values", .str "type", .str "exclude"]

/-- `compare_url`, on URLs and on whatever going through `value` gives. -/
def compareUrl (order : SetOrder) (ptr : List String) (value : List UrlItem) :
    Bool × List String :=
  let urls := order.enum (ptr.dedup.filter fun u => UrlItem.url u ∉ value)
  if urls.isEmpty then (true, ptr) else (false, urls)

/-- The three numbers of a dumped range. -/
def ParamValues.numbers : ParamValues → Option (Int × Int × Int)
  | .tuple start step stop => some (start, step, stop)
  | .list [.int start, .int step, .int stop] => some (start, step, stop)
  | .list _ => none

/-- One parameter of `compare_param`; `none` is one of `keys_to_remove`. -/
def compareKey (order : SetOrder) (value : Dict String URLParam) (key : String)
    (param : URLParam) : Option URLParam :=
  match value.get? key with
  | none => some param
  | some known =>
    match param.values, known.type with
    | .list items, .list =>
      -- `set(value_values)`: the keys of the dictionary, not its values
      let diff := order.enum ((setOf items).filter fun v => v ∉ paramFields)
      if diff.isEmpty then none else some (.mk (.list diff) param.type param.exclude)
    | .tuple start step stop, .range =>
      if known.values.numbers = some (start, step, stop) then none
      else
        match known.values.numbers with
        | none => none
        | some (start', step', stop') =>
          match URLParam.validate order (.mk (.tuple start step stop) .range
              (some (.mk (.tuple start' step' stop') .range none))) with
          | .ok temp => some temp
          | .error _ => none
    | _, _ => none

/-- `compare_param`. -/
def compareParam (order : SetOrder) (ptr value : Dict String URLParam) :
    Bool × Dict String URLParam :=
  let ptr := ptr.filterMapValues (compareKey order value)
  (ptr.entries.isEmpty, ptr)

/-- `CrawlingComparableURL.__eq__`, with what it leaves of the request. -/
def compareCrawl (order : SetOrder) : CrawlUrls → KnownUrls → Bool × CrawlUrls
  | .listed urls, .listed known =>
    let (same, urls) := compareUrl order urls (known.map .str)
    (same, .listed urls)
  -- `value` itself, whose items are its keys
  | .seeding model, .seeding _ =>
    let (same, domain) := compareUrl order model.domain (seedingFields.map .str)
    (same, .seeding { model with domain })
  | .generator config, .generator known =>
    if config.baseUrl ≠ known.baseUrl then (false, .generator config)
    else
      let (params, pathParams) := compareParam order config.pathParams known.pathParams
      let (query, queryParams) := compareParam order config.queryParams known.queryParams
      (params && query, .generator { config with pathParams, queryParams })
  | request, _ => (false, request)

/-! ## The search -/

/-- What `search` reads of a job. -/
structure KnownJob where
  jobId : String
  nickname : Option String
  urls : Option KnownUrls

/-- `SliceMode`. -/
inductive SliceMode
  | include | exclude
  deriving DecidableEq

/-- Whether a job is looked at. -/
def KnownJob.passes (job : KnownJob) (filter : List String) (mode : SliceMode) : Bool :=
  !(decide (job.jobId ∈ filter) == (mode == .include)) &&
    !(decide (job.jobId ∉ filter) == (mode == .exclude))

/-- `search(task, {'urls': …}, True, filter=filter)`: what is left of the request, or the job
of the `JobAlreadyExistsError`. -/
def search (order : SetOrder) (task : String) (filter : List String) :
    CrawlUrls → List KnownJob → Except String CrawlUrls
  | request, [] => .ok request
  | request, job :: jobs =>
    if job.nickname ≠ some task then search order task filter request jobs
    else if !job.passes filter .include then search order task filter request jobs
    else
      match job.urls with
      | none => search order task filter request jobs
      | some known =>
        match compareCrawl order request known with
        | (true, _) => .error job.jobId
        | (false, request) => search order task filter request jobs

/-- What the request is compared with, if it is compared with the job. -/
def comparedWith (task : String) (filter : List String) (job : KnownJob) : Option KnownUrls :=
  if job.nickname = some task ∧ job.jobId ∉ filter then job.urls else none

/-- The jobs that the request is compared with. -/
def compared (task : String) (filter : List String) (jobs : List KnownJob) : List KnownUrls :=
  jobs.filterMap (comparedWith task filter)

/-! ## URLs -/

/-- A listed URL, a seeded domain, or a base URL with the values of its parameters. -/
inductive CrawlItem
  | url (text : String)
  | domain (text : String)
  | generated (baseUrl : String) (path query : String → Option String)

/-- Each parameter has the text of one of its values. -/
def Assigns (params : String → Option URLParam) (values : String → Option String) : Prop :=
  ∀ k, match params k with
    | some param => ∃ v ∈ param.members, values k = some v.text
    | none => values k = none

/-- The URLs of a configuration; query parameters without values are no part of them. -/
def URLConfigModel.Has (config : URLConfigModel) : CrawlItem → Prop
  | .generated baseUrl path query => baseUrl = config.baseUrl ∧
    Assigns config.pathParams.get? path ∧
    Assigns (fun k => (config.queryParams.get? k).filter (·.values.truthy)) query
  | _ => False

/-- The URLs of a request. -/
def CrawlUrls.Has : CrawlUrls → CrawlItem → Prop
  | .listed urls, .url u => u ∈ urls
  | .seeding model, .domain d => d ∈ model.domain
  | .generator config, item => config.Has item
  | _, _ => False

/-- The URLs that a job covers. -/
def KnownUrls.Has : KnownUrls → CrawlItem → Prop
  | .listed urls, .url u => u ∈ urls
  | .seeding domain, .domain d => d ∈ domain
  | .generator config, item => config.Has item
  | _, _ => False

/-- Some job covers the URL. -/
def Covered (known : List KnownUrls) (item : CrawlItem) : Prop := ∃ job ∈ known, job.Has item

/-- What should come of a request: exactly the URLs that no job covers, and the error where there
are none. -/
def DedupRight (request : CrawlUrls) (known : List KnownUrls) : Except String CrawlUrls → Prop
  | .error _ => ∀ item, request.Has item → Covered known item
  | .ok left => (∀ item, left.Has item ↔ request.Has item ∧ ¬ Covered known item) ∧
    ∃ item, left.Has item

/-! ## When it is right -/

/-- The configurations that a request is compared with. -/
def sameBase (config : URLConfigModel) (known : List KnownUrls) : List URLConfigModel :=
  known.filterMap fun
    | .generator job => if config.baseUrl = job.baseUrl then some job else none
    | _ => none

/-- A value is struck out: a job has the parameter, and the value is the name of a field. -/
def Struck (jobs : List URLConfigModel) (key : String) (v : ParamValue) : Prop :=
  (∃ job ∈ jobs, key ∈ job.queryParams.keys) ∧ v ∈ paramFields

/-- A parameter is dropped: a job has it, and not as a list, or none of its values stays. -/
def Dropped (jobs : List URLConfigModel) (key : String) (param : URLParam) : Prop :=
  ∃ job ∈ jobs, ∃ known, job.queryParams.get? key = some known ∧
    (known.type ≠ .list ∨ ∀ v ∈ param.members, v ∈ paramFields)

/-- The request is refused: it is compared, and all its parameters are dropped. -/
def Refused (jobs : List URLConfigModel) (config : URLConfigModel) : Prop :=
  (∃ job, job ∈ jobs) ∧
    ∀ key param, config.queryParams.get? key = some param → Dropped jobs key param

/-- When what is left of a request is right. A listed or a seeded one must be new throughout; an
empty list must meet another list. Of a generated one, if it is refused, all must be known; else
no parameter that has values may be dropped, and what is known must be what has a value that is
struck out. -/
def DedupMeets (known : List KnownUrls) : CrawlUrls → Prop
  | .listed urls => (urls = [] → ∃ job ∈ known, job matches .listed _) ∧
    ∀ u ∈ urls, ¬ Covered known (.url u)
  | .seeding model => ∀ d ∈ model.domain, ¬ Covered known (.domain d)
  | .generator config =>
    let jobs := sameBase config known
    (Refused jobs config → ∀ item, config.Has item → Covered known item) ∧
    (¬ Refused jobs config →
      (∀ key param, config.queryParams.get? key = some param → param.values.truthy →
        ¬ Dropped jobs key param) ∧
      ∀ baseUrl path query, config.Has (.generated baseUrl path query) →
        (Covered known (.generated baseUrl path query) ↔
          ∃ key v, query key = some v.text ∧ Struck jobs key v))

/-! ## What is accepted -/

/-- A list as validation leaves it. -/
def ListParam (param : URLParam) (items : List ParamValue) : Prop :=
  param = .mk (.list items) .list none ∧ (items.map ParamValue.key).Nodup

/-- A configuration as a request over HTTP has it: no path parameters, and lists. -/
structure URLConfigModel.Listed (config : URLConfigModel) : Prop where
  path : config.pathParams = .empty
  query : ∀ key param, config.queryParams.get? key = some param → ∃ items, ListParam param items

/-- What JSON gives: no tuples. -/
def URLConfigInput.FromJson (input : URLConfigInput) : Prop :=
  ∀ params, input.queryParams = some params → ∀ e ∈ params.entries, ∃ items,
    e.2.values = .list items

/-- What the model of a request accepts. -/
def CrawlUrls.Accepted : CrawlUrls → Prop
  | .listed _ => True
  | .seeding model => model.domain ≠ []
  | .generator config => ∃ order input, input.FromJson ∧
    URLGeneratorModel.validate order input = .ok config

variable {order : SetOrder} {input : URLConfigInput} {config : URLConfigModel}

theorem nodup_setOf (values : List ParamValue) : ((setOf values).map ParamValue.key).Nodup := by
  unfold setOf
  suffices h : ∀ s : List ParamValue, (s.map ParamValue.key).Nodup → ((values.foldl (fun s v =>
      if s.any fun w => w.key = v.key then s else s ++ [v]) s).map ParamValue.key).Nodup from
    h [] List.nodup_nil
  induction values with
  | nil => exact fun s hs => hs
  | cons v values ih =>
    intro s hs
    rw [List.foldl_cons]
    refine ih _ ?_
    split
    · exact hs
    · rename_i hnew
      rw [List.map_append]
      refine List.nodup_append.mpr ⟨hs, List.nodup_singleton _, fun a ha b hb => ?_⟩
      obtain ⟨w, hw, rfl⟩ := List.mem_map.mp ha
      cases List.mem_singleton.mp hb
      rintro heq
      exact hnew (List.any_eq_true.mpr ⟨w, hw, by simpa using heq⟩)

/-- Values that are all different are their own set. -/
theorem setOf_eq {values : List ParamValue} (h : (values.map ParamValue.key).Nodup) :
    setOf values = values := by
  unfold setOf
  suffices hfold : ∀ s : List ParamValue, ((s ++ values).map ParamValue.key).Nodup →
      values.foldl (fun s v => if s.any fun w => w.key = v.key then s else s ++ [v]) s =
        s ++ values from hfold [] h
  induction values with
  | nil => exact fun s _ => (List.append_nil s).symm
  | cons v values ih =>
    intro s hs
    have hnew : (s.any fun w => w.key = v.key) = false := by
      rw [List.any_eq_false]
      intro w hw heq
      rw [List.map_append, List.map_cons] at hs
      exact (List.nodup_append.mp hs).2.2 _ (List.mem_map.mpr ⟨w, hw, rfl⟩) _ List.mem_cons_self
        (by simpa using heq)
    rw [List.foldl_cons, hnew, if_neg Bool.false_ne_true]
    rw [ih (List.nodup_cons.mp h).2 (s ++ [v]) (by simpa using hs)]
    simp

/-- The list of a list parameter excludes nothing. -/
theorem validateExclude_list (values : ParamValues) (exclude : Option URLParam) :
    URLParam.validateExclude (.mk values .list exclude) = .ok (.mk values .list none) := by
  rcases exclude with _ | ⟨values', type', exclude'⟩
  · rfl
  · simp only [URLParam.validateExclude, true_or, if_true]

/-- Validation leaves a list a list. -/
theorem validate_list {param param' : URLParam} {items : List ParamValue}
    (hlist : param.values = .list items) (h : param.validate order = .ok param') :
    ∃ items, ListParam param' items := by
  obtain ⟨values, type, exclude⟩ := param
  cases (show values = .list items from hlist)
  have hset : ListParam (.mk (.list (order.enum (setOf items))) .list none)
      (order.enum (setOf items)) :=
    ⟨rfl, ((order.perm _).map _).nodup_iff.mpr (nodup_setOf items)⟩
  have hsecond : ∀ exclude, (URLParam.validateRangeOrList order (.mk (.list items) type exclude) >>=
      URLParam.validateExclude) = .ok param' → ∃ items, ListParam param' items := by
    intro exclude h
    cases type with
    | range => cases h
    | list =>
      cases (validateExclude_list _ exclude).symm.trans h
      exact ⟨_, hset⟩
  cases exclude with
  | none =>
    rw [URLParam.validate] at h
    exact hsecond none h
  | some exclude =>
    rw [URLParam.validate] at h
    obtain ⟨exclude, -, h⟩ := bind_ok h
    exact hsecond _ h

/-- A request over HTTP has neither path parameters nor ranges. -/
theorem listed_of_json (hjson : input.FromJson)
    (h : URLGeneratorModel.validate order input = .ok config) : config.Listed := by
  obtain ⟨config', hconfig, h⟩ := bind_ok h
  obtain ⟨-, -, h⟩ := bind_ok h
  obtain ⟨-, -, h⟩ := bind_ok h
  cases h
  refine ⟨accepted_pathParams hconfig, fun key param hparam => ?_⟩
  obtain ⟨pathParams, -, hconfig⟩ := bind_ok hconfig
  obtain ⟨queryParams, hquery, hconfig⟩ := bind_ok hconfig
  cases hconfig
  cases hgiven : input.queryParams with
  | none =>
    rw [hgiven] at hquery
    cases hquery
    cases hparam
  | some params =>
    rw [hgiven] at hquery
    obtain ⟨entries, hentries, hquery⟩ := bind_ok hquery
    cases hquery
    have hmem := Dict.mem_of_ofEntries ((Dict.mem_entries_iff _ _ _).mpr hparam)
    obtain ⟨e, he, hvalid⟩ := (mem_mapM_ok_iff hentries).mp hmem
    obtain ⟨param', hvalid, heq⟩ := bind_ok hvalid
    cases heq
    obtain ⟨items, hitems⟩ := hjson params hgiven e he
    exact validate_list hitems hvalid

/-! ## One job after the other -/

/-- The comparisons of a search; `none` is the error. -/
def compareAll (order : SetOrder) : CrawlUrls → List KnownUrls → Option CrawlUrls
  | request, [] => some request
  | request, job :: known =>
    match compareCrawl order request job with
    | (true, _) => none
    | (false, request) => compareAll order request known

theorem passes_include (job : KnownJob) (filter : List String) :
    job.passes filter .include = decide (job.jobId ∉ filter) := by
  unfold KnownJob.passes
  by_cases h : job.jobId ∈ filter
  · simp [h]
  · simp [h]

theorem search_cons (order : SetOrder) (task : String) (filter : List String)
    (request : CrawlUrls) (job : KnownJob) (jobs : List KnownJob) :
    search order task filter request (job :: jobs) =
      match comparedWith task filter job with
      | none => search order task filter request jobs
      | some known =>
        match compareCrawl order request known with
        | (true, _) => .error job.jobId
        | (false, request) => search order task filter request jobs := by
  unfold comparedWith
  by_cases hname : job.nickname = some task
  · by_cases hfilter : job.jobId ∈ filter
    · simp [search, passes_include, hname, hfilter]
    · rw [if_pos ⟨hname, hfilter⟩]
      simp [search, passes_include, hname, hfilter]
  · simp [search, hname]

/-- A search is its comparisons. -/
theorem search_toOption (order : SetOrder) (task : String) (filter : List String)
    (request : CrawlUrls) (jobs : List KnownJob) :
    (search order task filter request jobs).toOption =
      compareAll order request (compared task filter jobs) := by
  induction jobs generalizing request with
  | nil => rfl
  | cons job jobs ih =>
    rw [search_cons]
    cases hjob : comparedWith task filter job with
    | none =>
      rw [show compared task filter (job :: jobs) = _ from List.filterMap_cons_none hjob]
      exact ih request
    | some known =>
      rw [show compared task filter (job :: jobs) = _ from List.filterMap_cons_some hjob]
      dsimp only [compareAll]
      rcases compareCrawl order request known with ⟨_ | _, request'⟩
      · exact ih request'
      · rfl

/-- The outcome of the comparisons. -/
def OutcomeRight (request : CrawlUrls) (known : List KnownUrls) : Option CrawlUrls → Prop
  | none => ∀ item, request.Has item → Covered known item
  | some left => (∀ item, left.Has item ↔ request.Has item ∧ ¬ Covered known item) ∧
    ∃ item, left.Has item

theorem dedupRight_iff_outcome (request : CrawlUrls) (known : List KnownUrls)
    (outcome : Except String CrawlUrls) :
    DedupRight request known outcome ↔ OutcomeRight request known outcome.toOption := by
  cases outcome with
  | error e => rfl
  | ok left => rfl

/-! ### Lists of URLs and of domains -/

/-- A URL is never the text of one. -/
theorem compareUrl_str (order : SetOrder) (ptr known : List String) :
    compareUrl order ptr (known.map .str) =
      if ptr = [] then (true, ptr) else (false, order.enum ptr.dedup) := by
  have hall : (ptr.dedup.filter fun u => UrlItem.url u ∉ known.map .str) = ptr.dedup := by
    rw [List.filter_eq_self]
    intro u _
    simp
  unfold compareUrl
  rw [hall]
  cases ptr with
  | nil =>
    have hnil : order.enum ([] : List String) = [] := (order.perm _).eq_nil
    simp [hnil]
  | cons u rest =>
    have hmem : u ∈ order.enum (u :: rest).dedup :=
      (order.mem_enum _ _).mpr (List.mem_dedup.mpr List.mem_cons_self)
    have hne : (order.enum (u :: rest).dedup).isEmpty = false := by
      rw [List.isEmpty_eq_false_iff]
      exact List.ne_nil_of_mem hmem
    simp [hne]

/-- A list of URLs stays, unless it is empty and meets another list. -/
theorem compareAll_listed (order : SetOrder) (urls : List String) (known : List KnownUrls) :
    (compareAll order (.listed urls) known = none ∧ urls = [] ∧
      ∃ job ∈ known, job matches .listed _) ∨
    ∃ left, compareAll order (.listed urls) known = some (.listed left) ∧
      (∀ u, u ∈ left ↔ u ∈ urls) ∧ (urls = [] → ¬ ∃ job ∈ known, job matches .listed _) := by
  induction known generalizing urls with
  | nil => exact .inr ⟨urls, rfl, fun _ => Iff.rfl, fun _ h => by obtain ⟨_, h, _⟩ := h; cases h⟩
  | cons job known ih =>
    cases job with
    | listed known' =>
      by_cases hempty : urls = []
      · subst hempty
        refine .inl ⟨?_, rfl, .listed known', List.mem_cons_self, rfl⟩
        simp only [compareAll, compareCrawl, compareUrl_str, if_true]
      · have hstep : compareAll order (.listed urls) (.listed known' :: known) =
            compareAll order (.listed (order.enum urls.dedup)) known := by
          simp only [compareAll, compareCrawl, compareUrl_str, if_neg hempty]
        have hmem : ∀ u, u ∈ order.enum urls.dedup ↔ u ∈ urls := fun u => by
          rw [order.mem_enum, List.mem_dedup]
        rw [hstep]
        rcases ih (order.enum urls.dedup) with ⟨-, hnil, -⟩ | ⟨left, hleft, hsame, -⟩
        · exact absurd (List.eq_nil_iff_forall_not_mem.mpr fun u hu =>
            List.not_mem_nil (hnil ▸ (hmem u).mpr hu)) hempty
        · exact .inr ⟨left, hleft, fun u => (hsame u).trans (hmem u), fun h => absurd h hempty⟩
    | seeding domain =>
      refine (ih urls).imp (fun ⟨h, hnil, job, hjob, hmatch⟩ => ⟨h, hnil, job, ?_, hmatch⟩)
        fun ⟨left, h, hsame, hnone⟩ => ⟨left, h, hsame, ?_⟩
      · exact List.mem_cons_of_mem _ hjob
      · simpa using hnone
    | generator config =>
      refine (ih urls).imp (fun ⟨h, hnil, job, hjob, hmatch⟩ => ⟨h, hnil, job, ?_, hmatch⟩)
        fun ⟨left, h, hsame, hnone⟩ => ⟨left, h, hsame, ?_⟩
      · exact List.mem_cons_of_mem _ hjob
      · simpa using hnone

/-- The domains of a seeded request stay. -/
theorem compareAll_seeding (order : SetOrder) {model : SeedingURLModel} (known : List KnownUrls)
    (hdomain : model.domain ≠ []) :
    ∃ left, compareAll order (.seeding model) known = some (.seeding left) ∧
      ∀ d, d ∈ left.domain ↔ d ∈ model.domain := by
  induction known generalizing model with
  | nil => exact ⟨model, rfl, fun _ => Iff.rfl⟩
  | cons job known ih =>
    cases job with
    | listed urls => exact ih hdomain
    | generator config => exact ih hdomain
    | seeding domain =>
      have hstep : compareAll order (.seeding model) (.seeding domain :: known) =
          compareAll order (.seeding { model with domain := order.enum model.domain.dedup })
            known := by
        simp only [compareAll, compareCrawl, compareUrl_str, if_neg hdomain]
      have hmem : ∀ d, d ∈ order.enum model.domain.dedup ↔ d ∈ model.domain := fun d => by
        rw [order.mem_enum, List.mem_dedup]
      obtain ⟨d, hd⟩ := List.exists_mem_of_ne_nil _ hdomain
      have hne : order.enum model.domain.dedup ≠ [] := List.ne_nil_of_mem ((hmem d).mpr hd)
      obtain ⟨left, hleft, hsame⟩ := @ih { model with domain := order.enum model.domain.dedup } hne
      exact ⟨left, hstep.trans hleft, fun d => (hsame d).trans (hmem d)⟩

/-! ### Generated URLs -/

/-- What the jobs so far have left of a configuration. -/
structure Tracks (jobs : List URLConfigModel) (config left : URLConfigModel) : Prop where
  base : left.baseUrl = config.baseUrl
  path : left.pathParams = .empty
  absent : ∀ key, config.queryParams.get? key = none → left.queryParams.get? key = none
  dropped : ∀ key param, config.queryParams.get? key = some param → Dropped jobs key param →
    left.queryParams.get? key = none
  kept : ∀ key param items, config.queryParams.get? key = some param → ListParam param items →
    ¬ Dropped jobs key param → ∃ param' items', left.queryParams.get? key = some param' ∧
      ListParam param' items' ∧ ∀ v, v ∈ items' ↔ v ∈ items ∧ ¬ Struck jobs key v

variable {jobs : List URLConfigModel} {left job : URLConfigModel} {key : String}
  {param : URLParam} {items : List ParamValue}

theorem not_dropped_nil : ¬ Dropped [] key param := by
  rintro ⟨job, hjob, -⟩
  cases hjob

theorem not_struck_nil {v : ParamValue} : ¬ Struck [] key v := by
  rintro ⟨⟨job, hjob, -⟩, -⟩
  cases hjob

theorem dropped_append : Dropped (jobs ++ [job]) key param ↔
    Dropped jobs key param ∨ Dropped [job] key param := by
  unfold Dropped
  simp only [List.mem_append, or_and_right, exists_or]

theorem struck_append {v : ParamValue} : Struck (jobs ++ [job]) key v ↔
    Struck jobs key v ∨ Struck [job] key v := by
  unfold Struck
  simp only [List.mem_append, or_and_right, exists_or]

theorem struck_singleton {v : ParamValue} :
    Struck [job] key v ↔ key ∈ job.queryParams.keys ∧ v ∈ paramFields := by
  unfold Struck
  simp only [List.mem_singleton, exists_eq_left]

/-- At first nothing is gone. -/
theorem tracks_nil (h : config.pathParams = .empty) : Tracks [] config config where
  base := rfl
  path := h
  absent _ h := h
  dropped _ _ _ h := absurd h not_dropped_nil
  kept _ param items hparam hlist _ :=
    ⟨param, items, hparam, hlist, fun _ => (and_iff_left not_struck_nil).symm⟩

/-- One parameter against one job. -/
theorem compareKey_list (order : SetOrder) (job : URLConfigModel) (key : String)
    (hlist : ListParam param items) :
    (Dropped [job] key param ∧ compareKey order job.queryParams key param = none) ∨
    (¬ Dropped [job] key param ∧ ∃ param' items',
      compareKey order job.queryParams key param = some param' ∧ ListParam param' items' ∧
      ∀ v, v ∈ items' ↔ v ∈ items ∧ ¬ Struck [job] key v) := by
  obtain ⟨rfl, hnodup⟩ := hlist
  have hdropped : Dropped [job] key (.mk (.list items) .list none) ↔
      ∃ known, job.queryParams.get? key = some known ∧
        (known.type ≠ .list ∨ ∀ v ∈ items, v ∈ paramFields) := by
    unfold Dropped
    simp only [List.mem_singleton, exists_eq_left]
    rfl
  have hkeys := Dict.mem_keys_iff job.queryParams key
  simp only [hdropped, struck_singleton, hkeys]
  cases hknown : job.queryParams.get? key with
  | none =>
    refine .inr ⟨?_, _, items, ?_, ⟨rfl, hnodup⟩, fun v => ?_⟩
    · rintro ⟨_, h, -⟩
      cases h
    · simp only [compareKey, hknown]
    · simp
  | some known =>
    have hcompare : compareKey order job.queryParams key (.mk (.list items) .list none) =
        if known.type = .list then
          if (order.enum (items.filter fun v => v ∉ paramFields)).isEmpty then none
          else some (.mk (.list (order.enum (items.filter fun v => v ∉ paramFields))) .list none)
        else none := by
      unfold compareKey
      rw [hknown]
      obtain ⟨values, type, exclude⟩ := known
      cases type with
      | list =>
        dsimp only [URLParam.values, URLParam.type, URLParam.exclude]
        rw [setOf_eq hnodup]
        rfl
      | range => rfl
    have hmem : ∀ v, v ∈ order.enum (items.filter fun v => v ∉ paramFields) ↔
        v ∈ items ∧ v ∉ paramFields := fun v => by
      rw [order.mem_enum, List.mem_filter, decide_eq_true_eq]
    rw [hcompare]
    by_cases htype : known.type = .list
    · rw [if_pos htype]
      by_cases hempty : ∀ v ∈ items, v ∈ paramFields
      · refine .inl ⟨⟨known, rfl, .inr hempty⟩, if_pos ?_⟩
        rw [List.isEmpty_iff, List.eq_nil_iff_forall_not_mem]
        intro v hv
        obtain ⟨hv, hnot⟩ := (hmem v).mp hv
        exact hnot (hempty v hv)
      · refine .inr ⟨?_, _, _, if_neg ?_, ⟨rfl, ?_⟩, fun v => ?_⟩
        · rintro ⟨known', h, htype' | hall⟩
          · cases h
            exact htype' htype
          · exact hempty hall
        · simp only [not_forall] at hempty
          obtain ⟨v, hv, hnot⟩ := hempty
          rw [List.isEmpty_iff]
          exact List.ne_nil_of_mem ((hmem v).mpr ⟨hv, hnot⟩)
        · refine ((order.perm _).map _).nodup_iff.mpr ?_
          exact (List.filter_sublist.map _).nodup hnodup
        · rw [hmem]
          simp
    · rw [if_neg htype]
      exact .inl ⟨⟨known, rfl, .inl htype⟩, rfl⟩

/-- The configuration after one job of the same base URL. -/
def comparedConfig (order : SetOrder) (left job : URLConfigModel) : URLConfigModel :=
  { left with
    pathParams := (compareParam order left.pathParams job.pathParams).2
    queryParams := (compareParam order left.queryParams job.queryParams).2 }

theorem Tracks.step (order : SetOrder) (hconfig : config.Listed) (h : Tracks jobs config left)
    (job : URLConfigModel) : Tracks (jobs ++ [job]) config (comparedConfig order left job) := by
  have hget : ∀ key, (comparedConfig order left job).queryParams.get? key =
      (left.queryParams.get? key).bind (compareKey order job.queryParams key) :=
    fun key => Dict.get?_filterMapValues _ _ _
  refine ⟨h.base, ?_, fun key hkey => ?_, fun key param hparam hdropped => ?_,
    fun key param items hparam hlist hkept => ?_⟩
  · unfold comparedConfig
    rw [h.path]
    rfl
  · rw [hget, h.absent key hkey]
    rfl
  · rw [hget]
    by_cases hbefore : Dropped jobs key param
    · rw [h.dropped key param hparam hbefore]
      rfl
    · obtain ⟨items, hlist⟩ := hconfig.query key param hparam
      obtain ⟨param', items', hleft, hlist', hmem⟩ := h.kept key param items hparam hlist hbefore
      rw [hleft, Option.bind_some]
      rcases compareKey_list order job key hlist' with ⟨-, hnone⟩ | ⟨hnot, -⟩
      · exact hnone
      · refine absurd ?_ hnot
        -- what was struck out before is a field, too
        obtain ⟨job', hjob, known, hknown, hgone⟩ :=
          (dropped_append.mp hdropped).resolve_left hbefore
        refine ⟨job', hjob, known, hknown, hgone.imp id fun hall v hv => ?_⟩
        obtain ⟨rfl, -⟩ := hlist
        obtain ⟨rfl, -⟩ := hlist'
        exact hall v ((hmem v).mp hv).1
  · rw [dropped_append, not_or] at hkept
    obtain ⟨param', items', hleft, hlist', hmem⟩ := h.kept key param items hparam hlist hkept.1
    rw [hget, hleft, Option.bind_some]
    rcases compareKey_list order job key hlist' with ⟨hdropped, -⟩ | ⟨-, param'', items'', hsome,
      hlist'', hmem'⟩
    · refine absurd ?_ hkept.2
      obtain ⟨job', hjob, known, hknown, hgone⟩ := hdropped
      refine ⟨job', hjob, known, hknown, hgone.imp id fun hall v hv => ?_⟩
      obtain ⟨rfl, -⟩ := hlist
      obtain ⟨rfl, -⟩ := hlist'
      by_cases hstruck : Struck jobs key v
      · exact hstruck.2
      · exact hall v ((hmem v).mpr ⟨hv, hstruck⟩)
    · refine ⟨param'', items'', hsome, hlist'', fun v => ?_⟩
      rw [hmem', hmem, struck_append, not_or, and_assoc]

theorem entries_eq_nil_iff {d : Dict String URLParam} :
    d.entries = [] ↔ ∀ key, d.get? key = none := by
  have hkeys : d.entries = [] ↔ d.keys = [] := List.map_eq_nil_iff.symm
  rw [hkeys, List.eq_nil_iff_forall_not_mem]
  exact forall_congr' fun key => Dict.not_mem_keys_iff d key

/-- Nothing is left of the query parameters exactly if all are dropped. -/
theorem Tracks.empty_iff (hconfig : config.Listed) (h : Tracks jobs config left) :
    left.queryParams.entries = [] ↔
      ∀ key param, config.queryParams.get? key = some param → Dropped jobs key param := by
  rw [entries_eq_nil_iff]
  constructor
  · intro hnone key param hparam
    by_contra hkept
    obtain ⟨items, hlist⟩ := hconfig.query key param hparam
    obtain ⟨param', items', hleft, -, -⟩ := h.kept key param items hparam hlist hkept
    cases (hnone key).symm.trans hleft
  · intro hall key
    cases hparam : config.queryParams.get? key with
    | none => exact h.absent key hparam
    | some param => exact h.dropped key param hparam (hall key param hparam)

/-- A comparison with a configuration of the same base URL. -/
theorem compareCrawl_generator (order : SetOrder) (hpath : left.pathParams = .empty)
    (hbase : left.baseUrl = job.baseUrl) :
    compareCrawl order (.generator left) (.generator job) =
      ((comparedConfig order left job).queryParams.entries.isEmpty,
        .generator (comparedConfig order left job)) := by
  have hempty : (compareParam order left.pathParams job.pathParams).1 = true := by
    rw [hpath]
    rfl
  dsimp only [compareCrawl]
  rw [if_neg (not_not.mpr hbase)]
  show ((compareParam order left.pathParams job.pathParams).1 &&
    (compareParam order left.queryParams job.queryParams).1, _) = _
  rw [hempty, Bool.true_and]
  rfl

theorem Refused.append {jobs' : List URLConfigModel} (h : Refused jobs config) :
    Refused (jobs ++ jobs') config := by
  obtain ⟨⟨job, hjob⟩, hall⟩ := h
  refine ⟨⟨job, List.mem_append_left _ hjob⟩, fun key param hparam => ?_⟩
  obtain ⟨job', hjob', hgone⟩ := hall key param hparam
  exact ⟨job', List.mem_append_left _ hjob', hgone⟩

/-- **The comparisons of a generated request.** It is refused, or what is left is tracked. -/
theorem compareAll_generator (order : SetOrder) (hconfig : config.Listed) (known : List KnownUrls)
    (h : Tracks jobs config left) (hopen : ¬ Refused jobs config) :
    (compareAll order (.generator left) known = none ∧
      Refused (jobs ++ sameBase config known) config) ∨
    ∃ left', compareAll order (.generator left) known = some (.generator left') ∧
      Tracks (jobs ++ sameBase config known) config left' ∧
      ¬ Refused (jobs ++ sameBase config known) config := by
  induction known generalizing left jobs with
  | nil =>
    rw [show sameBase config [] = [] from rfl, List.append_nil]
    exact .inr ⟨left, rfl, h, hopen⟩
  | cons first known ih =>
    cases first with
    | listed urls => exact ih h hopen
    | seeding domain => exact ih h hopen
    | generator job =>
      by_cases hbase : config.baseUrl = job.baseUrl
      · have hjobs : sameBase config (.generator job :: known) = job :: sameBase config known := by
          simp only [sameBase, List.filterMap_cons, hbase, if_true]
        have hstep := compareCrawl_generator order h.path (h.base.trans hbase)
        have htracks := h.step order hconfig job
        rw [hjobs, List.append_cons]
        by_cases hempty : (comparedConfig order left job).queryParams.entries = []
        · refine .inl ⟨?_, Refused.append ⟨⟨job, ?_⟩, (htracks.empty_iff hconfig).mp hempty⟩⟩
          · simp only [compareAll, hstep, hempty, List.isEmpty_nil]
          · exact List.mem_append_right _ List.mem_cons_self
        · have hnext : compareAll order (.generator left) (.generator job :: known) =
              compareAll order (.generator (comparedConfig order left job)) known := by
            simp only [compareAll, hstep, List.isEmpty_eq_false_iff.mpr hempty]
          rw [hnext]
          exact ih htracks fun hrefused => hempty ((htracks.empty_iff hconfig).mpr hrefused.2)
      · have hjobs : sameBase config (.generator job :: known) = sameBase config known := by
          simp only [sameBase, List.filterMap_cons, hbase, if_false]
        have hnext : compareAll order (.generator left) (.generator job :: known) =
            compareAll order (.generator left) known := by
          simp only [compareAll, compareCrawl, h.base, ne_eq, hbase, not_false_eq_true, if_true]
        rw [hjobs, hnext]
        exact ih h hopen

/-! ### What is left -/

/-- No number and no truth value has the text of a field. -/
theorem eq_of_text {v w : ParamValue} (hw : w ∈ paramFields) (h : v.text = w.text) : v = w := by
  have he : 'e' ∈ w.text.toList := by
    unfold paramFields at hw
    simp only [List.mem_cons, List.not_mem_nil, or_false] at hw
    rcases hw with rfl | rfl | rfl <;> decide
  have hstr : ∃ s, w = .str s := by
    unfold paramFields at hw
    simp only [List.mem_cons, List.not_mem_nil, or_false] at hw
    rcases hw with rfl | rfl | rfl <;> exact ⟨_, rfl⟩
  obtain ⟨s, rfl⟩ := hstr
  cases v with
  | str s' => exact congrArg ParamValue.str h
  | int n =>
    rw [← h] at he
    have hdigit : ∀ m : Nat, 'e' ∉ (toString m).toList := by
      intro m hm
      rw [Nat.toString_eq_repr, Nat.toList_repr] at hm
      exact absurd (Nat.isDigit_of_mem_toDigits (by decide) (by decide) hm) (by decide)
    cases n with
    | ofNat m => exact absurd he (hdigit m)
    | negSucc m =>
      have he : 'e' ∈ ("-" ++ toString (m + 1)).toList := he
      rw [String.toList_append] at he
      rcases List.mem_append.mp he with he | he
      · exact absurd he (by decide)
      · exact absurd he (hdigit _)
  | bool b =>
    unfold paramFields at hw
    simp only [List.mem_cons, List.not_mem_nil, or_false, ParamValue.str.injEq] at hw
    cases b with
    | false => rcases hw with rfl | rfl | rfl <;> exact absurd h (by decide)
    | true => rcases hw with rfl | rfl | rfl <;> exact absurd h (by decide)

/-- The part of `Assigns` that one query parameter has. -/
def QueryHas (config : URLConfigModel) (key : String) (value : Option String) : Prop :=
  match (config.queryParams.get? key).filter (·.values.truthy) with
  | some param => ∃ v ∈ param.members, value = some v.text
  | none => value = none

theorem queryHas_absent {value : Option String} (h : config.queryParams.get? key = none) :
    QueryHas config key value ↔ value = none := by
  unfold QueryHas
  rw [h]
  rfl

theorem queryHas_list {value : Option String} (h : config.queryParams.get? key = some param)
    (hlist : ListParam param items) :
    QueryHas config key value ↔
      (items = [] ∧ value = none) ∨ ∃ v ∈ items, value = some v.text := by
  obtain ⟨rfl, -⟩ := hlist
  unfold QueryHas
  rw [h]
  cases items with
  | nil =>
    show value = none ↔ _
    simp
  | cons v items =>
    show (∃ w ∈ v :: items, value = some w.text) ↔ _
    simp

/-- One query parameter of what is left. -/
theorem Tracks.queryHas_iff (hconfig : config.Listed) (h : Tracks jobs config left)
    (hkept : ∀ key param, config.queryParams.get? key = some param → param.values.truthy →
      ¬ Dropped jobs key param) (key : String) (value : Option String) :
    QueryHas left key value ↔
      QueryHas config key value ∧ ¬ ∃ v, value = some v.text ∧ Struck jobs key v := by
  cases hparam : config.queryParams.get? key with
  | none =>
    rw [queryHas_absent hparam, queryHas_absent (h.absent key hparam)]
    refine (and_iff_left_of_imp ?_).symm
    rintro rfl ⟨v, hv, -⟩
    cases hv
  | some param =>
    obtain ⟨items, hlist⟩ := hconfig.query key param hparam
    rw [queryHas_list hparam hlist]
    by_cases hdropped : Dropped jobs key param
    · -- it has no values
      have hnil : items = [] := by
        by_contra hne
        refine hkept key param hparam ?_ hdropped
        rw [hlist.1]
        simpa [URLParam.values, ParamValues.truthy] using hne
      subst hnil
      rw [queryHas_absent (h.dropped key param hparam hdropped)]
      constructor
      · rintro rfl
        exact ⟨.inl ⟨rfl, rfl⟩, fun ⟨v, hv, _⟩ => (by cases hv)⟩
      · rintro ⟨⟨-, rfl⟩ | ⟨v, hv, -⟩, -⟩
        · rfl
        · cases hv
    · obtain ⟨param', items', hleft, hlist', hmem⟩ := h.kept key param items hparam hlist hdropped
      rw [queryHas_list hleft hlist']
      have hnil : items' = [] ↔ items = [] := by
        constructor
        · intro hnil
          subst hnil
          by_contra hne
          -- all values are struck out, so the parameter is dropped
          have hall : ∀ v ∈ items, Struck jobs key v := fun v hv => by
            by_contra hnot
            exact List.not_mem_nil ((hmem v).mpr ⟨hv, hnot⟩)
          obtain ⟨v, hv⟩ := List.exists_mem_of_ne_nil _ hne
          obtain ⟨job, hjob, hkey⟩ := (hall v hv).1
          obtain ⟨known, hknown⟩ := (Dict.mem_keys_iff _ _).mp hkey
          refine hdropped ⟨job, hjob, known, hknown, .inr fun v hv => ?_⟩
          rw [hlist.1] at hv
          exact (hall v hv).2
        · rintro rfl
          exact List.eq_nil_iff_forall_not_mem.mpr fun v hv => List.not_mem_nil ((hmem v).mp hv).1
      constructor
      · rintro (⟨hnone, rfl⟩ | ⟨v, hv, rfl⟩)
        · exact ⟨.inl ⟨hnil.mp hnone, rfl⟩, fun ⟨v, hv, _⟩ => (by cases hv)⟩
        · obtain ⟨hv, hnot⟩ := (hmem v).mp hv
          refine ⟨.inr ⟨v, hv, rfl⟩, ?_⟩
          rintro ⟨w, hw, hstruck⟩
          cases eq_of_text hstruck.2 (Option.some.inj hw)
          exact hnot hstruck
      · rintro ⟨⟨hnone, rfl⟩ | ⟨v, hv, rfl⟩, hnot⟩
        · exact .inl ⟨hnil.mpr hnone, rfl⟩
        · exact .inr ⟨v, (hmem v).mpr ⟨hv, fun hstruck => hnot ⟨v, rfl, hstruck⟩⟩, rfl⟩

/-- What is left, where nothing that has values is dropped. -/
theorem Tracks.has_iff (hconfig : config.Listed) (h : Tracks jobs config left)
    (hkept : ∀ key param, config.queryParams.get? key = some param → param.values.truthy →
      ¬ Dropped jobs key param) (baseUrl : String) (path query : String → Option String) :
    left.Has (.generated baseUrl path query) ↔ config.Has (.generated baseUrl path query) ∧
      ¬ ∃ key v, query key = some v.text ∧ Struck jobs key v := by
  have hquery : Assigns (fun k => (left.queryParams.get? k).filter (·.values.truthy)) query ↔
      Assigns (fun k => (config.queryParams.get? k).filter (·.values.truthy)) query ∧
        ¬ ∃ key v, query key = some v.text ∧ Struck jobs key v := by
    rw [not_exists]
    show (∀ key, QueryHas left key (query key)) ↔ (∀ key, QueryHas config key (query key)) ∧ _
    rw [← forall_and]
    exact forall_congr' fun key => h.queryHas_iff hconfig hkept key (query key)
  show baseUrl = left.baseUrl ∧ Assigns left.pathParams.get? path ∧ _ ↔
    (baseUrl = config.baseUrl ∧ Assigns config.pathParams.get? path ∧ _) ∧ _
  rw [hquery, h.base, h.path, hconfig.path]
  simp only [and_assoc]

/-- A configuration of lists has a URL. -/
theorem URLConfigModel.Listed.exists_has (h : config.Listed) :
    ∃ path query, config.Has (.generated config.baseUrl path query) := by
  have hone : ∀ key, ∃ value, QueryHas config key value := by
    intro key
    cases hparam : config.queryParams.get? key with
    | none => exact ⟨none, (queryHas_absent hparam).mpr rfl⟩
    | some param =>
      obtain ⟨items, hlist⟩ := h.query key param hparam
      cases items with
      | nil => exact ⟨none, (queryHas_list hparam hlist).mpr (.inl ⟨rfl, rfl⟩)⟩
      | cons v items =>
        exact ⟨some v.text, (queryHas_list hparam hlist).mpr (.inr ⟨v, List.mem_cons_self, rfl⟩)⟩
  obtain ⟨query, hquery⟩ := Classical.axiom_of_choice hone
  refine ⟨fun _ => none, query, rfl, fun key => ?_, hquery⟩
  rw [h.path]
  rfl

/-- What is left is a configuration of lists. -/
theorem Tracks.listed (hconfig : config.Listed) (h : Tracks jobs config left) : left.Listed := by
  refine ⟨h.path, fun key param' hparam' => ?_⟩
  cases hparam : config.queryParams.get? key with
  | none => cases (h.absent key hparam).symm.trans hparam'
  | some param =>
    by_cases hdropped : Dropped jobs key param
    · cases (h.dropped key param hparam hdropped).symm.trans hparam'
    · obtain ⟨items, hlist⟩ := hconfig.query key param hparam
      obtain ⟨param'', items', hleft, hlist', -⟩ := h.kept key param items hparam hlist hdropped
      cases Option.some.inj (hleft.symm.trans hparam')
      exact ⟨items', hlist'⟩

/-! ## The condition -/

/-- The order of the jobs is no part of the condition. -/
theorem dedupMeets_congr {known known' : List KnownUrls} (h : ∀ job, job ∈ known' ↔ job ∈ known)
    (request : CrawlUrls) : DedupMeets known' request ↔ DedupMeets known request := by
  have hcovered : ∀ item, Covered known' item ↔ Covered known item := fun item => by
    unfold Covered
    simp only [h]
  cases request with
  | listed urls =>
    unfold DedupMeets
    simp only [hcovered, h]
  | seeding model =>
    unfold DedupMeets
    simp only [hcovered]
  | generator config =>
    have hjobs : ∀ job, job ∈ sameBase config known' ↔ job ∈ sameBase config known := fun job => by
      unfold sameBase
      simp only [List.mem_filterMap, h]
    have hdropped : ∀ key param, Dropped (sameBase config known') key param ↔
        Dropped (sameBase config known) key param := fun key param => by
      unfold Dropped
      simp only [hjobs]
    have hstruck : ∀ key v, Struck (sameBase config known') key v ↔
        Struck (sameBase config known) key v := fun key v => by
      unfold Struck
      simp only [hjobs]
    have hrefused : Refused (sameBase config known') config ↔
        Refused (sameBase config known) config := by
      unfold Refused
      simp only [hjobs, hdropped]
    unfold DedupMeets
    simp only [hcovered, hrefused, hdropped, hstruck]

/-- What comes of a list of URLs. -/
theorem outcomeRight_listed_iff (order : SetOrder) (urls : List String) (known : List KnownUrls) :
    OutcomeRight (.listed urls) known (compareAll order (.listed urls) known) ↔
      DedupMeets known (.listed urls) := by
  have hhas : ∀ (l : List String) item, (CrawlUrls.listed l).Has item ↔
      ∃ u ∈ l, item = .url u := fun l item => by
    cases item with
    | url u => exact ⟨fun hu => ⟨u, hu, rfl⟩, fun ⟨_, hu, h⟩ => by cases h; exact hu⟩
    | domain d => exact ⟨False.elim, fun ⟨_, _, h⟩ => by cases h⟩
    | generated b p q => exact ⟨False.elim, fun ⟨_, _, h⟩ => by cases h⟩
  rcases compareAll_listed order urls known with ⟨hnone, rfl, hlist⟩ | ⟨left, hsome, hsame, hlist⟩
  · rw [hnone]
    refine iff_of_true (fun item hitem => ?_) ⟨fun _ => hlist, nofun⟩
    obtain ⟨u, hu, -⟩ := (hhas [] item).mp hitem
    cases hu
  · rw [hsome]
    constructor
    · rintro ⟨hleft, item, hitem⟩
      obtain ⟨u, hu, rfl⟩ := (hhas left item).mp hitem
      refine ⟨fun hnil => ?_, fun u' hu' => ?_⟩
      · rw [hsame, hnil] at hu
        cases hu
      · exact ((hleft (.url u')).mp ((hsame u').mpr hu')).2
    · rintro ⟨hempty, hnew⟩
      have hne : urls ≠ [] := fun hnil => hlist hnil (hempty hnil)
      obtain ⟨u, hu⟩ := List.exists_mem_of_ne_nil _ hne
      refine ⟨fun item => ?_, .url u, (hsame u).mpr hu⟩
      rw [hhas, hhas]
      constructor
      · rintro ⟨u', hu', rfl⟩
        exact ⟨⟨u', (hsame u').mp hu', rfl⟩, hnew u' ((hsame u').mp hu')⟩
      · rintro ⟨⟨u', hu', rfl⟩, -⟩
        exact ⟨u', (hsame u').mpr hu', rfl⟩

/-- What comes of domains. -/
theorem outcomeRight_seeding_iff (order : SetOrder) {model : SeedingURLModel}
    (known : List KnownUrls) (hdomain : model.domain ≠ []) :
    OutcomeRight (.seeding model) known (compareAll order (.seeding model) known) ↔
      DedupMeets known (.seeding model) := by
  have hhas : ∀ (m : SeedingURLModel) item, (CrawlUrls.seeding m).Has item ↔
      ∃ d ∈ m.domain, item = .domain d := fun m item => by
    cases item with
    | url u => exact ⟨False.elim, fun ⟨_, _, h⟩ => by cases h⟩
    | domain d => exact ⟨fun hd => ⟨d, hd, rfl⟩, fun ⟨_, hd, h⟩ => by cases h; exact hd⟩
    | generated b p q => exact ⟨False.elim, fun ⟨_, _, h⟩ => by cases h⟩
  obtain ⟨left, hsome, hsame⟩ := compareAll_seeding order known hdomain
  rw [hsome]
  constructor
  · rintro ⟨hleft, -⟩ d hd
    exact ((hleft (.domain d)).mp ((hsame d).mpr hd)).2
  · intro hnew
    obtain ⟨d, hd⟩ := List.exists_mem_of_ne_nil _ hdomain
    refine ⟨fun item => ?_, .domain d, (hsame d).mpr hd⟩
    rw [hhas, hhas]
    constructor
    · rintro ⟨d', hd', rfl⟩
      exact ⟨⟨d', (hsame d').mp hd', rfl⟩, hnew d' ((hsame d').mp hd')⟩
    · rintro ⟨⟨d', hd', rfl⟩, -⟩
      exact ⟨d', (hsame d').mpr hd', rfl⟩

/-- What comes of generated URLs. -/
theorem outcomeRight_generator_iff (order : SetOrder) (hconfig : config.Listed)
    (known : List KnownUrls) :
    OutcomeRight (.generator config) known (compareAll order (.generator config) known) ↔
      DedupMeets known (.generator config) := by
  have hopen : ¬ Refused [] config := by
    rintro ⟨⟨job, hjob⟩, -⟩
    cases hjob
  have hrun := compareAll_generator order hconfig known (tracks_nil hconfig.path) hopen
  rw [List.nil_append] at hrun
  rcases hrun with ⟨hnone, hrefused⟩ | ⟨left, hsome, htracks, hopen⟩
  · rw [hnone]
    exact ⟨fun h => ⟨fun _ => h, fun hnot => absurd hrefused hnot⟩, fun h => h.1 hrefused⟩
  · rw [hsome]
    constructor
    · rintro ⟨hleft, item, hitem⟩
      refine ⟨fun hrefused => absurd hrefused hopen, fun _ => ?_⟩
      have hkept : ∀ key param, config.queryParams.get? key = some param → param.values.truthy →
          ¬ Dropped (sameBase config known) key param := by
        intro key param hparam htruthy hdropped
        -- what is left lacks the parameter, and what was asked for has it
        obtain ⟨hhas, -⟩ := (hleft item).mp hitem
        cases item with
        | url u => exact hhas
        | domain d => exact hhas
        | generated baseUrl path query =>
          have habsent : query key = none :=
            (queryHas_absent (htracks.dropped key param hparam hdropped)).mp (hitem.2.2 key)
          obtain ⟨items, hlist⟩ := hconfig.query key param hparam
          rcases (queryHas_list hparam hlist).mp (hhas.2.2 key) with ⟨hnil, -⟩ | ⟨v, -, hv⟩
          · rw [hlist.1, hnil] at htruthy
            cases htruthy
          · cases habsent.symm.trans hv
      refine ⟨hkept, fun baseUrl path query hhas => ?_⟩
      have hiff := (htracks.has_iff hconfig hkept baseUrl path query).symm.trans
        (hleft (.generated baseUrl path query))
      exact not_iff_not.mp ⟨fun hnot => (hiff.mpr ⟨hhas, hnot⟩).2, fun hnot =>
        (hiff.mp ⟨hhas, hnot⟩).2⟩
    · rintro ⟨-, hmeets⟩
      obtain ⟨hkept, hstruck⟩ := hmeets hopen
      obtain ⟨path, query, hitem⟩ := (htracks.listed hconfig).exists_has
      refine ⟨fun item => ?_, .generated left.baseUrl path query, hitem⟩
      cases item with
      | url u => exact ⟨False.elim, fun h => h.1⟩
      | domain d => exact ⟨False.elim, fun h => h.1⟩
      | generated baseUrl path query =>
        refine (htracks.has_iff hconfig hkept baseUrl path query).trans ?_
        exact and_congr_right fun hhas => not_congr (hstruck baseUrl path query hhas).symm

/-- **Soft deduplication is right, in whatever order the jobs are known, exactly if the request
and the jobs meet the condition.** -/
theorem dedup_right_iff (order : SetOrder) (task : String) (filter : List String)
    {request : CrawlUrls} (haccepted : request.Accepted) (jobs : List KnownJob) :
    (∀ jobs', jobs'.Perm jobs → DedupRight request (compared task filter jobs')
      (search order task filter request jobs')) ↔
      DedupMeets (compared task filter jobs) request := by
  have hone : ∀ jobs', DedupRight request (compared task filter jobs')
      (search order task filter request jobs') ↔
      DedupMeets (compared task filter jobs') request := by
    intro jobs'
    rw [dedupRight_iff_outcome, search_toOption]
    cases request with
    | listed urls => exact outcomeRight_listed_iff order urls _
    | seeding model => exact outcomeRight_seeding_iff order _ haccepted
    | generator config =>
      obtain ⟨order', input, hjson, hvalid⟩ := haccepted
      exact outcomeRight_generator_iff order (listed_of_json hjson hvalid) _
  constructor
  · exact fun h => (hone jobs).mp (h jobs (.refl jobs))
  · intro h jobs' hperm
    refine (hone jobs').mpr ((dedupMeets_congr (fun job => ?_) request).mpr h)
    exact (hperm.filterMap _).mem_iff

/-! ## Inputs -/

/-- A configuration with one query parameter, as a job has it. -/
def oneQuery (key : String) (v : ParamValue) : URLConfigModel where
  baseUrl := "https://example.com/"
  pathParams := .empty
  queryParams := Dict.empty.set key (.mk (.list [v]) .list none)

theorem get?_oneQuery (key key' : String) (v : ParamValue) :
    (oneQuery key v).queryParams.get? key' =
      if key' = key then some (.mk (.list [v]) .list none) else none := by
  show (Dict.empty.set key _).get? key' = _
  rw [Dict.get?_set, Dict.get?_empty]

theorem pagesConfig_accepted : (CrawlUrls.generator pagesConfig).Accepted := by
  refine ⟨insertionOrder, pagesInput, fun params hparams e he => ?_, rfl⟩
  cases hparams
  cases List.mem_singleton.mp he
  exact ⟨_, rfl⟩

theorem get?_pagesConfig (key : String) : pagesConfig.queryParams.get? key =
    if key = "page" then some (.mk (.list [.int 1, .int 2]) .list none) else none := by
  show (Dict.empty.set "page" _).get? key = _
  rw [Dict.get?_set, Dict.get?_empty]

/-- A job with another query parameter leaves a request as it is. -/
theorem dedup_right_pages :
    DedupRight (.generator pagesConfig)
      (compared "crawl" [] [⟨"job", some "crawl", some (.generator (oneQuery "size" (.int 1)))⟩])
      (search insertionOrder "crawl" [] (.generator pagesConfig)
        [⟨"job", some "crawl", some (.generator (oneQuery "size" (.int 1)))⟩]) := by
  refine (dedup_right_iff insertionOrder "crawl" [] pagesConfig_accepted _).mpr ?_ _ (.refl _)
  have hkey : "page" ∉ (oneQuery "size" (.int 1)).queryParams.keys := by decide
  have hdropped : ∀ key param, pagesConfig.queryParams.get? key = some param →
      ¬ Dropped [oneQuery "size" (.int 1)] key param := by
    rintro key param hparam ⟨job, hjob, known, hknown, -⟩
    cases List.mem_singleton.mp hjob
    rw [get?_pagesConfig] at hparam
    split at hparam
    · rename_i hpage
      subst hpage
      exact hkey ((Dict.mem_keys_iff _ _).mpr ⟨known, hknown⟩)
    · cases hparam
  refine ⟨fun hrefused => ?_, fun _ => ⟨fun key param hparam _ => hdropped key param hparam,
    fun baseUrl path query hhas => ?_⟩⟩
  · exact absurd (hrefused.2 "page" _ (get?_pagesConfig "page")) (hdropped _ _ (get?_pagesConfig _))
  · have hsize : query "size" = none :=
      (queryHas_absent (get?_pagesConfig "size")).mp (hhas.2.2 "size")
    refine iff_of_false ?_ ?_
    · rintro ⟨job, hjob, hcovers⟩
      cases List.mem_singleton.mp hjob
      have hlist : ListParam (.mk (.list [.int 1]) .list none) [.int 1] :=
        ⟨rfl, List.nodup_singleton _⟩
      rcases (queryHas_list (get?_oneQuery "size" "size" (.int 1)) hlist).mp (hcovers.2.2 "size")
        with ⟨h, -⟩ | ⟨v, -, hv⟩
      · cases h
      · cases hsize.symm.trans hv
    · rintro ⟨key, v, hv, ⟨job, hjob, hjobKey⟩, -⟩
      cases List.mem_singleton.mp hjob
      cases List.mem_singleton.mp hjobKey
      cases hsize.symm.trans hv

/-- The second page. -/
def secondPage (key : String) : Option String := if key = "page" then some "2" else none

/-- A configuration with the parameter `page` has the page if the parameter has it. -/
theorem has_secondPage {items : List ParamValue} (hpath : config.pathParams = .empty)
    (hget : ∀ key, config.queryParams.get? key =
      if key = "page" then some (.mk (.list items) .list none) else none)
    (htwo : .int 2 ∈ items) :
    config.Has (.generated config.baseUrl (fun _ => none) secondPage) := by
  refine ⟨rfl, fun key => by rw [hpath]; rfl, fun key => ?_⟩
  show QueryHas config key (secondPage key)
  by_cases hkey : key = "page"
  · subst hkey
    unfold QueryHas
    rw [hget, if_pos rfl]
    cases items with
    | nil => cases htwo
    | cons v items => exact ⟨.int 2, htwo, rfl⟩
  · have hnone : config.queryParams.get? key = none := by rw [hget, if_neg hkey]
    exact (queryHas_absent hnone).mpr (if_neg hkey)

/-- A listed URL and a page that are known stay in the request. -/
theorem not_dedup_right :
    ¬ DedupRight (.listed ["https://example.com/"]) [.listed ["https://example.com/"]]
        (search insertionOrder "crawl" [] (.listed ["https://example.com/"])
          [⟨"job", some "crawl", some (.listed ["https://example.com/"])⟩]) ∧
    ¬ DedupRight (.generator pagesConfig) [.generator (oneQuery "page" (.int 2))]
        (search insertionOrder "crawl" [] (.generator pagesConfig)
          [⟨"job", some "crawl", some (.generator (oneQuery "page" (.int 2)))⟩]) := by
  constructor
  · rintro ⟨hleft, -⟩
    exact ((hleft (.url "https://example.com/")).mp List.mem_cons_self).2
      ⟨_, List.mem_cons_self, List.mem_cons_self⟩
  · have hsearch : search insertionOrder "crawl" [] (.generator pagesConfig)
        [⟨"job", some "crawl", some (.generator (oneQuery "page" (.int 2)))⟩] =
        .ok (.generator pagesConfig) := rfl
    rw [hsearch]
    rintro ⟨hleft, -⟩
    have hasked : pagesConfig.Has (.generated pagesConfig.baseUrl (fun _ => none) secondPage) :=
      has_secondPage rfl get?_pagesConfig (by decide)
    have hknown : (oneQuery "page" (.int 2)).Has
        (.generated pagesConfig.baseUrl (fun _ => none) secondPage) :=
      has_secondPage rfl (fun key => get?_oneQuery "page" key (.int 2)) (by decide)
    exact ((hleft (.generated pagesConfig.baseUrl (fun _ => none) secondPage)).mp hasked).2
      ⟨_, List.mem_cons_self, hknown⟩

end Notifyr
