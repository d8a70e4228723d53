import Mathlib.Data.List.Perm.Basic
import Notifyr.Runtime.Python

/-!
# The URLs of a crawl

`URLParam`, `URLConfigModel` and `generate_urls` (`app/classes/url.py`), `URLGeneratorModel`
(`app/models/crawal4ai_model.py`) and `compute_size` of `WebCrawlingDataIngestModel`
(`app/models/ingest_model.py`).

- `URLParam.validate`, `URLConfigModel.validate`, `URLGeneratorModel.validate`: what the models
  make of what they are given.
- `computeSize`: the number of URLs a client is charged for.
- `generateUrls`: what the generator yields, and how it ends.
- `URLParam.members`, `expectedUrls`: the values a parameter stands for, and one URL for each
  combination of them.
- `sizeRight_iff`, `urlsExact_iff`: when the number is right, and when the URLs are.
-/

namespace Notifyr

open Theory

/-! ## Values -/

/-- An item of `values`. -/
inductive ParamValue
  | str (s : String)
  | int (n : Int)
  | bool (b : Bool)
  deriving DecidableEq, Repr

/-- `str(v)`. -/
def ParamValue.text : ParamValue → String
  | .str s => s
  | .int n => toString n
  | .bool b => if b then "True" else "False"

/-- What `==` and `hash` see of a value: to them a `bool` is a number. -/
def ParamValue.key : ParamValue → String ⊕ Int
  | .str s => .inl s
  | .int n => .inr n
  | .bool b => .inr (if b then 1 else 0)

/-- `set(values)`; of equal values the first stays. -/
def setOf (values : List ParamValue) : List ParamValue :=
  values.foldl (fun s v => if s.any fun w => w.key = v.key then s else s ++ [v]) []

/-- `values`: a list, or a tuple. -/
inductive ParamValues
  | list (items : List ParamValue)
  | tuple (start step stop : Int)
  deriving DecidableEq

/-- `bool(values)`. -/
def ParamValues.truthy : ParamValues → Bool
  | .list items => !items.isEmpty
  | .tuple _ _ _ => true

/-- `Literal['list', 'range']`. -/
inductive ParamType
  | list | range
  deriving DecidableEq

/-- `URLParam`. -/
inductive URLParam
  | mk (values : ParamValues) (type : ParamType) (exclude : Option URLParam)

namespace URLParam

def values : URLParam → ParamValues
  | mk values _ _ => values

def type : URLParam → ParamType
  | mk _ type _ => type

def exclude : URLParam → Option URLParam
  | mk _ _ exclude => exclude

/-! ## Validation -/

/-- `validate_range_or_list`. -/
def validateRangeOrList (order : SetOrder) : URLParam → Py URLParam
  | mk (.tuple start step stop) .list exclude =>
    .ok (mk (.list [.int start, .int step, .int stop]) .list exclude)
  | mk (.tuple start step stop) .range exclude =>
    if start > stop then .error .valueError
    else if step = 0 then .error .valueError
    else .ok (mk (.tuple start step stop) .range exclude)
  | mk (.list _) .range _ => .error .valueError
  | mk (.list items) .list exclude => .ok (mk (.list (order.enum (setOf items))) .list exclude)

/-- `validate_exclude`. -/
def validateExclude : URLParam → Py URLParam
  | mk values type none => .ok (mk values type none)
  | mk values type (some (mk values' type' _)) =>
    if type = .list ∨ type' = .list then .ok (mk values type none)
    else
      match values, values' with
      | .tuple start step stop, .tuple start' step' stop' =>
        if start > start' then .error .valueError
        else if stop < stop' then .error .valueError
        else if step > step' then .error .valueError
        else .ok (mk values type (some (mk values' type' none)))
      -- after the first validator the values of a range are a tuple
      | _, _ => .error .typeError

/-- The validators in turn, on what is given: first those of the excluded parameter. -/
def validate (order : SetOrder) : URLParam → Py URLParam
  | mk values type none => do validateExclude (← validateRangeOrList order (mk values type none))
  | mk values type (some exclude) => do
    let exclude ← validate order exclude
    validateExclude (← validateRangeOrList order (mk values type (some exclude)))

end URLParam

/-- `URLConfigModel`. -/
structure URLConfigModel where
  baseUrl : String
  pathParams : Dict String URLParam
  queryParams : Dict String URLParam

/-- What the model is given. -/
structure URLConfigInput where
  baseUrl : String
  pathParams : Option (Dict String URLParam)
  queryParams : Option (Dict String URLParam)

/-- A `Dict[str, URLParam]` that is given. -/
def validateParams (order : SetOrder) (params : Dict String URLParam) :
    Py (Dict String URLParam) := do
  let entries ← params.entries.mapM fun e => do return (e.1, ← e.2.validate order)
  return .ofEntries entries

/-- `filter_invalid_path_params`. Its `values` is a `ValidationInfo`, which has no `get`. -/
def filterInvalidPathParams (_ : Dict String URLParam) : Py (Dict String URLParam) :=
  .error .attributeError

/-- A field whose default is `{}`. Defaults are not validated. -/
def validateField (validate : Dict String URLParam → Py (Dict String URLParam)) :
    Option (Dict String URLParam) → Py (Dict String URLParam)
  | none => .ok .empty
  | some params => validate params

/-- `URLConfigModel(…)`. -/
def URLConfigModel.validate (order : SetOrder) (input : URLConfigInput) : Py URLConfigModel := do
  let pathParams ← validateField (fun params => validateParams order params >>=
    filterInvalidPathParams) input.pathParams
  let queryParams ← validateField (validateParams order) input.queryParams
  return ⟨input.baseUrl, pathParams, queryParams⟩

/-- `validate_path_params`, if the field is given. -/
def validatePathParams (given : Option (Dict String URLParam)) (params : Dict String URLParam) :
    Py Unit :=
  if given.isNone then .ok ()
  else if 5 < params.entries.length then .error .valueError
  else if params.entries.length = 0 then .error .valueError
  else .ok ()

/-- `URLGeneratorModel(…)`, without its filter. -/
def URLGeneratorModel.validate (order : SetOrder) (input : URLConfigInput) :
    Py URLConfigModel := do
  let config ← URLConfigModel.validate order input
  validatePathParams input.pathParams config.pathParams
  validatePathParams input.queryParams config.queryParams
  return config

/-! ## `compute_size` -/

/-- What `compute_size` reads of a `SeedingURLModel`, and what a comparison does; `top` is set
after validation. A URL of `pydantic` is kept by its text. -/
structure SeedingURLModel where
  domain : List String
  top : Int

/-- `urls` of a `WebCrawlingDataIngestModel`. -/
inductive CrawlUrls
  | listed (urls : List String)
  | seeding (model : SeedingURLModel)
  | generator (config : URLConfigModel)

/-- What is unpacked: a number, or the pair of a field and its value. -/
inductive Unpacked
  | int (n : Int)
  | pair (field : String)

/-- `a - b`. -/
def Unpacked.minus : Unpacked → Unpacked → Py Int
  | int a, int b => .ok (a - b)
  | _, _ => .error .typeError

/-- `a // b`. -/
def Unpacked.floorDiv (b : Unpacked) (a : Int) : Py Int :=
  match b with
  | int b => if b = 0 then .error .zeroDivisionError else .ok (a.fdiv b)
  | pair _ => .error .typeError

/-- Going through a model gives its fields with their values. -/
def URLParam.unpack (_ : URLParam) : List Unpacked :=
  [.pair "values", .pair "type", .pair "exclude"]

/-- The factor of one parameter, which is no list. -/
def sizeFactor (param : URLParam) : Py Int :=
  match param.unpack with
  | [start, stop, step] => do return (← step.floorDiv (← stop.minus start)) + 1
  | _ => .error .valueError

/-- `{**path_params, **query_params}.values()`. -/
def URLConfigModel.params (config : URLConfigModel) : List URLParam :=
  (config.queryParams.entries.foldl (fun d e => d.set e.1 e.2) config.pathParams).entries.map
    Prod.snd

/-- `compute_size`: the size and the description. -/
def computeSize : CrawlUrls → Py (Int × String)
  | .listed urls => .ok (urls.length, "Defined urls")
  | .seeding model => .ok (model.top, "Seeded urls")
  | .generator config => do
    let urlSize ← config.params.foldlM (fun size param => do return size * (← sizeFactor param)) 1
    return (urlSize, "URL generated")

/-! ## `generate_urls` -/

/-- The length of `range(start, stop, step)`. -/
def rangeLength (start stop step : Int) : Nat :=
  if 0 < step then ((stop - start + step - 1) / step).toNat
  else ((start - stop - step - 1) / -step).toNat

/-- `range(start, stop, step)`, for a step that is not zero. -/
def pyRange (start stop step : Int) : List Int :=
  (List.range (rangeLength start stop step)).map fun i => start + i * step

/-- Whether `subtract_stepped_ranges` leaves `x` out; the three numbers of the excluded range are
read as start, end and step. -/
def inExcluded (s2 e2 step2 x : Int) : Py Bool :=
  if (if step2 > 0 then s2 ≤ x ∧ x < e2 else e2 < x ∧ x ≤ s2) then
    if step2 = 0 then .error .zeroDivisionError else .ok ((x - s2).fmod step2 == 0)
  else .ok false

/-- `subtract_stepped_ranges`. -/
def subtractSteppedRanges (self other : URLParam) : Py (List ParamValue) :=
  match self.type, other.type, self.values, other.values with
  | .range, .range, .tuple start step stop, .tuple s2 e2 step2 =>
    if step = 0 then .error .valueError
    else do
      let left ← (pyRange start stop step).filterMapM fun x => do
        return if ← inExcluded s2 e2 step2 x then none else some (.int x)
      return left
  | _, _, _, _ => .ok []

/-- `process_values`, with its argument. -/
def processValues (param : URLParam) : Py (List ParamValue) :=
  match param.values, param.exclude with
  | .tuple _ _ _, some exclude => subtractSteppedRanges param exclude
  | .tuple start step stop, none =>
    if step = 0 then .error .valueError
    else .ok ((pyRange start (stop + 1) step).map .int)
  | .list items, _ => .ok items

/-- `itertools.product`. -/
def product {α : Type} : List (List α) → List (List α)
  | [] => [[]]
  | l :: ls => l.flatMap fun a => (product ls).map (a :: ·)

/-- A text in which each pattern of a table is replaced, from left to right; `skip` characters of
the last pattern that was found are still to be left out. -/
def replaceFrom (table : List (List Char × List Char)) : Nat → List Char → List Char
  | _, [] => []
  | 0, c :: cs =>
    match table.find? fun e => e.1.isPrefixOf (c :: cs) with
    | some e => e.2 ++ replaceFrom table (e.1.length - 1) cs
    | none => c :: replaceFrom table 0 cs
  | skip + 1, _ :: cs => replaceFrom table skip cs

/-- A placeholder and what stands for it. -/
def placeholder (key : String) (value : ParamValue) : List Char × List Char :=
  (("\x7b\x7b" ++ key ++ "\x7d\x7d").toList, value.text.toList)

/-- One path with its placeholders filled, one key after the other. -/
def fillPath (baseUrl : String) (keys : List String) (combo : List ParamValue) : String :=
  (keys.zip combo).foldl
    (fun url kv => .ofList (replaceFrom [placeholder kv.1 kv.2] 0 url.toList)) baseUrl

/-- A path with its query. -/
def fullUrl (url : String) (keys : List String) (combo : List ParamValue) : String :=
  if keys.isEmpty then url
  else url ++ "?" ++ "&".intercalate ((keys.zip combo).map fun kv => kv.1 ++ "=" ++ kv.2.text)

/-- Combinations that are gone through once for each path. An iterator has none left after the
first time. -/
inductive Combinations
  | iterator (combos : List (List ParamValue))
  | list (combos : List (List ParamValue))

/-- Those of the next loop. -/
def Combinations.next : Combinations → List (List ParamValue)
  | iterator combos => combos
  | list combos => combos

/-- What that loop leaves. -/
def Combinations.after : Combinations → Combinations
  | iterator _ => iterator []
  | list combos => list combos

/-- The loop over paths. -/
def yieldUrls (baseUrl : String) (pathKeys queryKeys : List String) :
    List (List ParamValue) → Combinations → List String
  | [], _ => []
  | pCombo :: rest, query =>
    (query.next.map (fullUrl (fillPath baseUrl pathKeys pCombo) queryKeys)) ++
      yieldUrls baseUrl pathKeys queryKeys rest query.after

/-- `path_values`. -/
def pathValues (config : URLConfigModel) : Py (List (String × List ParamValue)) :=
  config.pathParams.entries.mapM fun e => do return (e.1, ← processValues e.2)

/-- `query_values`; `process_values` is called without its argument. -/
def queryValues (config : URLConfigModel) : Py (List (String × List ParamValue)) :=
  (config.queryParams.entries.filter fun e => e.2.values.truthy).mapM fun _ => .error .typeError

/-- The combinations of values, as the two loops have them: `product(…)`, or one without values. -/
def combinations (values : List (String × List ParamValue)) : Combinations :=
  if values.isEmpty then .list [[]] else .iterator (product (values.map Prod.snd))

/-- `generate_urls`: what is yielded, and how it ends. -/
def generateUrls (config : URLConfigModel) : List String × Py Unit :=
  match (do return (← pathValues config, ← queryValues config) : Py (_ × _)) with
  | .error e => ([], .error e)
  | .ok (paths, queries) =>
    (yieldUrls config.baseUrl (paths.map Prod.fst) (queries.map Prod.fst)
      (combinations paths).next (combinations queries), .ok ())

/-! ## What is accepted -/

variable {order : SetOrder} {input : URLConfigInput} {config : URLConfigModel}

/-- A configuration that is accepted was given no path parameters. -/
theorem accepted_pathParams (h : URLConfigModel.validate order input = .ok config) :
    config.pathParams = .empty := by
  obtain ⟨pathParams, hpath, h⟩ := bind_ok h
  obtain ⟨queryParams, -, h⟩ := bind_ok h
  cases h
  cases hgiven : input.pathParams with
  | none =>
    rw [hgiven] at hpath
    exact (Except.ok.inj hpath).symm
  | some params =>
    rw [hgiven] at hpath
    obtain ⟨given, -, hfilter⟩ := bind_ok hpath
    cases hfilter

/-! ## The number of URLs -/

/-- `compute_size` returns, with the number of URLs that `generate_urls` yields. -/
def SizeRight (config : URLConfigModel) : Prop :=
  ∃ urlSize description urls, computeSize (.generator config) = .ok (urlSize, description) ∧
    generateUrls config = (urls, .ok ()) ∧ urls.length = urlSize

theorem params_eq_nil_iff (config : URLConfigModel) :
    config.params = [] ↔ config.pathParams.entries = [] ∧ config.queryParams.entries = [] := by
  have hnil : ∀ d : Dict String URLParam, d.entries = [] ↔ ∀ k, k ∉ d.keys := fun d => by
    rw [← List.eq_nil_iff_forall_not_mem]
    exact List.map_eq_nil_iff.symm
  unfold URLConfigModel.params
  rw [List.map_eq_nil_iff, hnil, hnil, hnil, ← forall_and]
  refine forall_congr' fun k => ?_
  rw [Dict.mem_keys_foldl_set, not_or]
  rfl

/-- Any parameter makes `compute_size` raise. -/
theorem computeSize_generator (config : URLConfigModel) :
    computeSize (.generator config) =
      if config.params = [] then .ok (1, "URL generated") else .error .typeError := by
  show (config.params.foldlM (fun size param => do return size * (← sizeFactor param)) 1 >>=
    fun urlSize => .ok (urlSize, "URL generated") : Py (Int × String)) = _
  cases config.params with
  | nil => rfl
  | cons param rest => rfl

/-- Without values there is the base URL. -/
theorem generateUrls_of_empty (hpath : config.pathParams.entries = [])
    (hquery : ∀ e ∈ config.queryParams.entries, e.2.values.truthy = false) :
    generateUrls config = ([config.baseUrl], .ok ()) := by
  have hnone : (config.queryParams.entries.filter fun e => e.2.values.truthy) = [] := by
    rw [List.filter_eq_nil_iff]
    intro e he
    rw [hquery e he]
    exact Bool.false_ne_true
  unfold generateUrls pathValues queryValues
  rw [hpath, hnone]
  rfl

/-- **The number of URLs is right exactly if there are no parameters.** -/
theorem sizeRight_iff (config : URLConfigModel) :
    SizeRight config ↔ config.pathParams.entries = [] ∧ config.queryParams.entries = [] := by
  rw [← params_eq_nil_iff]
  constructor
  · rintro ⟨urlSize, description, urls, hsize, -, -⟩
    rw [computeSize_generator] at hsize
    by_contra hparams
    rw [if_neg hparams] at hsize
    cases hsize
  · intro hparams
    obtain ⟨hpath, hquery⟩ := (params_eq_nil_iff config).mp hparams
    refine ⟨1, "URL generated", [config.baseUrl], ?_, generateUrls_of_empty hpath ?_, rfl⟩
    · rw [computeSize_generator, if_pos hparams]
    · rw [hquery]
      exact nofun

/-- One query parameter. -/
def pagesInput : URLConfigInput where
  baseUrl := "https://example.com/"
  pathParams := none
  queryParams := some (Dict.empty.set "page" (.mk (.list [.int 1, .int 2]) .list none))

/-- The same after validation. -/
def pagesConfig : URLConfigModel where
  baseUrl := "https://example.com/"
  pathParams := .empty
  queryParams := Dict.empty.set "page" (.mk (.list [.int 1, .int 2]) .list none)

/-- An order in which sets can be gone through. -/
def insertionOrder : SetOrder := ⟨fun l => l, fun l => .refl l⟩

/-- A configuration that is accepted, and whose size is not computed. -/
theorem not_sizeRight :
    URLGeneratorModel.validate insertionOrder pagesInput = .ok pagesConfig ∧
      ¬ SizeRight pagesConfig := by
  refine ⟨rfl, ?_⟩
  rintro ⟨urlSize, description, urls, hsize, -, -⟩
  have hraises : computeSize (.generator pagesConfig) = .error .typeError := rfl
  cases hraises.symm.trans hsize

/-! ## The URLs -/

/-- The numbers of a range that is left out, its end included. -/
def excludedInts : Option URLParam → List Int
  | some (.mk (.tuple start step stop) _ _) => pyRange start (stop + 1) step
  | _ => []

/-- The values a parameter stands for. -/
def URLParam.members (param : URLParam) : List ParamValue :=
  match param.values with
  | .list items => items
  | .tuple start step stop =>
    ((pyRange start (stop + 1) step).filter fun x => x ∉ excludedInts param.exclude).map .int

/-- The query parameters that have values. -/
def URLConfigModel.queries (config : URLConfigModel) : List (String × URLParam) :=
  config.queryParams.entries.filter fun e => e.2.values.truthy

/-- The URL of one combination: every placeholder stands for its own value. -/
def expectedUrl (config : URLConfigModel) (pCombo qCombo : List ParamValue) : String :=
  fullUrl (.ofList (replaceFrom (config.pathParams.keys.zipWith placeholder pCombo) 0
    config.baseUrl.toList)) (config.queries.map Prod.fst) qCombo

/-- One URL for each combination of path values and of query values. -/
def expectedUrls (config : URLConfigModel) : List String :=
  (product (config.pathParams.entries.map fun e => e.2.members)).flatMap fun pCombo =>
    (product (config.queries.map fun e => e.2.members)).map (expectedUrl config pCombo)

/-- The generator ends, and yields these URLs and no others, each as often. -/
def UrlsExact (config : URLConfigModel) : Prop :=
  ∃ urls, generateUrls config = (urls, .ok ()) ∧ urls.Perm (expectedUrls config)

theorem replaceFrom_nil (cs : List Char) : replaceFrom [] 0 cs = cs := by
  induction cs with
  | nil => rfl
  | cons c cs ih =>
    show c :: replaceFrom [] 0 cs = c :: cs
    rw [ih]

/-- A query value makes the generator raise. -/
theorem generateUrls_of_query (hquery : ∃ e ∈ config.queryParams.entries, e.2.values.truthy) :
    (generateUrls config).2 ≠ .ok () := by
  obtain ⟨e, he, htruthy⟩ := hquery
  have hraises : ∃ err, queryValues config = .error err := by
    unfold queryValues
    cases hfilter : config.queryParams.entries.filter fun e => e.2.values.truthy with
    | nil => exact absurd htruthy (List.filter_eq_nil_iff.mp hfilter e he)
    | cons first rest => exact ⟨.typeError, rfl⟩
  obtain ⟨err, hraises⟩ := hraises
  unfold generateUrls
  rw [hraises]
  cases pathValues config with
  | error e => exact nofun
  | ok paths => exact nofun

/-- **What is accepted yields its URLs exactly if no query parameter has values.** -/
theorem urlsExact_iff (h : URLConfigModel.validate order input = .ok config) :
    UrlsExact config ↔ ∀ e ∈ config.queryParams.entries, e.2.values.truthy = false := by
  have hpath : config.pathParams.entries = [] := by rw [accepted_pathParams h]; rfl
  constructor
  · rintro ⟨urls, hurls, -⟩ e he
    by_contra htruthy
    refine generateUrls_of_query ⟨e, he, by simpa using htruthy⟩ ?_
    rw [hurls]
  · intro hquery
    refine ⟨[config.baseUrl], generateUrls_of_empty hpath hquery, ?_⟩
    have hnone : config.queries = [] := by
      unfold URLConfigModel.queries
      rw [List.filter_eq_nil_iff]
      intro e he
      rw [hquery e he]
      exact Bool.false_ne_true
    have hkeys : config.pathParams.keys = [] := List.map_eq_nil_iff.mpr hpath
    have hbase : expectedUrl config [] [] = config.baseUrl := by
      unfold expectedUrl
      rw [hkeys, hnone]
      show String.ofList (replaceFrom [] 0 config.baseUrl.toList) = _
      rw [replaceFrom_nil, String.ofList_toList]
    unfold expectedUrls
    rw [hpath, hnone]
    show [config.baseUrl].Perm [expectedUrl config [] []]
    rw [hbase]

/-- A parameter without values yields the base URL. -/
theorem urlsExact_noValues :
    UrlsExact ⟨"https://example.com/", .empty,
      Dict.empty.set "page" (.mk (.list []) .list none)⟩ := by
  have haccepted : URLConfigModel.validate insertionOrder ⟨"https://example.com/", none,
      some (Dict.empty.set "page" (.mk (.list []) .list none))⟩ =
      .ok ⟨"https://example.com/", .empty, Dict.empty.set "page" (.mk (.list []) .list none)⟩ := rfl
  refine (urlsExact_iff haccepted).mpr fun e he => ?_
  cases List.mem_singleton.mp he
  rfl

/-- A configuration that is accepted, and whose generator raises. -/
theorem not_urlsExact :
    URLConfigModel.validate insertionOrder pagesInput = .ok pagesConfig ∧
      ¬ UrlsExact pagesConfig := by
  refine ⟨rfl, ?_⟩
  rintro ⟨urls, hurls, -⟩
  have hraises : (generateUrls pagesConfig).2 = .error .typeError := rfl
  rw [hurls] at hraises
  cases hraises

end Notifyr
