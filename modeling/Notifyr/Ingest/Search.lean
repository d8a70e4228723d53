import Mathlib.Data.List.Dedup
import Mathlib.Data.List.ProdSigma
import Notifyr.Ingest.Urls
import Notifyr.Runtime.UrlSplit

/-!
# The URLs of a search

`search_query_creator` and `extract_query` (`app/classes/research.py`), with `generate_urls` on the
configuration of a search.

- `searchQueryCreator`, `extractQuery`: the encoder and the decoder.
- `searchQueryCreator_ok`: what a configuration of a search consists of; `exists_search` says that
  the engines have one for any concepts and pages.
- `SearchRight`: one URL for each concept and page, from which the concept is read back.
- `search_never_right`: the generator raises on every configuration of a search.
-/

namespace Notifyr

open Theory

/-! ## The configuration -/

/-- The engines `search_query_creator` tells apart; `SearchEngine` names four of them. -/
inductive SearchEngine
  | google | bing | duckduckgo | googleScholar | yahoo
  | other (name : String)
  deriving DecidableEq, Repr

/-- What `search_query_creator` raises. -/
inductive SearchError
  | searchEngineNotSupported (engine : SearchEngine)
  /-- An error of the models that are made. -/
  | py (e : PyErr)
  deriving DecidableEq, Repr

/-- The bytes `quote` leaves as they are: those that are unreserved, and `/`. -/
def quoteByteSafe (b : UInt8) : UrlText :=
  if isUnreserved b || b == 47 then [Char.ofNat b.toNat]
  else ['%', hexUpper (b.toNat / 16), hexUpper (b.toNat % 16)]

/-- `urllib.parse.quote`. -/
def quote (s : UrlText) : UrlText := (encodeText s).flatMap quoteByteSafe

/-- `values` of the pages, a tuple of start, step and end, and `base_url`. -/
def searchPages (maxPages : Int) : SearchEngine → Except SearchError ((Int × Int × Int) × String)
  | .google => .ok ((0, 10, max 0 ((maxPages - 1) * 10)),
    "https://www.google.com/search?q=\x7b\x7bquery\x7d\x7d&start=\x7b\x7bpages\x7d\x7d")
  | .bing => .ok ((1, 10, max 1 ((maxPages - 1) * 10 + 1)),
    "https://www.bing.com/search?q=\x7b\x7bquery\x7d\x7d&first=\x7b\x7bpages\x7d\x7d")
  | .duckduckgo => .ok ((1, 1, maxPages), "https://duckduckgo.com/?q=\x7b\x7bquery\x7d\x7d")
  | .googleScholar => .ok ((0, 10, max 0 ((maxPages - 1) * 10)),
    "https://scholar.google.com/scholar?q=\x7b\x7bquery\x7d\x7d&start=\x7b\x7bpages\x7d\x7d")
  | .yahoo => .ok ((1, 10, max 1 ((maxPages - 1) * 10 + 1)),
    "https://search.yahoo.com/search?p=\x7b\x7bquery\x7d\x7d&b=\x7b\x7bpages\x7d\x7d")
  | .other name => .error (.searchEngineNotSupported (.other name))

/-- `URLParam(…)`. -/
def newParam (order : SetOrder) (param : URLParam) : Except SearchError URLParam :=
  (param.validate order).mapError .py

/-- `search_query_creator`. The parameters are validated when they are made, and the default of
`path_params` is not. -/
def searchQueryCreator (order : SetOrder) (queries : List UrlText) (engine : SearchEngine)
    (maxPages : Int) : Except SearchError URLConfigModel := do
  let queries := queries.map quote
  let ((start, step, stop), baseUrl) ← searchPages maxPages engine
  let query ← newParam order (.mk (.list (queries.map fun q => .str (.ofList q))) .list none)
  let pages ← newParam order (.mk (.tuple start step stop) .range none)
  return ⟨baseUrl, .empty, .ofEntries [("query", query), ("pages", pages)]⟩

/-! ## Reading a query -/

/-- `parse_qs(query)`: pieces without a value are left out. -/
def parseQs (query : UrlText) : List (UrlText × UrlText) :=
  ((query.splitOn '&').filter fun piece => ((piece.dropWhile (· ≠ '=')).drop 1) ≠ []).map parsePair

/-- `extract_query`: the first value of the engine's key. -/
def extractQuery (url : UrlText) (engine : SearchEngine) : Option UrlText :=
  let params := parseQs (queryOf (afterNetloc url))
  match engine with
  | .yahoo => params.lookup ['p']
  | _ => params.lookup ['q']

/-! ## What is asked for -/

/-- The characters a URL has besides `%`. -/
def isUriChar (c : Char) : Bool := c.isAlphanum || "-._~:/?#[]@!$&'()*+,;=".toList.contains c

/-- A text of such characters and of bytes that are written as `%` and two digits. -/
def percentEncoded : UrlText → Bool
  | '%' :: a :: b :: rest => (fromHex a).isSome && (fromHex b).isSome && percentEncoded rest
  | c :: rest => isUriChar c && percentEncoded rest
  | [] => true

/-- The concepts with each page. -/
def conceptPages (queries : List UrlText) (maxPages : Int) : List (UrlText × ℕ) :=
  queries.dedup ×ˢ List.range maxPages.toNat

/-- The configuration can be made, and its URLs are one for each concept and page: a valid URL from
which the concept is read back. -/
def SearchRight (order : SetOrder) (queries : List UrlText) (engine : SearchEngine)
    (maxPages : Int) : Prop :=
  ∃ config urls, searchQueryCreator order queries engine maxPages = .ok config ∧
    generateUrls config = (urls, .ok ()) ∧
    ∃ url : UrlText × ℕ → String, urls.Perm ((conceptPages queries maxPages).map url) ∧
      urls.Nodup ∧
      ∀ e ∈ conceptPages queries maxPages, percentEncoded (url e).toList = true ∧
        extractQuery (url e).toList engine = some e.1

/-! ## What happens -/

variable {order : SetOrder} {queries : List UrlText} {engine : SearchEngine} {maxPages : Int}
  {config : URLConfigModel}

theorem newParam_list (order : SetOrder) (items : List ParamValue) :
    newParam order (.mk (.list items) .list none) =
      .ok (.mk (.list (order.enum (setOf items))) .list none) := rfl

theorem newParam_range (order : SetOrder) (start step stop : Int) :
    newParam order (.mk (.tuple start step stop) .range none) =
      if start > stop ∨ step = 0 then .error (.py .valueError)
      else .ok (.mk (.tuple start step stop) .range none) := by
  unfold newParam URLParam.validate URLParam.validateRangeOrList
  by_cases hstop : start > stop
  · simp [hstop, Bind.bind, Except.bind, Except.mapError]
  · by_cases hstep : step = 0
    · simp [hstop, hstep, Bind.bind, Except.bind, Except.mapError]
    · simp [hstop, hstep, Bind.bind, Except.bind, Except.mapError, URLParam.validateExclude]

/-- The configuration of a search has two query parameters, and the pages are a range. -/
theorem searchQueryCreator_ok
    (h : searchQueryCreator order queries engine maxPages = .ok config) :
    ∃ query start step stop, config.queryParams.entries =
      [("query", query), ("pages", .mk (.tuple start step stop) .range none)] := by
  obtain ⟨⟨⟨start, step, stop⟩, baseUrl⟩, -, h⟩ := bind_ok h
  obtain ⟨query, -, h⟩ := bind_ok h
  obtain ⟨pages, hpages, h⟩ := bind_ok h
  cases h
  have hvalid : pages = .mk (.tuple start step stop) .range none := by
    rw [newParam_range] at hpages
    split_ifs at hpages
    exact (Except.ok.inj hpages).symm
  exact ⟨query, start, step, stop, by rw [hvalid]; rfl⟩

/-- The engines of `SearchEngine` have a configuration for any concepts and pages. -/
theorem exists_search (order : SetOrder) (queries : List UrlText) (maxPages : Int)
    (h : engine = .google ∨ engine = .bing ∨ engine = .googleScholar ∨ engine = .yahoo) :
    ∃ config, searchQueryCreator order queries engine maxPages = .ok config := by
  obtain ⟨start, step, stop, baseUrl, hpages, hstop, hstep⟩ : ∃ start step stop baseUrl,
      searchPages maxPages engine = .ok ((start, step, stop), baseUrl) ∧ ¬ start > stop ∧
        ¬ step = 0 := by
    rcases h with rfl | rfl | rfl | rfl <;>
      exact ⟨_, _, _, _, rfl, by omega, by omega⟩
  unfold searchQueryCreator
  rw [hpages]
  simp only [Bind.bind, Except.bind, newParam_list, newParam_range, hstop, hstep, or_false,
    if_false]
  exact ⟨_, rfl⟩

/-- Generating the URLs of a search raises: a range is never taken for missing, and
`process_values` is called without its argument. -/
theorem generateUrls_search
    (h : searchQueryCreator order queries engine maxPages = .ok config) :
    (generateUrls config).2 ≠ .ok () := by
  obtain ⟨query, start, step, stop, hentries⟩ := searchQueryCreator_ok h
  refine generateUrls_of_query ⟨("pages", .mk (.tuple start step stop) .range none), ?_, rfl⟩
  rw [hentries]
  exact List.mem_cons_of_mem _ List.mem_cons_self

theorem not_searchRight_of_raises (h : ∀ config,
    searchQueryCreator order queries engine maxPages = .ok config →
      (generateUrls config).2 ≠ .ok ()) : ¬ SearchRight order queries engine maxPages := by
  rintro ⟨config, urls, hconfig, hurls, -⟩
  refine h config hconfig ?_
  rw [hurls]

/-- **No search has its URLs.** -/
theorem search_never_right (order : SetOrder) (queries : List UrlText) (engine : SearchEngine)
    (maxPages : Int) : ¬ SearchRight order queries engine maxPages :=
  not_searchRight_of_raises fun _ => generateUrls_search

/-- One concept and one page of the first engine. -/
theorem not_searchRight_cats : ¬ SearchRight insertionOrder ["cats".toList] .google 1 :=
  not_searchRight_of_raises fun _ => generateUrls_search

end Notifyr
