import Mathlib.Algebra.Order.BigOperators.Group.List
import Mathlib.Algebra.Order.Group.Nat
import Mathlib.Data.Finset.Max
import Notifyr.Theory.Glob

/-!
# The middlewares that leave some paths out

`definition/_middleware.py` wraps a middleware with lists of path patterns: where the url of a
request matches one of them, the check of the middleware is skipped.

- `getUrl`: the text that is matched, which is the whole url without the base url.
- `fnmatch`: the shell patterns of Python.
- `excludeOn`, `stacked`: the wrapper, and several of them around one check.
- `skips_iff`: stacked lists behave as their union.
- `Excluded`: what a pattern is meant to leave out.
- `excludeRight_iff`: which lists leave out what they are meant to, and for which requests.
-/

namespace Notifyr

open Theory

/-- A text, letter by letter. -/
abbrev Text := List Char

/-- A request, as far as the wrapper reads it. The path is decoded and begins with a slash. -/
structure HttpRequest where
  method : Text
  scheme : Text
  host : Text
  path : Text
  query : Text
  rooted : path.head? = some '/'

namespace HttpRequest

/-- `str(request.base_url)`. -/
def baseUrl (r : HttpRequest) : Text := r.scheme ++ "://".toList ++ r.host ++ ['/']

/-- The query string with its question mark, where there is one. -/
def querySuffix (r : HttpRequest) : Text := if r.query = [] then [] else '?' :: r.query

/-- `str(request.url)`. -/
def url (r : HttpRequest) : Text := r.scheme ++ "://".toList ++ r.host ++ r.path ++ r.querySuffix

end HttpRequest

/-! ## Shell patterns -/

/-- The members of a bracket: single letters and ranges. -/
def inSeq (c : Char) : Text → Bool
  | lo :: '-' :: hi :: rest => (decide (lo ≤ c) && decide (c ≤ hi)) || inSeq c rest
  | a :: rest => decide (c = a) || inSeq c rest
  | [] => false

/-- The test of the bracket that is open in front of a text, and how many letters it takes; none
where it is not closed. The first letter of a bracket may be a closing one. -/
def bracket (text : Text) : Option ((Char → Bool) × ℕ) :=
  let negated := text.head? == some '!'
  let body := if negated then text.tail else text
  let first := if body.head? = some ']' then 1 else 0
  let rest := body.drop first
  if ']' ∈ rest then
    let seq := body.take first ++ rest.takeWhile (· ≠ ']')
    some (fun c => inSeq c seq != negated, (if negated then 1 else 0) + seq.length + 1)
  else none

/-- `fnmatch.translate`; `skip` letters are still part of a bracket. -/
def translateFrom : ℕ → Text → List (Glob Char)
  | _, [] => []
  | skip + 1, _ :: rest => translateFrom skip rest
  | 0, c :: rest =>
    if c = '*' then .star :: translateFrom 0 rest
    else if c = '?' then .one (fun _ => true) :: translateFrom 0 rest
    else if c = '[' then
      match bracket rest with
      | some (test, taken) => .one test :: translateFrom taken rest
      | none => .letter '[' :: translateFrom 0 rest
    else .letter c :: translateFrom 0 rest

/-- `fnmatch.fnmatch(name, pat)`. -/
def fnmatch (name pat : Text) : Bool := globMatch (translateFrom 0 pat) name

/-- The letters that a shell pattern reads as themselves. -/
def Literal (text : Text) : Prop := ∀ c ∈ text, c ≠ '*' ∧ c ≠ '?' ∧ c ≠ '['

instance (text : Text) : Decidable (Literal text) :=
  List.decidableBAll _ text

/-- A literal text in front of a pattern stays as it is. -/
theorem translateFrom_literal {text : Text} (h : Literal text) (rest : Text) :
    translateFrom 0 (text ++ rest) = text.map Glob.letter ++ translateFrom 0 rest := by
  induction text with
  | nil => rfl
  | cons c text ih =>
    obtain ⟨hstar, hany, hopen⟩ := h c List.mem_cons_self
    have htext : Literal text := fun c hc => h c (List.mem_cons_of_mem _ hc)
    rw [List.cons_append, translateFrom, if_neg hstar, if_neg hany, if_neg hopen, ih htext]
    rfl

/-! ## The wrapper -/

/-- `get_url(request)`. -/
def getUrl (r : HttpRequest) : Text := '/' :: removeWord r.baseUrl r.url

/-- A path with its leading slash. -/
def withSlash (path : Text) : Text := if path.head? = some '/' then path else '/' :: path

/-- One step of `parse_urls`. -/
def parseUrl (path : Text) : Text :=
  if "/*".toList.isSuffixOf (withSlash path) then
    (withSlash path).take ((withSlash path).length - 2) ++ ['*']
  else withSlash path

/-- `parse_urls(paths)`. -/
def parseUrls (paths : List Text) : List Text := paths.map parseUrl

/-- `exclude_path_matcher(paths, url)`. -/
def excludePathMatcher (paths : List Text) (url : Text) : Bool :=
  if paths.isEmpty then true else !paths.any fun pattern => fnmatch url pattern

/-- The `dispatch` of a middleware: the request and what comes after the middleware. -/
abbrev Dispatch (ρ : Type) := HttpRequest → (HttpRequest → ρ) → ρ

/-- `ExcludeOn(paths, methods, bypass)`. -/
def excludeOn {ρ : Type} (paths : List Text) (methods : List Text) (bypass : Bool)
    (func : Dispatch ρ) : Dispatch ρ := fun request callNext =>
  if bypass then callNext request
  else if !excludePathMatcher (parseUrls paths) (getUrl request) then callNext request
  else if !methods.isEmpty && !methods.contains request.method then callNext request
  else func request callNext

/-- Wrappers around one check, the outermost one first. -/
def stacked {ρ : Type} (lists : List (List Text)) (func : Dispatch ρ) : Dispatch ρ :=
  lists.foldr (fun paths func => excludeOn paths [] false func) func

/-- The lists around `JWTAuthMiddleware.dispatch`. -/
def jwtAuthExcludes : List (List Text) :=
  [["/auth/generate/*".toList, "/contacts/manage/*".toList],
    ["/link/visits/*".toList, "/link/email-track/*".toList],
    ["/docs/*".toList, "/openapi.json".toList], ["/".toList]]

/-- The lists around `ChallengeMatchMiddleware.dispatch`. -/
def challengeMatchExcludes : List (List Text) :=
  [["/docs/*".toList, "/openapi.json".toList, "/contacts/manage/*".toList],
    ["/auth/generate/*".toList, "/auth/refresh/*".toList],
    ["/link/visits/*".toList, "/link/email-track/*".toList], ["/".toList]]

/-! ## Which requests are skipped -/

/-- Some pattern of the lists matches. -/
def skips (lists : List (List Text)) (r : HttpRequest) : Bool :=
  lists.any fun paths => paths.any fun p => fnmatch (getUrl r) (parseUrl p)

theorem excludePathMatcher_parseUrls (paths : List Text) (url : Text) :
    excludePathMatcher (parseUrls paths) url = !paths.any fun p => fnmatch url (parseUrl p) := by
  unfold excludePathMatcher parseUrls
  cases paths with
  | nil => rfl
  | cons p paths => rw [List.any_map]; rfl

/-- One wrapper lets the request through, or hands it to the check. -/
theorem excludeOn_eq {ρ : Type} (paths : List Text) (func : Dispatch ρ) (r : HttpRequest)
    (callNext : HttpRequest → ρ) :
    excludeOn paths [] false func r callNext =
      if (paths.any fun p => fnmatch (getUrl r) (parseUrl p)) = true then callNext r
      else func r callNext := by
  unfold excludeOn
  rw [excludePathMatcher_parseUrls, Bool.not_not]
  rfl

/-- A stack of wrappers lets through what some pattern of any of them matches, whatever the check
does: stacked lists behave as their union. -/
theorem stacked_eq {ρ : Type} (lists : List (List Text)) (func : Dispatch ρ) (r : HttpRequest)
    (callNext : HttpRequest → ρ) :
    stacked lists func r callNext =
      if skips lists r = true then callNext r else func r callNext := by
  induction lists with
  | nil => rfl
  | cons paths lists ih =>
    change excludeOn paths [] false (stacked lists func) r callNext = _
    rw [excludeOn_eq, ih]
    unfold skips
    rw [List.any_cons]
    cases paths.any fun p => fnmatch (getUrl r) (parseUrl p) with
    | true => rfl
    | false => rfl

theorem skips_iff {lists : List (List Text)} {r : HttpRequest} :
    skips lists r = true ↔
      ∃ paths ∈ lists, ∃ p ∈ paths, fnmatch (getUrl r) (parseUrl p) = true := by
  unfold skips
  simp only [List.any_eq_true]

/-! ## What a pattern is meant to leave out -/

/-- The pattern names a directory. -/
def IsDirectory (pattern : Text) : Prop := "/*".toList <:+ withSlash pattern

instance (pattern : Text) : Decidable (IsDirectory pattern) :=
  inferInstanceAs (Decidable ("/*".toList <:+ withSlash pattern))

/-- The path of a pattern, which for a directory is the directory itself. -/
def stem (pattern : Text) : Text :=
  if IsDirectory pattern then (withSlash pattern).take ((withSlash pattern).length - 2)
  else withSlash pattern

/-- The pattern leaves the path out: it is the path, or a directory that the path is or lies
under. -/
def Excluded (pattern path : Text) : Prop :=
  path = stem pattern ∨ IsDirectory pattern ∧ stem pattern ++ ['/'] <+: path

instance (pattern path : Text) : Decidable (Excluded pattern path) :=
  inferInstanceAs (Decidable (_ ∨ _))

/-- Some pattern of the lists leaves the path out. -/
def ExcludedBy (lists : List (List Text)) (path : Text) : Prop :=
  ∃ paths ∈ lists, ∃ p ∈ paths, Excluded p path

instance (lists : List (List Text)) (path : Text) : Decidable (ExcludedBy lists path) :=
  inferInstanceAs (Decidable (∃ paths ∈ lists, ∃ p ∈ paths, Excluded p path))

/-- The check is skipped on the paths that the lists leave out, and on no other one, whatever the
check does and whatever comes after it. -/
def ExcludeRight (lists : List (List Text)) (r : HttpRequest) : Prop :=
  ∀ (ρ : Type) (func : Dispatch ρ) (callNext : HttpRequest → ρ),
    (ExcludedBy lists r.path → stacked lists func r callNext = callNext r) ∧
      (¬ ExcludedBy lists r.path → stacked lists func r callNext = func r callNext)

theorem excludeRight_iff_skips {lists : List (List Text)} {r : HttpRequest} :
    ExcludeRight lists r ↔ (skips lists r = true ↔ ExcludedBy lists r.path) := by
  constructor
  · intro h
    obtain ⟨hskip, hcheck⟩ := h Bool (fun _ _ => false) (fun _ => true)
    rw [stacked_eq] at hskip hcheck
    by_cases hs : skips lists r = true
    · rw [if_pos hs] at hcheck
      exact iff_of_true hs (by_contra fun hn => Bool.noConfusion (hcheck hn))
    · rw [if_neg hs] at hskip
      exact iff_of_false hs fun he => Bool.noConfusion (hskip he)
  · intro h ρ func callNext
    rw [stacked_eq]
    exact ⟨fun he => if_pos (h.mpr he), fun hn => if_neg fun hs => hn (h.mp hs)⟩

/-! ## The stem of a pattern -/

/-- The pattern leaves everything out. -/
def Universal (pattern : Text) : Prop := pattern = "/*".toList ∨ pattern = "*".toList

theorem withSlash_head (path : Text) : (withSlash path).head? = some '/' := by
  unfold withSlash
  split_ifs with h
  · exact h
  · rfl

/-- A directory pattern is its stem with the mark of a directory. -/
theorem stem_append {p : Text} (h : IsDirectory p) : stem p ++ "/*".toList = withSlash p := by
  obtain ⟨front, hfront⟩ := h
  have hlen : (withSlash p).length = front.length + 2 := by
    rw [← hfront, List.length_append]
    rfl
  have htake : (withSlash p).take ((withSlash p).length - 2) = front := by
    rw [hlen, Nat.add_sub_cancel, ← hfront, List.take_left]
  unfold stem
  rw [if_pos ⟨front, hfront⟩, htake, hfront]

/-- What `parse_urls` makes of a pattern. -/
theorem parseUrl_eq (p : Text) :
    parseUrl p = if IsDirectory p then stem p ++ ['*'] else stem p := by
  unfold parseUrl
  by_cases h : IsDirectory p
  · rw [if_pos (List.isSuffixOf_iff_suffix.mpr h), if_pos h, stem, if_pos h]
  · rw [if_neg fun hs => h (List.isSuffixOf_iff_suffix.mp hs), if_neg h, stem, if_neg h]

/-- Only the patterns of everything have no stem. -/
theorem stem_eq_nil {p : Text} (h : stem p = []) : Universal p := by
  have hdir : IsDirectory p := by
    by_contra hn
    rw [stem, if_neg hn] at h
    have hhead := withSlash_head p
    rw [h] at hhead
    cases hhead
  have hp := stem_append hdir
  rw [h, List.nil_append] at hp
  unfold withSlash at hp
  split_ifs at hp with hslash
  · exact Or.inl hp.symm
  · exact Or.inr (List.cons.inj hp).2.symm

/-- Any other stem begins with a slash. -/
theorem stem_head {p : Text} (h : ¬ Universal p) : (stem p).head? = some '/' := by
  by_cases hdir : IsDirectory p
  · have hp := withSlash_head p
    rw [← stem_append hdir] at hp
    cases hstem : stem p with
    | nil => exact absurd (stem_eq_nil hstem) h
    | cons c rest =>
      rw [hstem] at hp
      exact hp
  · rw [stem, if_neg hdir]
    exact withSlash_head p

/-! ## For every request

A decoded path may hold a question mark, so a path and a query string give the same url as a longer
path. The shortest stem of the lists is skipped with a query string; the longer path is then skipped
too, and no pattern leaves it out. -/

/-- The request of a path and a query string. -/
def HttpRequest.get (path query : Text) (rooted : path.head? = some '/') : HttpRequest where
  method := "GET".toList
  scheme := "http".toList
  host := "localhost".toList
  path := path
  query := query
  rooted := rooted

theorem head?_append_of_some {text rest : Text} (h : text.head? = some '/') :
    (text ++ rest).head? = some '/' := by
  rw [List.head?_append, h]
  rfl

/-- The url does not tell a query string from the end of a path. -/
theorem getUrl_get {path query : Text} (h : path.head? = some '/') (hquery : query ≠ []) :
    getUrl (.get (path ++ '?' :: query) [] (head?_append_of_some h)) =
      getUrl (.get path query h) := by
  have hurl : (HttpRequest.get (path ++ '?' :: query) [] (head?_append_of_some h)).url =
      (HttpRequest.get path query h).url := by
    have hnone : (HttpRequest.get (path ++ '?' :: query) []
        (head?_append_of_some h)).querySuffix = [] := if_pos rfl
    have hsome : (HttpRequest.get path query h).querySuffix = '?' :: query := if_neg hquery
    unfold HttpRequest.url
    rw [hnone, hsome, List.append_nil]
    exact (List.append_assoc _ _ _).symm
  unfold getUrl
  rw [hurl]
  rfl

/-- A pattern that leaves out a path with a question mark and many letters behind it has a short
stem already. -/
theorem stem_lt_of_excluded {p path : Text} {n : ℕ} (hn : (stem p).length ≤ n)
    (h : Excluded p (path ++ '?' :: List.replicate n 'x')) :
    (stem p).length < path.length := by
  rcases h with heq | ⟨-, hprefix⟩
  · have hlen := congrArg List.length heq
    rw [List.length_append, List.length_cons, List.length_replicate] at hlen
    omega
  · by_contra hlong
    have hstem : path <+: stem p :=
      List.prefix_of_prefix_length_le (List.prefix_append _ _)
        ((List.prefix_append _ _).trans hprefix) (not_lt.mp hlong)
    obtain ⟨rest, hrest⟩ := hstem
    rw [← hrest, List.append_assoc, List.prefix_append_right_inj] at hprefix
    have hslash : '/' ∈ '?' :: List.replicate n 'x' := hprefix.subset (by simp)
    rcases List.mem_cons.mp hslash with h | h
    · exact absurd h (by decide)
    · exact absurd (List.eq_of_mem_replicate h) (by decide)

/-- Where the lists name something, and nothing names everything, some request goes wrong. -/
theorem exists_not_excludeRight {lists : List (List Text)} (hne : lists.flatten ≠ [])
    (h : ∀ p ∈ lists.flatten, ¬ Universal p) : ∃ r, ¬ ExcludeRight lists r := by
  by_contra hall
  have hright (r : HttpRequest) : skips lists r = true ↔ ExcludedBy lists r.path :=
    excludeRight_iff_skips.mp (by_contra fun hn => hall ⟨r, hn⟩)
  obtain ⟨p₀, hp₀⟩ := List.exists_mem_of_ne_nil _ hne
  obtain ⟨p, hp, hmin⟩ := Finset.exists_min_image lists.flatten.toFinset
    (fun p => (stem p).length) ⟨p₀, List.mem_toFinset.mpr hp₀⟩
  rw [List.mem_toFinset] at hp
  -- The stem itself is left out, with any query string.
  have hroot := stem_head (h p hp)
  set n := (lists.flatten.map fun p => (stem p).length).sum + 1 with hn
  have hquery : List.replicate n 'x' ≠ [] := by
    rw [hn]
    exact List.cons_ne_nil _ _
  have hskip : skips lists (.get (stem p) (List.replicate n 'x') hroot) = true := by
    obtain ⟨paths, hpaths, hmem⟩ := List.mem_flatten.mp hp
    exact (hright _).mpr ⟨paths, hpaths, p, hmem, Or.inl rfl⟩
  -- So is the path with the same url, which no pattern means.
  have hskip' : skips lists (.get (stem p ++ '?' :: List.replicate n 'x') []
      (head?_append_of_some hroot)) = true := by
    unfold skips
    rw [getUrl_get hroot hquery]
    exact hskip
  obtain ⟨paths, hpaths, p', hmem, hexcl⟩ := (hright _).mp hskip'
  have hp' : p' ∈ lists.flatten := List.mem_flatten.mpr ⟨paths, hpaths, hmem⟩
  have hlt : (stem p').length < (stem p).length := by
    refine stem_lt_of_excluded ?_ hexcl
    have hle : (stem p').length ≤ (lists.flatten.map fun p => (stem p).length).sum :=
      List.le_sum_of_mem (List.mem_map.mpr ⟨p', hp', rfl⟩)
    omega
  exact absurd (hmin p' (List.mem_toFinset.mpr hp')) (not_le.mpr hlt)

/-- A pattern of everything matches every url, and leaves every path out. -/
theorem excludeRight_of_universal {lists : List (List Text)} {paths : List Text} {p : Text}
    (hpaths : paths ∈ lists) (hp : p ∈ paths) (h : Universal p) (r : HttpRequest) :
    ExcludeRight lists r := by
  refine excludeRight_iff_skips.mpr (iff_of_true ?_ ⟨paths, hpaths, p, hp, Or.inr ?_⟩)
  · have hparse : parseUrl p = ['*'] := by
      rcases h with rfl | rfl
      · rfl
      · rfl
    refine skips_iff.mpr ⟨paths, hpaths, p, hp, ?_⟩
    rw [hparse]
    exact globMatch_star
  · have hpath : ['/'] <+: r.path := by
      have hroot := r.rooted
      cases hr : r.path with
      | nil => rw [hr] at hroot; cases hroot
      | cons c rest =>
        rw [hr] at hroot
        cases hroot
        exact ⟨rest, rfl⟩
    rcases h with rfl | rfl
    · exact ⟨by decide, hpath⟩
    · exact ⟨by decide, hpath⟩

/-- Lists without a pattern skip nothing. -/
theorem excludeRight_of_empty {lists : List (List Text)} (h : lists.flatten = [])
    (r : HttpRequest) : ExcludeRight lists r := by
  have hnone (paths : List Text) (hpaths : paths ∈ lists) (p : Text) (hp : p ∈ paths) : False := by
    have hmem : p ∈ lists.flatten := List.mem_flatten.mpr ⟨paths, hpaths, hp⟩
    rw [h] at hmem
    cases hmem
  refine excludeRight_iff_skips.mpr (iff_of_false ?_ ?_)
  · intro hs
    obtain ⟨paths, hpaths, p, hp, -⟩ := skips_iff.mp hs
    exact hnone paths hpaths p hp
  · rintro ⟨paths, hpaths, p, hp, -⟩
    exact hnone paths hpaths p hp

/-! ## Request by request

Where the patterns have no other wildcard than the mark of a directory, and the base url does not
occur again in the url, what is matched is the path with its query string. -/

/-- The base url does not occur in the rest of the url. -/
def OneBase (r : HttpRequest) : Prop := ¬ r.baseUrl <:+: r.path.tail ++ r.querySuffix

instance (r : HttpRequest) : Decidable (OneBase r) := inferInstanceAs (Decidable (¬ _))

/-- No pattern has a wildcard, but for the mark of a directory. -/
def Plain (lists : List (List Text)) : Prop := ∀ paths ∈ lists, ∀ p ∈ paths, Literal (stem p)

instance (lists : List (List Text)) : Decidable (Plain lists) :=
  inferInstanceAs (Decidable (∀ paths ∈ lists, ∀ p ∈ paths, Literal (stem p)))

/-- The path begins with the letters of an excluded directory. -/
def BeginsDirectory (lists : List (List Text)) (path : Text) : Prop :=
  ∃ paths ∈ lists, ∃ p ∈ paths, IsDirectory p ∧ stem p <+: path

instance (lists : List (List Text)) (path : Text) : Decidable (BeginsDirectory lists path) :=
  inferInstanceAs (Decidable (∃ paths ∈ lists, ∃ p ∈ paths, IsDirectory p ∧ stem p <+: path))

theorem getUrl_of_oneBase {r : HttpRequest} (h : OneBase r) :
    getUrl r = r.path ++ r.querySuffix := by
  have hpath : '/' :: r.path.tail = r.path := List.cons_head?_tail r.rooted
  have hurl : r.url = r.baseUrl ++ (r.path.tail ++ r.querySuffix) := by
    unfold HttpRequest.url HttpRequest.baseUrl
    rw [← hpath]
    simp only [List.append_assoc, List.cons_append, List.nil_append, List.tail_cons]
  have hbase : r.baseUrl ≠ [] := List.append_ne_nil_of_right_ne_nil _ (List.cons_ne_nil _ _)
  unfold getUrl
  rw [hurl, removeWord_append hbase, removeWord_of_not_infix h, ← List.cons_append, hpath]

/-- A literal text begins the path where it begins the path with the query string. -/
theorem literal_prefix_append {text : Text} (h : Literal text) (r : HttpRequest) :
    text <+: r.path ++ r.querySuffix ↔ text <+: r.path := by
  constructor
  · intro hprefix
    by_contra hn
    have hlong : ¬ text.length ≤ r.path.length := fun hle =>
      hn (List.prefix_of_prefix_length_le hprefix (List.prefix_append _ _) hle)
    -- Otherwise the text goes on with the question mark.
    obtain ⟨rest, hrest⟩ := List.prefix_of_prefix_length_le (List.prefix_append r.path _) hprefix
      (by omega)
    rw [← hrest, List.prefix_append_right_inj] at hprefix
    unfold HttpRequest.querySuffix at hprefix
    cases rest with
    | nil =>
      rw [List.append_nil] at hrest
      exact hn (by rw [hrest])
    | cons c rest =>
      split_ifs at hprefix with hq
      · exact absurd hprefix.length_le (by simp)
      · obtain ⟨rfl, -⟩ := List.cons_prefix_cons.mp hprefix
        exact (h '?' (by rw [← hrest]; simp)).2.1 rfl
  · intro hprefix
    exact hprefix.trans (List.prefix_append _ _)

/-- A literal text is the path with the query string where it is the path, and there is none. -/
theorem append_eq_literal {text : Text} (h : Literal text) (r : HttpRequest) :
    r.path ++ r.querySuffix = text ↔ r.path = text ∧ r.query = [] := by
  unfold HttpRequest.querySuffix
  split_ifs with hq
  · rw [List.append_nil]
    exact ⟨fun he => ⟨he, hq⟩, fun he => he.1⟩
  · refine iff_of_false ?_ fun he => hq he.2
    rintro rfl
    exact (h '?' (by simp)).2.1 rfl

/-- What a pattern without wildcards matches: the letters of a directory, and a single path without
a query string. -/
theorem fnmatch_plain {p : Text} {r : HttpRequest} (hbase : OneBase r) (h : Literal (stem p)) :
    fnmatch (getUrl r) (parseUrl p) = true ↔
      if IsDirectory p then stem p <+: r.path else r.path = stem p ∧ r.query = [] := by
  unfold fnmatch
  rw [getUrl_of_oneBase hbase, parseUrl_eq]
  split_ifs with hdir
  · rw [translateFrom_literal h]
    change globMatch ((stem p).map Glob.letter ++ [.star]) _ = true ↔ _
    rw [globMatch_literal_star]
    exact literal_prefix_append h r
  · have htranslate := translateFrom_literal h []
    rw [List.append_nil] at htranslate
    change translateFrom 0 (stem p) = (stem p).map Glob.letter ++ [] at htranslate
    rw [List.append_nil] at htranslate
    rw [htranslate, globMatch_literal]
    exact append_eq_literal h r

/-- Plain lists skip every path that begins with the letters of an excluded directory, and every
excluded path that has no query string. -/
theorem skips_plain {lists : List (List Text)} {r : HttpRequest} (hplain : Plain lists)
    (hbase : OneBase r) :
    skips lists r = true ↔
      BeginsDirectory lists r.path ∨ ExcludedBy lists r.path ∧ r.query = [] := by
  rw [skips_iff]
  constructor
  · rintro ⟨paths, hpaths, p, hp, hmatch⟩
    rw [fnmatch_plain hbase (hplain paths hpaths p hp)] at hmatch
    split_ifs at hmatch with hdir
    · exact Or.inl ⟨paths, hpaths, p, hp, hdir, hmatch⟩
    · exact Or.inr ⟨⟨paths, hpaths, p, hp, Or.inl hmatch.1⟩, hmatch.2⟩
  · rintro (⟨paths, hpaths, p, hp, hdir, hprefix⟩ | ⟨⟨paths, hpaths, p, hp, hexcl⟩, hquery⟩)
    · refine ⟨paths, hpaths, p, hp, ?_⟩
      rw [fnmatch_plain hbase (hplain paths hpaths p hp), if_pos hdir]
      exact hprefix
    · refine ⟨paths, hpaths, p, hp, ?_⟩
      rw [fnmatch_plain hbase (hplain paths hpaths p hp)]
      split_ifs with hdir
      · rcases hexcl with heq | ⟨-, hunder⟩
        · rw [heq]
        · exact (List.prefix_append _ _).trans hunder
      · rcases hexcl with heq | ⟨hdir', -⟩
        · exact ⟨heq, hquery⟩
        · exact absurd hdir' hdir

/-- The lists do what they are meant to for every request exactly where they name nothing or
everything. Plain lists do so for a request exactly where no excluded directory is only a textual
beginning of its path, and an excluded path has no query string or lies in a directory. -/
theorem excludeRight_iff (lists : List (List Text)) :
    ((∀ r, ExcludeRight lists r) ↔
      lists.flatten = [] ∨ ∃ p ∈ lists.flatten, Universal p) ∧
    (Plain lists → ∀ r, OneBase r →
      (ExcludeRight lists r ↔
        (BeginsDirectory lists r.path → ExcludedBy lists r.path) ∧
          (ExcludedBy lists r.path → r.query = [] ∨ BeginsDirectory lists r.path))) := by
  constructor
  · constructor
    · intro h
      by_contra hn
      obtain ⟨hne, huniv⟩ := not_or.mp hn
      obtain ⟨r, hr⟩ := exists_not_excludeRight hne fun p hp hu => huniv ⟨p, hp, hu⟩
      exact hr (h r)
    · rintro (hempty | ⟨p, hp, hu⟩) r
      · exact excludeRight_of_empty hempty r
      · obtain ⟨paths, hpaths, hmem⟩ := List.mem_flatten.mp hp
        exact excludeRight_of_universal hpaths hmem hu r
  · intro hplain r hbase
    rw [excludeRight_iff_skips, skips_plain hplain hbase]
    constructor
    · intro h
      exact ⟨fun hb => h.mp (Or.inl hb), fun he => (h.mpr he).symm.imp_left And.right⟩
    · rintro ⟨hsibling, hquery⟩
      constructor
      · rintro (hb | ⟨he, -⟩)
        · exact hsibling hb
        · exact he
      · intro he
        exact (hquery he).symm.imp_right fun hq => ⟨he, hq⟩

/-- Both conditions are met by the paths under the documentation. -/
theorem excludeRight_docs : ExcludeRight jwtAuthExcludes (.get "/docs/oauth2".toList [] rfl) :=
  ((excludeRight_iff jwtAuthExcludes).2 (by decide +kernel) _ (by decide +kernel)).mpr
    (by decide +kernel)

/-- A path beside an excluded directory passes both middlewares without their checks, though no
pattern leaves it out. -/
theorem not_excludeRight :
    ¬ ExcludeRight jwtAuthExcludes (.get "/auth/generated".toList [] rfl) ∧
      ¬ ExcludeRight challengeMatchExcludes (.get "/auth/generated".toList [] rfl) := by
  rw [excludeRight_iff_skips, excludeRight_iff_skips]
  decide +kernel

/-- A path that holds the base url of its request loses it, and so does a path that is excluded with
a query string. -/
example :
    skips jwtAuthExcludes (.get "/http://localhost/docs/client".toList [] rfl) = true ∧
      skips jwtAuthExcludes (.get "/openapi.json".toList "v=1".toList rfl) = false := by
  decide +kernel

end Notifyr
