import Mathlib.Data.List.Infix
import Mathlib.Data.List.Perm.Subperm
import Notifyr.Runtime.PastedParams

/-!
# The links of tracked visits

`LinkQuery` (`app/depends/class_dep.py`): the query of a visit, and the link that the visitor is
sent to.

- `filterParams`: the three groups that `_filter_params` makes of the query.
- `IncludeList`: the lists of names that the routes hand to `create_link`.
- `createLink`: the link.
- `VisitLinkRight`: host and path joined by one slash, and exactly the parameters asked for.
- `visitLinkRight_iff`: for which links, paths and queries `create_link` does this.
-/

namespace Notifyr

open Theory

/-! ## The query of a visit -/

/-- What a link query reads of a request. -/
structure LinkRequest where
  netloc : UrlText
  query : UrlText

namespace LinkRequest

/-- `request.query_params.multi_items()`. -/
def multiItems (r : LinkRequest) : List Param := parseQsl r.query

/-- `request.query_params.items()`: of a repeated key the last value. -/
def items (r : LinkRequest) : List Param := (Dict.ofEntries r.multiItems).entries

end LinkRequest

/-- `LinkQuery.server_scopedOut_params`. -/
def serverScopedParams : List UrlText :=
  ["client_id", "group_id", "contact_id", "session_id", "message_id", "link_id", "subject_id", "r",
    "esp"].map String.toList

/-- `LinkQuery.ids_type`. -/
def idsType : List UrlText := ["cid", "gid", "lid", "ctid", "sid_type"].map String.toList

/-- The groups of parameters. -/
inductive ParamGroup
  | idsTypeParams
  | serverScoped
  | linkParams
  deriving DecidableEq

/-- The tests of the loop in `_filter_params`. -/
def groupOf (key : UrlText) : ParamGroup :=
  if key ∈ idsType then .idsTypeParams
  else if key ∈ serverScopedParams then .serverScoped
  else .linkParams

/-- The pairs whose key satisfies a test. -/
def select (test : UrlText → Bool) (es : List Param) : List Param := es.filter fun e => test e.1

/-- `LinkQuery._filter_params`: a dictionary for each group. -/
def filterParams (r : LinkRequest) (group : ParamGroup) : List Param :=
  select (fun key => groupOf key = group) r.items

/-- A list of names that is handed to `create_link`; `contains` is `key in include`, `names` the
names that are written in it. -/
structure IncludeList where
  contains : UrlText → Bool
  names : List UrlText
  agree : ∀ key ∈ serverScopedParams ++ idsType, contains key = true ↔ key ∈ names

/-- A tuple of names. -/
def IncludeList.tuple (names : List UrlText) : IncludeList where
  contains key := decide (key ∈ names)
  names
  agree _ _ := decide_eq_true_iff

/-- `("session_id")`, which is a text: `in` looks for a part of it. -/
def IncludeList.sessionId : IncludeList where
  contains key := decide (key <:+: "session_id".toList)
  names := ["session_id".toList]
  agree := by decide

/-! ## The link -/

/-- `LinkQuery.raw_filtered_out_params`, before the texts are joined. -/
def rawFilteredOutParams (r : LinkRequest) (group : ParamGroup) (included : IncludeList) :
    List Param := select included.contains (filterParams r group)

/-- The address that `create_link` starts from. -/
def linkText (r : LinkRequest) (link : Option UrlText) : UrlText := link.getD r.netloc

/-- A link with a slash at its end. -/
def slashed (url : UrlText) : UrlText := if url.getLast? = some '/' then url else url ++ ['/']

/-- A path without the slash at its beginning. -/
def stripSlash (path : UrlText) : UrlText := if path.head? = some '/' then path.tail else path

/-- The groups in the order in which `create_link` appends them. -/
def linkGroups (r : LinkRequest) (scopedOut idsOut : IncludeList) : List (List Param) :=
  [filterParams r .linkParams, rawFilteredOutParams r .serverScoped scopedOut,
    rawFilteredOutParams r .idsTypeParams idsOut]

/-- `LinkQuery.create_link`. -/
def createLink (r : LinkRequest) (link : Option UrlText) (path : Option UrlText)
    (scopedOut idsOut : IncludeList) : UrlText :=
  slashed (linkText r link) ++ stripSlash (path.getD []) ++
    '?' :: paste (linkGroups r scopedOut idsOut)

/-! ## What a link is for -/

/-- Two parts of an address with one slash between them. -/
def joinSlash (base path : UrlText) : UrlText :=
  (if base.getLast? = some '/' then base.dropLast else base) ++ '/' ::
    (if path.head? = some '/' then path.tail else path)

/-- The parameters that a link is asked to carry, one list for each group. -/
def wantedGroups (r : LinkRequest) (scopedOut idsOut : IncludeList) : List (List Param) :=
  [select (fun key => groupOf key = .linkParams) r.multiItems,
    select (fun key => groupOf key = .serverScoped ∧ key ∈ scopedOut.names) r.multiItems,
    select (fun key => groupOf key = .idsTypeParams ∧ key ∈ idsOut.names) r.multiItems]

/-- The link leads to the visited path and carries exactly the parameters asked for. -/
structure VisitLinkRight (r : LinkRequest) (link path : UrlText) (scopedOut idsOut : IncludeList)
    (out : UrlText) : Prop where
  address : baseOf out = joinSlash (baseOf link) path
  params : (parseQsl (queryOf out)).Perm
    (parseQsl (queryOf link) ++ (wantedGroups r scopedOut idsOut).flatten)

/-- The link and the path have no query and no fragment, and the parameters are of one group, no
key twice, and survive. -/
structure LinkGuard (r : LinkRequest) (link path : UrlText) (scopedOut idsOut : IncludeList) :
    Prop where
  plainLink : PlainAddress link
  plainPath : PlainAddress path
  oneGroup : ((wantedGroups r scopedOut idsOut).filter (· ≠ [])).length ≤ 1
  noRepeat : ((wantedGroups r scopedOut idsOut).flatten.map Prod.fst).Nodup
  clean : ∀ e ∈ (wantedGroups r scopedOut idsOut).flatten, CleanPair e

/-- The link has a fragment, which takes all that is appended, and nothing has to be. -/
structure FragmentGuard (r : LinkRequest) (link path : UrlText) (scopedOut idsOut : IncludeList) :
    Prop where
  fragment : '#' ∈ link
  address : (baseOf link).getLast? = some '/'
  noPath : path = [] ∨ path = ['/']
  noParams : (wantedGroups r scopedOut idsOut).flatten = []

/-! ## The parameters that are kept -/

theorem items_nodup (r : LinkRequest) : (r.items.map Prod.fst).Nodup :=
  (Dict.ofEntries r.multiItems).nodup

theorem items_subset (r : LinkRequest) : r.items ⊆ r.multiItems :=
  fun _ h => Dict.mem_of_ofEntries h

/-- Every key that was sent is kept, with one of its values. -/
theorem exists_mem_items {r : LinkRequest} {e : Param} (h : e ∈ r.multiItems) :
    ∃ v, (e.1, v) ∈ r.items := by
  have hkey : e.1 ∈ (Dict.ofEntries r.multiItems).keys := by
    rw [Dict.mem_keys_ofEntries]
    exact List.mem_map_of_mem h
  obtain ⟨v, hv⟩ := (Dict.mem_keys_iff _ _).mp hkey
  exact ⟨v, (Dict.mem_entries_iff _ _ _).mpr hv⟩

theorem mem_select {test : UrlText → Bool} {es : List Param} {e : Param} :
    e ∈ select test es ↔ e ∈ es ∧ test e.1 = true := List.mem_filter

theorem select_subperm (test : UrlText → Bool) (r : LinkRequest) :
    (select test r.items).Subperm (select test r.multiItems) := by
  refine List.subperm_of_subset ?_ ?_
  · exact List.Nodup.of_map Prod.fst ((List.filter_sublist.map Prod.fst).nodup (items_nodup r))
  · intro e he
    rw [mem_select] at he ⊢
    exact ⟨items_subset r he.1, he.2⟩

theorem select_eq_nil_iff (test : UrlText → Bool) (r : LinkRequest) :
    select test r.items = [] ↔ select test r.multiItems = [] := by
  constructor
  · intro h
    rw [List.eq_nil_iff_forall_not_mem] at h ⊢
    intro e he
    obtain ⟨hmem, htest⟩ := mem_select.mp he
    obtain ⟨v, hv⟩ := exists_mem_items hmem
    exact h (e.1, v) (mem_select.mpr ⟨hv, htest⟩)
  · intro h
    have hsub := select_subperm test r
    rw [h] at hsub
    exact List.subperm_nil.mp hsub

/-- The tests of the groups that are appended. -/
def linkTests (scopedOut idsOut : IncludeList) : List (UrlText → Bool) :=
  [fun key => groupOf key = .linkParams,
    fun key => groupOf key = .serverScoped ∧ key ∈ scopedOut.names,
    fun key => groupOf key = .idsTypeParams ∧ key ∈ idsOut.names]

theorem wantedGroups_eq (r : LinkRequest) (scopedOut idsOut : IncludeList) :
    wantedGroups r scopedOut idsOut =
      (linkTests scopedOut idsOut).map fun test => select test r.multiItems := rfl

theorem mem_reserved_of_groupOf {key : UrlText}
    (h : groupOf key = .serverScoped ∨ groupOf key = .idsTypeParams) :
    key ∈ serverScopedParams ++ idsType := by
  unfold groupOf at h
  split at h
  · rename_i hids
    exact List.mem_append_right _ hids
  · split at h
    · rename_i hscoped
      exact List.mem_append_left _ hscoped
    · rcases h with h | h <;> cases h

/-- The two forms of an include list select the same of what `_filter_params` sorted. -/
theorem rawFilteredOutParams_eq (r : LinkRequest) {group : ParamGroup}
    (hgroup : group = .serverScoped ∨ group = .idsTypeParams) (included : IncludeList) :
    rawFilteredOutParams r group included =
      select (fun key => groupOf key = group ∧ key ∈ included.names) r.items := by
  unfold rawFilteredOutParams filterParams select
  rw [List.filter_filter]
  refine List.filter_congr fun e _ => ?_
  by_cases hg : groupOf e.1 = group
  · have hmem : e.1 ∈ serverScopedParams ++ idsType := by
      refine mem_reserved_of_groupOf ?_
      rw [hg]
      exact hgroup
    have hagree := included.agree e.1 hmem
    simp only [hg, decide_true, Bool.and_true, true_and]
    by_cases hc : included.contains e.1 = true
    · rw [hc, decide_eq_true (hagree.mp hc)]
    · rw [Bool.eq_false_iff.mpr hc, decide_eq_false (mt hagree.mpr hc)]
  · simp [hg]

theorem linkGroups_eq (r : LinkRequest) (scopedOut idsOut : IncludeList) :
    linkGroups r scopedOut idsOut =
      (linkTests scopedOut idsOut).map fun test => select test r.items := by
  unfold linkGroups
  rw [rawFilteredOutParams_eq r (.inl rfl), rawFilteredOutParams_eq r (.inr rfl)]
  rfl

theorem linkGroups_subperm (r : LinkRequest) (scopedOut idsOut : IncludeList) :
    (linkGroups r scopedOut idsOut).flatten.Subperm (wantedGroups r scopedOut idsOut).flatten := by
  rw [linkGroups_eq, wantedGroups_eq]
  induction linkTests scopedOut idsOut with
  | nil => exact List.Subperm.refl []
  | cons test tests ih => exact (select_subperm test r).append ih

theorem linkGroups_eq_nil (r : LinkRequest) (scopedOut idsOut : IncludeList)
    (h : (linkGroups r scopedOut idsOut).flatten = []) :
    (wantedGroups r scopedOut idsOut).flatten = [] := by
  rw [linkGroups_eq, List.flatten_eq_nil_iff] at h
  rw [wantedGroups_eq, List.flatten_eq_nil_iff]
  intro es hes
  obtain ⟨test, htest, rfl⟩ := List.mem_map.mp hes
  exact (select_eq_nil_iff test r).mp (h _ (List.mem_map_of_mem htest))

/-- As many groups have pairs after the repeated keys are gone. -/
theorem length_linkGroups (r : LinkRequest) (scopedOut idsOut : IncludeList) :
    ((linkGroups r scopedOut idsOut).filter (· ≠ [])).length =
      ((wantedGroups r scopedOut idsOut).filter (· ≠ [])).length := by
  rw [linkGroups_eq, wantedGroups_eq, List.filter_map, List.filter_map, List.length_map,
    List.length_map]
  refine congrArg List.length (List.filter_congr fun test _ => ?_)
  simp only [Function.comp_apply, select_eq_nil_iff, ne_eq]

theorem linkTests_pairwise (scopedOut idsOut : IncludeList) :
    (linkTests scopedOut idsOut).Pairwise fun p q => ∀ key, p key = true → q key = false := by
  have htwo : ∀ (key : UrlText) (g g' : ParamGroup), g ≠ g' → groupOf key = g → groupOf key ≠ g' :=
    fun key g g' hne h h' => hne (h.symm.trans h')
  unfold linkTests
  refine List.pairwise_cons.mpr ⟨?_, List.pairwise_cons.mpr ⟨?_, List.pairwise_singleton _ _⟩⟩
  · intro q hq key hkey
    have hlink := of_decide_eq_true hkey
    rcases List.mem_cons.mp hq with rfl | hq
    · exact decide_eq_false fun h => htwo key _ _ (by decide) hlink h.1
    · rw [List.mem_singleton] at hq
      rw [hq]
      exact decide_eq_false fun h => htwo key _ _ (by decide) hlink h.1
  · intro q hq key hkey
    have hscoped := of_decide_eq_true hkey
    rw [List.mem_singleton] at hq
    rw [hq]
    exact decide_eq_false fun h => htwo key _ _ (by decide) hscoped.1 h.1

/-- No key is pasted twice. -/
theorem linkGroups_nodup (r : LinkRequest) (scopedOut idsOut : IncludeList) :
    ((linkGroups r scopedOut idsOut).flatten.map Prod.fst).Nodup := by
  rw [linkGroups_eq, List.map_flatten, List.nodup_flatten, List.map_map]
  constructor
  · intro keys hkeys
    obtain ⟨test, -, rfl⟩ := List.mem_map.mp hkeys
    exact (List.filter_sublist.map Prod.fst).nodup (items_nodup r)
  · refine List.pairwise_map.mpr ((linkTests_pairwise scopedOut idsOut).imp ?_)
    intro p q hpq key hp hq
    obtain ⟨e, he, rfl⟩ := List.mem_map.mp hp
    obtain ⟨e', he', heq⟩ := List.mem_map.mp hq
    have hfalse := hpq e.1 (mem_select.mp he).2
    have htrue := (mem_select.mp he').2
    rw [heq, hfalse] at htrue
    cases htrue

/-- Nothing is lost with the repeated keys exactly if there are none. -/
theorem linkGroups_perm_iff (r : LinkRequest) (scopedOut idsOut : IncludeList) :
    (linkGroups r scopedOut idsOut).flatten.Perm (wantedGroups r scopedOut idsOut).flatten ↔
      ((wantedGroups r scopedOut idsOut).flatten.map Prod.fst).Nodup := by
  have hkept := linkGroups_nodup r scopedOut idsOut
  constructor
  · intro h
    exact (h.map Prod.fst).nodup_iff.mp hkept
  · intro h
    refine (List.perm_ext_iff_of_nodup (hkept.of_map _) (h.of_map _)).mpr fun e => ?_
    constructor
    · exact fun he => (linkGroups_subperm r scopedOut idsOut).subset he
    · intro he
      rw [wantedGroups_eq] at he h
      obtain ⟨es, hes, he'⟩ := List.mem_flatten.mp he
      obtain ⟨test, htest, rfl⟩ := List.mem_map.mp hes
      obtain ⟨hmem, hpass⟩ := mem_select.mp he'
      obtain ⟨v, hv⟩ := exists_mem_items hmem
      have hwanted : (e.1, v) ∈
          ((linkTests scopedOut idsOut).map fun test => select test r.multiItems).flatten :=
        List.mem_flatten.mpr ⟨_, List.mem_map_of_mem htest,
          mem_select.mpr ⟨items_subset r hv, hpass⟩⟩
      have hsame : e = (e.1, v) := List.inj_on_of_nodup_map h he hwanted rfl
      rw [linkGroups_eq, hsame]
      exact List.mem_flatten.mpr ⟨_, List.mem_map_of_mem htest, mem_select.mpr ⟨hv, hpass⟩⟩

/-- When the pasted parameters are read back as those asked for. -/
theorem paste_linkGroups_iff (r : LinkRequest) (scopedOut idsOut : IncludeList) :
    (parseQsl (beforeHash (paste (linkGroups r scopedOut idsOut)))).Perm
        (wantedGroups r scopedOut idsOut).flatten ↔
      ((wantedGroups r scopedOut idsOut).filter (· ≠ [])).length ≤ 1 ∧
        ((wantedGroups r scopedOut idsOut).flatten.map Prod.fst).Nodup ∧
        ∀ e ∈ (wantedGroups r scopedOut idsOut).flatten, CleanPair e := by
  rw [paste_iff (linkGroups_subperm r scopedOut idsOut) (linkGroups_eq_nil r scopedOut idsOut),
    length_linkGroups, linkGroups_perm_iff]

/-! ## The address -/

theorem joinSlash_eq (base path : UrlText) :
    joinSlash base path = slashed base ++ stripSlash path := by
  unfold joinSlash slashed stripSlash
  by_cases hbase : base.getLast? = some '/'
  · rw [if_pos hbase, if_pos hbase]
    obtain ⟨init, rfl⟩ := List.getLast?_eq_some_iff.mp hbase
    simp
  · rw [if_neg hbase, if_neg hbase, List.append_assoc]
    rfl

theorem plain_slashed_iff (url : UrlText) : PlainAddress (slashed url) ↔ PlainAddress url := by
  unfold slashed PlainAddress
  split
  · exact Iff.rfl
  · simp

theorem plain_stripSlash_iff (path : UrlText) :
    PlainAddress (stripSlash path) ↔ PlainAddress path := by
  unfold stripSlash PlainAddress
  split
  · rename_i h
    obtain ⟨rest, rfl⟩ := List.head?_eq_some_iff.mp h
    simp
  · exact Iff.rfl

theorem plain_append_iff (url path : UrlText) :
    PlainAddress (url ++ path) ↔ PlainAddress url ∧ PlainAddress path := by
  unfold PlainAddress
  simp only [List.mem_append, not_or]
  tauto

theorem stripSlash_eq_nil_iff (path : UrlText) :
    stripSlash path = [] ↔ path = [] ∨ path = ['/'] := by
  unfold stripSlash
  cases path with
  | nil => simp
  | cons c rest =>
    by_cases hc : c = '/'
    · simp [hc]
    · simp [hc]

/-- A slash that is joined leaves an address as it is only if the address has it. -/
theorem eq_joinSlash_iff (base path : UrlText) :
    base = joinSlash base path ↔ base.getLast? = some '/' ∧ (path = [] ∨ path = ['/']) := by
  rw [joinSlash_eq, ← stripSlash_eq_nil_iff]
  unfold slashed
  split
  · rename_i h
    constructor
    · intro heq
      refine ⟨h, ?_⟩
      have hlen := congrArg List.length heq
      rw [List.length_append] at hlen
      exact List.length_eq_zero_iff.mp (by omega)
    · rintro ⟨-, hpath⟩
      rw [hpath, List.append_nil]
  · rename_i h
    refine iff_of_false ?_ fun hand => h hand.1
    intro heq
    have hlen := congrArg List.length heq
    rw [List.length_append, List.length_append, List.length_singleton] at hlen
    omega

/-- The slash that is appended to a link. -/
def addedSlash (url : UrlText) : UrlText := if url.getLast? = some '/' then [] else ['/']

theorem slashed_eq (url : UrlText) : slashed url = url ++ addedSlash url := by
  unfold slashed addedSlash
  split
  · exact (List.append_nil url).symm
  · rfl

theorem createLink_eq (r : LinkRequest) (link path : Option UrlText)
    (scopedOut idsOut : IncludeList) :
    createLink r link path scopedOut idsOut =
      joinSlash (linkText r link) (path.getD []) ++
        '?' :: paste (linkGroups r scopedOut idsOut) := by
  unfold createLink
  rw [joinSlash_eq]

/-! ## When a link is right -/

section Right

variable (r : LinkRequest) (link path : UrlText) (scopedOut idsOut : IncludeList)

/-- A link without a query and a fragment. -/
theorem right_plain_iff (h : PlainAddress link) :
    VisitLinkRight r link path scopedOut idsOut
        (joinSlash link path ++ '?' :: paste (linkGroups r scopedOut idsOut)) ↔
      LinkGuard r link path scopedOut idsOut := by
  have hplain : PlainAddress (joinSlash link path) ↔ PlainAddress path := by
    rw [joinSlash_eq, plain_append_iff, plain_slashed_iff, plain_stripSlash_iff]
    exact and_iff_right h
  by_cases hpath : PlainAddress path
  · have haddress := baseOf_append (hplain.mpr hpath)
      ('?' :: paste (linkGroups r scopedOut idsOut))
    have hquery := queryOf_append (hplain.mpr hpath) (paste (linkGroups r scopedOut idsOut))
    have hperm := paste_linkGroups_iff r scopedOut idsOut
    constructor
    · rintro ⟨-, hparams⟩
      rw [hquery, queryOf_of_plain h, parseQsl_nil, List.nil_append] at hparams
      obtain ⟨hone, hrepeat, hclean⟩ := hperm.mp hparams
      exact ⟨h, hpath, hone, hrepeat, hclean⟩
    · rintro ⟨-, -, hone, hrepeat, hclean⟩
      constructor
      · rw [haddress, baseOf_of_plain h]
        exact List.append_nil _
      · rw [hquery, queryOf_of_plain h, parseQsl_nil, List.nil_append]
        exact hperm.mpr ⟨hone, hrepeat, hclean⟩
  · refine iff_of_false ?_ fun hguard => hpath hguard.plainPath
    intro hright
    obtain ⟨hbase, hlt⟩ := baseOf_append_of_not_plain (mt hplain.mp hpath)
      ('?' :: paste (linkGroups r scopedOut idsOut))
    have haddress := hright.address
    rw [hbase, baseOf_of_plain h] at haddress
    rw [haddress] at hlt
    exact Nat.lt_irrefl _ hlt

/-- What is appended to a link with a query and no fragment becomes a part of the query. -/
theorem not_params_query (hstrip : stripSlash path = []) (hquery : '?' ∈ link)
    (hhash : '#' ∉ link) :
    ¬ (parseQsl (queryOf (joinSlash link path ++ '?' :: paste (linkGroups r scopedOut idsOut)))).Perm
      (parseQsl (queryOf link) ++ (wantedGroups r scopedOut idsOut).flatten) := by
  intro hparams
  rw [joinSlash_eq, slashed_eq] at hparams
  simp only [List.append_assoc] at hparams
  obtain ⟨b, y, rfl, hb⟩ := List.eq_append_cons_of_mem hquery
  have hplain : PlainAddress b := ⟨hb, fun h => hhash (List.mem_append_left _ h)⟩
  have hy : '#' ∉ y := fun h => hhash (List.mem_append_right _ (List.mem_cons_of_mem _ h))
  have hadded : '#' ∉ addedSlash (b ++ '?' :: y) := by
    unfold addedSlash
    split <;> simp
  rw [hstrip, List.nil_append, List.append_assoc, List.cons_append, queryOf_append hplain,
    queryOf_append hplain, beforeHash_of_not_mem hy, beforeHash_append hy, beforeHash_append hadded]
    at hparams
  refine not_perm_extended (linkGroups_subperm r scopedOut idsOut)
    (linkGroups_eq_nil r scopedOut idsOut) y ?_ hparams
  unfold addedSlash
  split
  · rename_i hlast
    right
    refine ⟨rfl, ?_⟩
    rw [List.getLast?_append, List.getLast?_cons] at hlast
    cases hylast : y.getLast? with
    | none =>
      rw [hylast] at hlast
      simp at hlast
    | some c =>
      rw [hylast] at hlast
      simpa using hlast
  · exact .inl rfl

theorem not_right_query (hquery : '?' ∈ link) (hhash : '#' ∉ link) :
    ¬ VisitLinkRight r link path scopedOut idsOut
      (joinSlash link path ++ '?' :: paste (linkGroups r scopedOut idsOut)) := by
  intro hright
  have haddress := hright.address
  have hnot : ¬ PlainAddress link := fun h => h.1 hquery
  rw [joinSlash_eq, slashed_eq] at haddress
  simp only [List.append_assoc] at haddress
  rw [(baseOf_append_of_not_plain hnot _).1] at haddress
  have hstrip := (stripSlash_eq_nil_iff path).mpr ((eq_joinSlash_iff _ _).mp haddress).2
  exact not_params_query r link path scopedOut idsOut hstrip hquery hhash hright.params

/-- A link with a fragment: all that is appended becomes a part of it. -/
theorem right_fragment_iff (hhash : '#' ∈ link) :
    VisitLinkRight r link path scopedOut idsOut
        (joinSlash link path ++ '?' :: paste (linkGroups r scopedOut idsOut)) ↔
      FragmentGuard r link path scopedOut idsOut := by
  have hnot : ¬ PlainAddress link := fun h => h.2 hhash
  have hout : joinSlash link path ++ '?' :: paste (linkGroups r scopedOut idsOut) =
      link ++ (addedSlash link ++ (stripSlash path ++
        '?' :: paste (linkGroups r scopedOut idsOut))) := by
    rw [joinSlash_eq, slashed_eq]
    simp only [List.append_assoc]
  have hsame : ∀ rest, queryOf (link ++ rest) = queryOf link := by
    intro rest
    unfold queryOf
    rw [beforeHash_append_of_mem hhash]
  rw [hout]
  constructor
  · rintro ⟨haddress, hparams⟩
    rw [(baseOf_append_of_not_plain hnot _).1] at haddress
    obtain ⟨hlast, hpath⟩ := (eq_joinSlash_iff _ _).mp haddress
    rw [hsame] at hparams
    have hlen := hparams.length_eq
    rw [List.length_append] at hlen
    exact ⟨hhash, hlast, hpath, List.length_eq_zero_iff.mp (by omega)⟩
  · rintro ⟨-, hlast, hpath, hnone⟩
    constructor
    · rw [(baseOf_append_of_not_plain hnot _).1]
      exact (eq_joinSlash_iff _ _).mpr ⟨hlast, hpath⟩
    · rw [hsame, hnone, List.append_nil]

end Right

/-- A link is right exactly under one of the two guards. -/
theorem visitLinkRight_iff (r : LinkRequest) (link path : Option UrlText)
    (scopedOut idsOut : IncludeList) :
    VisitLinkRight r (linkText r link) (path.getD []) scopedOut idsOut
        (createLink r link path scopedOut idsOut) ↔
      LinkGuard r (linkText r link) (path.getD []) scopedOut idsOut ∨
        FragmentGuard r (linkText r link) (path.getD []) scopedOut idsOut := by
  rw [createLink_eq]
  by_cases hhash : '#' ∈ linkText r link
  · rw [right_fragment_iff r _ _ scopedOut idsOut hhash]
    exact (or_iff_right fun hguard : LinkGuard _ _ _ _ _ => hguard.plainLink.2 hhash).symm
  · have hno : ¬ FragmentGuard r (linkText r link) (path.getD []) scopedOut idsOut :=
      fun hguard => hhash hguard.fragment
    rw [or_iff_left hno]
    by_cases hquery : '?' ∈ linkText r link
    · exact iff_of_false (not_right_query r _ _ scopedOut idsOut hquery hhash)
        fun hguard => hguard.plainLink.1 hquery
    · exact right_plain_iff r _ _ scopedOut idsOut ⟨hquery, hhash⟩

/-- A visit with a parameter of its own and a session. -/
def sessionVisit : LinkRequest where
  netloc := "notifyr.example".toList
  query := "b=2&session_id=s1".toList

/-- The session of a visit becomes a part of its other parameter. -/
theorem session_merged :
    ¬ VisitLinkRight sessionVisit "https://shop.example/".toList "cart".toList .sessionId
      (.tuple []) (createLink sessionVisit (some "https://shop.example/".toList) (some "cart".toList)
        .sessionId (.tuple [])) := by
  intro h
  have hlen := h.params.length_eq
  revert hlen
  decide

end Notifyr
