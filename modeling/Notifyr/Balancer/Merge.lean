import Notifyr.Balancer.Json
import Notifyr.Theory.Reorder

/-!
# Merging partial responses

`MergeRequest` and `ReturnRequest` for a request that has been split
(`balancer/internal/services/proxyAgentService.go`). The responses are in a concurrent map, which
is ranged over in any order; a part whose request failed has no response there.

- `NotifyrResp`: a response of a part, with what `json.Unmarshal` makes of its body.
- `mergeRequest`: the answer, for the responses of the parts and the order of the range.
- `MergeSound`: what a merge owes for every order: success only if all parts succeeded, then with
  the entries of all parts, else the answer of a failing part; and the same answer in all orders.
- `MergeFits`: the responses for which it pays; `mergeSound_iff` is the exact statement.
-/

namespace Notifyr

open Theory

/-- The functions of the Go library that read or print floats. -/
structure GoLib where
  /-- `fmt.Sprintf("%v", x)`, of a value or of `nil`. -/
  sprint : Option Json → String
  /-- `strconv.ParseFloat`, for finite values. -/
  parseFloat : String → Option Rat

/-- The body of a response: its bytes, and what they decode to. -/
structure RespBody where
  bytes : String
  document : Except String GoMap

/-- A response; `header` answers the empty text for a header that is not set. -/
structure NotifyrResp where
  header : String → String
  statusCode : Nat
  body : RespBody

/-- `X_REQUEST_ID_KEY`. -/
def xRequestIdKey : String := "x_request_id"

/-- The keys of `headerValues`. -/
def headerKeys : List String :=
  ["X-Process-Time", "X-Instance-Id", "X-Process-PID", "X-Parent-Process-PID", "X-Request-Id"]

/-- `RATE_LIMIT_HEADERS`. -/
def rateLimitHeaderNames : List String :=
  ["X-Ratelimit-Limit", "X-Ratelimit-Remaining", "X-Ratelimit-Reset", "Retry-After"]

/-- The variables of `MergeRequest`. -/
structure MergeState where
  mergedResults : List Json := []
  mergedErrors : GoMap := []
  mergedMeta : GoMap := []
  status : Nat := 0
  requestIDs : List String := []
  err : Option String := none
  isMetaSet : Bool := false
  isResp400Error : Bool := false
  headerValues : List (String × List String) := headerKeys.map fun key => (key, [])
  rateLimitHeaders : List (String × String) := []
  leastRecentResetTimestamp : Rat := -1

/-! ## The callback of the range -/

/-- Merge meta. -/
def mergeMeta (lib : GoLib) (payload : GoMap) (s : MergeState) : MergeState :=
  match payload.get? "meta" with
  | some (.obj metadata) =>
    let reqID := lib.sprint (GoMap.get? metadata xRequestIdKey)
    let s := { s with requestIDs := s.requestIDs ++ [reqID] }
    if !s.isMetaSet then
      { s with mergedMeta := GoMap.copyOneLevelMap metadata [xRequestIdKey], isMetaSet := true }
    else s
  | _ => s

/-- Merge results. -/
def mergeResults (payload : GoMap) (s : MergeState) : MergeState :=
  match payload.get? "results" with
  | some (.arr results) => { s with mergedResults := s.mergedResults ++ results }
  | _ => s

/-- Merge errors; the entries of a map come in no particular order. -/
def mergeErrors (payload : GoMap) (s : MergeState) : MergeState :=
  match payload.get? "errors" with
  | some (.obj errors) =>
    { s with
      mergedErrors := errors.foldr (fun e merged => GoMap.put merged e.1 e.2) s.mergedErrors }
  | _ => s

/-- Merge headers. -/
def mergeHeaders (p : NotifyrResp) (s : MergeState) : MergeState :=
  { s with headerValues := s.headerValues.map fun (key, values) =>
      (key, if p.header key ≠ "" then values ++ [p.header key] else values) }

/-- Preserve the rate limit headers of the least recent response. -/
def mergeRateLimit (lib : GoLib) (p : NotifyrResp) (s : MergeState) : MergeState :=
  let resetHeader := p.header "X-Ratelimit-reset"
  if resetHeader ≠ "" then
    match lib.parseFloat resetHeader with
    | some resetTimestamp =>
      if s.leastRecentResetTimestamp = -1 ∨ resetTimestamp < s.leastRecentResetTimestamp then
        { s with
          leastRecentResetTimestamp := resetTimestamp
          rateLimitHeaders := rateLimitHeaderNames.foldl (fun headers rlHeader =>
            if p.header rlHeader ≠ "" then
              (rlHeader, p.header rlHeader) :: headers.filter fun e => e.1 ≠ rlHeader
            else headers) s.rateLimitHeaders }
      else s
    | none => s
  else s

/-- The status is one of those of a success. -/
def NotifyrResp.succeeded (p : NotifyrResp) : Prop := p.statusCode = 200 ∨ p.statusCode = 201

instance (p : NotifyrResp) : Decidable p.succeeded := inferInstanceAs (Decidable (_ ∨ _))

/-- What is taken from a successful response. -/
def collect (lib : GoLib) (p : NotifyrResp) (payload : GoMap) (s : MergeState) : MergeState :=
  mergeRateLimit lib p (mergeHeaders p (mergeErrors payload (mergeResults payload
    (mergeMeta lib payload { s with status := p.statusCode }))))

/-- The range over the responses; a callback that returns `false` ends it. -/
def mergeRange (lib : GoLib) : MergeState → List NotifyrResp → MergeState
  | s, [] => s
  | s, p :: range =>
    -- `return false`: what was collected so far stays in the variables
    if ¬ p.succeeded then
      { s with isResp400Error := decide (p.statusCode ≥ 400 ∧ p.statusCode < 500) }
    else
      match p.body.document with
      | .error err => { s with status := p.statusCode, err := some err }
      | .ok payload => mergeRange lib (collect lib p payload s) range

/-! ## The answer -/

/-- `MergedBody`. -/
structure MergedBody where
  errors : GoMap
  results : List Json
  metadata : GoMap

/-- An answer to the client: the response of a part, an error of the balancer with status 500,
or a merged body. -/
inductive Outcome
  | part (p : NotifyrResp)
  | error (text : String)
  | merged (status : Nat) (headerValues : List (String × List String))
      (rateLimitHeaders : List (String × String)) (body : MergedBody)

/-- `ReturnRequest`. -/
def returnRequest (syncResp : List (Option NotifyrResp)) : Outcome :=
  -- the response of part 0, whichever part ended the range
  match syncResp.head? with
  | some (some resp) => .part resp
  | _ => .error "Error while getting the response from the sync map"

/-- `MergeRequest`: `syncResp` has the response of each part, and `range` is the order in which
they are ranged over. The merged body consists of decoded values, so it can be encoded. -/
def mergeRequest (lib : GoLib) (syncResp : List (Option NotifyrResp)) (range : List NotifyrResp) :
    Outcome :=
  let s := mergeRange lib {} range
  if s.isResp400Error then returnRequest syncResp
  else
    match s.err with
    | some err => .error err
    | none =>
      .merged s.status s.headerValues s.rateLimitHeaders
        { errors := s.mergedErrors
          results := s.mergedResults
          metadata := s.mergedMeta.put xRequestIdKey (.arr (s.requestIDs.map .str)) }

/-! ## What a merge owes -/

namespace NotifyrResp

/-- The decoded body decodes. -/
def Decodes (p : NotifyrResp) : Prop := ∃ payload, p.body.document = .ok payload

/-- The decoded body. -/
def payload (p : NotifyrResp) : GoMap :=
  match p.body.document with
  | .ok payload => payload
  | .error _ => []

/-- The results of a part. -/
def results (p : NotifyrResp) : List Json :=
  match p.payload.get? "results" with
  | some (.arr results) => results
  | _ => []

/-- The errors of a part. -/
def errors (p : NotifyrResp) : GoMap :=
  match p.payload.get? "errors" with
  | some (.obj errors) => errors
  | _ => []

/-- The meta data of a part. -/
def metadata (p : NotifyrResp) : Option GoMap :=
  match p.payload.get? "meta" with
  | some (.obj metadata) => some metadata
  | _ => none

/-- The request id of a part with meta data. -/
def requestIDs (lib : GoLib) (p : NotifyrResp) : List String :=
  match p.metadata with
  | some metadata => [lib.sprint (metadata.get? xRequestIdKey)]
  | none => []

/-- The values of a header. -/
def headerValue (p : NotifyrResp) (key : String) : List String :=
  if p.header key ≠ "" then [p.header key] else []

end NotifyrResp

/-- A merged body and its headers have the entries of the parts: in a list each entry once, in a
map what any part has under a key. -/
structure Collected (lib : GoLib) (parts : List NotifyrResp)
    (headerValues : List (String × List String)) (body : MergedBody) : Prop where
  results : body.results.Perm (parts.flatMap NotifyrResp.results)
  errors : ∀ k v, body.errors.get? k = some v ↔ ∃ p ∈ parts, p.errors.get? k = some v
  requestIDs : ∃ ids : List String,
    body.metadata.get? xRequestIdKey = some (.arr (ids.map .str)) ∧
    ids.Perm (parts.flatMap (NotifyrResp.requestIDs lib))
  metadata : ∀ k v, k ≠ xRequestIdKey → (body.metadata.get? k = some v ↔
    ∃ p ∈ parts, ∃ m, p.metadata = some m ∧ m.get? k = some v)
  headers : ∀ key ∈ headerKeys, ∃ values, (key, values) ∈ headerValues ∧
    values.Perm (parts.flatMap (NotifyrResp.headerValue · key))

namespace Outcome

/-- The answer reports success. A merged body has the status of a successful part, or none is
set, which is sent as 200. -/
def Success : Outcome → Prop
  | part p => p.succeeded
  | error _ => False
  | merged _ _ _ _ => True

/-- Two answers with the same status and body; the objects of a body have no order. -/
def Same : Outcome → Outcome → Prop
  | part p, part q => p = q
  | error e, error f => e = f
  | merged s _ _ b, merged t _ _ c =>
    s = t ∧ b.results = c.results ∧ (∀ k, b.errors.get? k = c.errors.get? k) ∧
      ∀ k, b.metadata.get? k = c.metadata.get? k
  | _, _ => False

end Outcome

/-- All parts have a response, and a successful one. -/
def AllSucceeded (syncResp : List (Option NotifyrResp)) : Prop :=
  ∀ r ∈ syncResp, ∃ p, r = some p ∧ p.succeeded

/-- The responses there are. -/
def present (syncResp : List (Option NotifyrResp)) : List NotifyrResp := syncResp.filterMap id

/-- What a merge owes, in whatever order the responses are ranged over. -/
structure MergeSound (lib : GoLib) (syncResp : List (Option NotifyrResp)) : Prop where
  success : ∀ range, range.Perm (present syncResp) →
    (mergeRequest lib syncResp range).Success → AllSucceeded syncResp
  collected : ∀ range, range.Perm (present syncResp) → ∀ status headerValues rateLimit body,
    mergeRequest lib syncResp range = .merged status headerValues rateLimit body →
    Collected lib (present syncResp) headerValues body
  failure : ∀ range, range.Perm (present syncResp) → ∀ p ∈ present syncResp, ¬ p.succeeded →
    ∃ q ∈ present syncResp, ¬ q.succeeded ∧ mergeRequest lib syncResp range = .part q
  order : ∀ range range', range.Perm (present syncResp) → range'.Perm (present syncResp) →
    (mergeRequest lib syncResp range).Same (mergeRequest lib syncResp range')

/-! ## What a successful response adds -/

theorem get?_foldr_put (es : GoMap) (m : GoMap) (k : String) :
    (es.foldr (fun e merged => GoMap.put merged e.1 e.2) m).get? k =
      (es.get? k).or (m.get? k) := by
  induction es with
  | nil => rfl
  | cons e es ih =>
    rw [List.foldr_cons]
    by_cases hk : k = e.1
    · subst hk
      have hself : GoMap.get? (e :: es) e.1 = some e.2 := List.lookup_cons_self
      rw [GoMap.get?_put_self, hself]
      rfl
    · have hb : (k == e.1) = false := beq_eq_false_iff_ne.mpr hk
      have hother : GoMap.get? (e :: es) k = GoMap.get? es k := by
        show List.lookup k (e :: es) = List.lookup k es
        rw [List.lookup_cons, hb]
      rw [GoMap.get?_put_ne _ hk, ih, hother]

/-- What `collect` does to the variables. -/
structure Collects (lib : GoLib) (p : NotifyrResp) (s s' : MergeState) : Prop where
  results : s'.mergedResults = s.mergedResults ++ p.results
  errors : ∀ k, s'.mergedErrors.get? k = (p.errors.get? k).or (s.mergedErrors.get? k)
  requestIDs : s'.requestIDs = s.requestIDs ++ p.requestIDs lib
  isMetaSet : s'.isMetaSet = (s.isMetaSet || p.metadata.isSome)
  metadata : s'.mergedMeta = if s.isMetaSet then s.mergedMeta else
    (p.metadata.map fun m => m.copyOneLevelMap [xRequestIdKey]).getD s.mergedMeta
  headers : s'.headerValues =
    s.headerValues.map fun (key, values) => (key, values ++ p.headerValue key)
  status : s'.status = p.statusCode
  err : s'.err = s.err
  isResp400Error : s'.isResp400Error = s.isResp400Error

/-- The rate limit headers are apart from the rest. -/
theorem mergeRateLimit_eq (lib : GoLib) (p : NotifyrResp) (s : MergeState) :
    mergeRateLimit lib p s = { s with
      rateLimitHeaders := (mergeRateLimit lib p s).rateLimitHeaders
      leastRecentResetTimestamp := (mergeRateLimit lib p s).leastRecentResetTimestamp } := by
  unfold mergeRateLimit
  dsimp only
  split
  · split
    · split <;> rfl
    · rfl
  · rfl

theorem mergeResults_eq (p : NotifyrResp) (s : MergeState) :
    mergeResults p.payload s = { s with mergedResults := s.mergedResults ++ p.results } := by
  unfold mergeResults NotifyrResp.results
  split
  · rfl
  · rw [List.append_nil]

theorem mergeErrors_eq (p : NotifyrResp) (s : MergeState) :
    mergeErrors p.payload s = { s with
      mergedErrors := p.errors.foldr (fun e merged => GoMap.put merged e.1 e.2)
        s.mergedErrors } := by
  unfold mergeErrors NotifyrResp.errors
  split <;> rfl

theorem mergeMeta_eq (lib : GoLib) (p : NotifyrResp) (s : MergeState) :
    mergeMeta lib p.payload s = { s with
      requestIDs := s.requestIDs ++ p.requestIDs lib
      isMetaSet := s.isMetaSet || p.metadata.isSome
      mergedMeta := if s.isMetaSet then s.mergedMeta else
        (p.metadata.map fun m => m.copyOneLevelMap [xRequestIdKey]).getD s.mergedMeta } := by
  obtain ⟨_, _, _, _, _, _, isMetaSet, _, _, _, _⟩ := s
  unfold mergeMeta NotifyrResp.requestIDs NotifyrResp.metadata
  split
  · cases isMetaSet <;> rfl
  · cases isMetaSet <;> simp

theorem mergeHeaders_eq (p : NotifyrResp) (s : MergeState) :
    mergeHeaders p s = { s with
      headerValues := s.headerValues.map fun (key, values) =>
        (key, values ++ p.headerValue key) } := by
  unfold mergeHeaders NotifyrResp.headerValue
  congr 2
  funext ⟨key, values⟩
  by_cases h : p.header key ≠ ""
  · simp only [if_pos h]
  · simp only [if_neg h, List.append_nil]

/-- A successful response adds to the variables what it has. -/
theorem collects (lib : GoLib) (p : NotifyrResp) (s : MergeState) :
    Collects lib p s (collect lib p p.payload s) := by
  unfold collect
  rw [mergeRateLimit_eq, mergeHeaders_eq, mergeErrors_eq, mergeResults_eq, mergeMeta_eq]
  exact ⟨rfl, fun k => get?_foldr_put _ _ k, rfl, rfl, rfl, rfl, rfl, rfl, rfl⟩

/-- A response that the range goes past. -/
def NotifyrResp.Good (p : NotifyrResp) : Prop := p.succeeded ∧ p.Decodes

/-- What the successful responses `ps` do to the variables. -/
structure Gathers (lib : GoLib) (ps : List NotifyrResp) (s s' : MergeState) : Prop where
  results : s'.mergedResults = s.mergedResults ++ ps.flatMap NotifyrResp.results
  errors : ∀ k, s'.mergedErrors.get? k =
    (ps.reverse.findSome? fun p => p.errors.get? k).or (s.mergedErrors.get? k)
  requestIDs : s'.requestIDs = s.requestIDs ++ ps.flatMap (NotifyrResp.requestIDs lib)
  metadata : s'.mergedMeta = if s.isMetaSet then s.mergedMeta else
    ((ps.findSome? NotifyrResp.metadata).map fun m => m.copyOneLevelMap [xRequestIdKey]).getD
      s.mergedMeta
  headers : s'.headerValues = s.headerValues.map fun (key, values) =>
    (key, values ++ ps.flatMap (NotifyrResp.headerValue · key))
  status : s'.status = (ps.reverse.findSome? fun p => some p.statusCode).getD s.status
  err : s'.err = s.err
  isResp400Error : s'.isResp400Error = s.isResp400Error

theorem gathers_nil (lib : GoLib) (s : MergeState) : Gathers lib [] s s where
  results := (List.append_nil _).symm
  errors _ := rfl
  requestIDs := (List.append_nil _).symm
  metadata := by cases s.isMetaSet <;> rfl
  headers := by simp
  status := rfl
  err := rfl
  isResp400Error := rfl

theorem gathers_cons {lib : GoLib} {p : NotifyrResp} {ps : List NotifyrResp}
    {s s' s'' : MergeState} (h : Collects lib p s s') (hs : Gathers lib ps s' s'') :
    Gathers lib (p :: ps) s s'' where
  results := by rw [hs.results, h.results, List.flatMap_cons, List.append_assoc]
  errors k := by
    rw [hs.errors, h.errors, List.reverse_cons, List.findSome?_append, Option.or_assoc]
    rw [List.findSome?_singleton]
  requestIDs := by rw [hs.requestIDs, h.requestIDs, List.flatMap_cons, List.append_assoc]
  metadata := by
    rw [hs.metadata, h.metadata, h.isMetaSet, List.findSome?_cons]
    cases hset : s.isMetaSet with
    | true => simp
    | false =>
      cases hmeta : p.metadata with
      | none => simp
      | some m => simp
  headers := by
    rw [hs.headers, h.headers, List.map_map]
    refine List.map_congr_left fun ⟨key, values⟩ _ => ?_
    simp
  status := by
    rw [hs.status, h.status, List.reverse_cons, List.findSome?_append]
    cases ps.reverse.findSome? (fun p => some p.statusCode) <;> rfl
  err := hs.err.trans h.err
  isResp400Error := hs.isResp400Error.trans h.isResp400Error

/-- The range goes past good responses, and has then gathered what they have. -/
theorem mergeRange_append (lib : GoLib) {good : List NotifyrResp} (hgood : ∀ p ∈ good, p.Good)
    (s : MergeState) (rest : List NotifyrResp) :
    ∃ s', Gathers lib good s s' ∧ mergeRange lib s (good ++ rest) = mergeRange lib s' rest := by
  induction good generalizing s with
  | nil => exact ⟨s, gathers_nil lib s, rfl⟩
  | cons p good ih =>
    obtain ⟨hok, payload, hpayload⟩ := hgood p List.mem_cons_self
    have hcollect := collects lib p s
    have heq : p.payload = payload := by
      unfold NotifyrResp.payload
      rw [hpayload]
    rw [heq] at hcollect
    obtain ⟨s', hs', hrun⟩ := ih (fun q hq => hgood q (List.mem_cons_of_mem _ hq))
      (collect lib p payload s)
    refine ⟨s', gathers_cons hcollect hs', ?_⟩
    rw [List.cons_append, mergeRange, if_neg (not_not.mpr hok), hpayload]
    exact hrun

/-! ## The answer by cases -/

/-- Responses that are not all good have a first one that is not. -/
theorem exists_first_bad {range : List NotifyrResp} (h : ¬ ∀ p ∈ range, p.Good) :
    ∃ good bad rest, range = good ++ bad :: rest ∧ (∀ p ∈ good, p.Good) ∧ ¬ bad.Good := by
  induction range with
  | nil => exact absurd nofun h
  | cons p range ih =>
    by_cases hp : p.Good
    · have hrest : ¬ ∀ q ∈ range, q.Good := fun hall => h fun q hq =>
        (List.mem_cons.mp hq).elim (fun heq => heq ▸ hp) (hall q)
      obtain ⟨good, bad, rest, rfl, hgood, hbad⟩ := ih hrest
      refine ⟨p :: good, bad, rest, rfl, fun q hq => ?_, hbad⟩
      exact (List.mem_cons.mp hq).elim (fun heq => heq ▸ hp) (hgood q)
    · exact ⟨[], p, range, rfl, nofun, hp⟩

/-- The answer for good responses. -/
theorem mergeRequest_good (lib : GoLib) (syncResp : List (Option NotifyrResp))
    {range : List NotifyrResp} (hgood : ∀ p ∈ range, p.Good) :
    ∃ s, Gathers lib range {} s ∧ mergeRequest lib syncResp range =
      .merged s.status s.headerValues s.rateLimitHeaders
        { errors := s.mergedErrors
          results := s.mergedResults
          metadata := s.mergedMeta.put xRequestIdKey (.arr (s.requestIDs.map .str)) } := by
  obtain ⟨s, hs, hrun⟩ := mergeRange_append lib hgood {} []
  rw [List.append_nil] at hrun
  refine ⟨s, hs, ?_⟩
  unfold mergeRequest
  rw [hrun]
  have h400 : s.isResp400Error = false := hs.isResp400Error
  have herr : s.err = none := hs.err
  simp only [mergeRange, h400, herr]
  rfl

/-- The answer when the first response that is not good is one that failed. -/
theorem mergeRequest_failed (lib : GoLib) (syncResp : List (Option NotifyrResp))
    {good : List NotifyrResp} (rest : List NotifyrResp) {bad : NotifyrResp}
    (hgood : ∀ p ∈ good, p.Good) (hbad : ¬ bad.succeeded) :
    (400 ≤ bad.statusCode ∧ bad.statusCode < 500 ∧
      mergeRequest lib syncResp (good ++ bad :: rest) = returnRequest syncResp) ∨
    (¬ (400 ≤ bad.statusCode ∧ bad.statusCode < 500) ∧ ∃ status values limits body,
      mergeRequest lib syncResp (good ++ bad :: rest) = .merged status values limits body) := by
  obtain ⟨s, hs, hrun⟩ := mergeRange_append lib hgood {} (bad :: rest)
  rw [mergeRange, if_pos hbad] at hrun
  have herr : s.err = none := hs.err
  unfold mergeRequest
  rw [hrun]
  by_cases h400 : 400 ≤ bad.statusCode ∧ bad.statusCode < 500
  · refine .inl ⟨h400.1, h400.2, ?_⟩
    simp [h400]
  · refine .inr ⟨h400, ?_⟩
    have hge : ¬ (bad.statusCode ≥ 400 ∧ bad.statusCode < 500) := h400
    simp only [hge, decide_false, herr]
    exact ⟨_, _, _, _, rfl⟩

/-- The answer when the first response that is not good does not decode. -/
theorem mergeRequest_undecoded (lib : GoLib) (syncResp : List (Option NotifyrResp))
    {good : List NotifyrResp} (rest : List NotifyrResp) {bad : NotifyrResp}
    (hgood : ∀ p ∈ good, p.Good)
    (hok : bad.succeeded) {err : String} (hbad : bad.body.document = .error err) :
    mergeRequest lib syncResp (good ++ bad :: rest) = .error err := by
  obtain ⟨s, hs, hrun⟩ := mergeRange_append lib hgood {} (bad :: rest)
  rw [mergeRange, if_neg (not_not.mpr hok), hbad] at hrun
  have h400 : s.isResp400Error = false := hs.isResp400Error
  unfold mergeRequest
  rw [hrun]
  simp [h400]

/-! ## When a merge is sound -/

/-- What a part with meta data has under a key. -/
def NotifyrResp.metaAt (k : String) (p : NotifyrResp) : Option (Option Json) :=
  p.metadata.map (GoMap.get? · k)

/-- Successful parts that can be merged in any order: one status, lists that commute, and no two
values under one key. -/
structure PartsAgree (lib : GoLib) (parts : List NotifyrResp) : Prop where
  status : Agree (fun p => some p.statusCode) parts
  results : ∀ p ∈ parts, ∀ q ∈ parts, p.results ++ q.results = q.results ++ p.results
  requestIDs : ∀ p ∈ parts, ∀ q ∈ parts,
    p.requestIDs lib ++ q.requestIDs lib = q.requestIDs lib ++ p.requestIDs lib
  metadata : ∀ k, k ≠ xRequestIdKey → Agree (NotifyrResp.metaAt k) parts
  errors : ∀ k, Agree (fun p => p.errors.get? k) parts

/-- When a merge pays what it owes.
- The response of the first part is there and a failure, all failures have a 4xx status, and the
  successful responses decode; or
- all parts succeeded, all responses decode, and they agree; or
- no response is a failure, one does not decode, and all that do not decode have one error. -/
def MergeFits (lib : GoLib) (syncResp : List (Option NotifyrResp)) : Prop :=
  (∃ p, syncResp.head? = some (some p) ∧ ¬ p.succeeded ∧ ∀ q ∈ present syncResp,
      (¬ q.succeeded → 400 ≤ q.statusCode ∧ q.statusCode < 500) ∧ (q.succeeded → q.Decodes)) ∨
    (AllSucceeded syncResp ∧ (∀ p ∈ present syncResp, p.Decodes) ∧
      PartsAgree lib (present syncResp)) ∨
    ((∀ p ∈ present syncResp, p.succeeded) ∧ (∃ p ∈ present syncResp, ¬ p.Decodes) ∧
      ∀ p ∈ present syncResp, ∀ q ∈ present syncResp, ∀ e f,
        p.body.document = .error e → q.body.document = .error f → e = f)

section Gathers

variable {lib : GoLib} {parts range : List NotifyrResp} {s : MergeState}

/-- The body and the metadata of a merge, apart from the request ids. -/
theorem Gathers.metadata_get? (h : Gathers lib range {} s) {k : String} (hk : k ≠ xRequestIdKey)
    (ids : Json) : (s.mergedMeta.put xRequestIdKey ids).get? k =
      (range.findSome? (NotifyrResp.metaAt k)).getD none := by
  have hmap : range.findSome? (NotifyrResp.metaAt k) =
      (range.findSome? NotifyrResp.metadata).map (GoMap.get? · k) := by
    unfold NotifyrResp.metaAt
    rw [List.map_findSome?]
    rfl
  rw [GoMap.get?_put_ne _ hk, h.metadata, hmap]
  cases range.findSome? NotifyrResp.metadata with
  | none => rfl
  | some m =>
    show (m.copyOneLevelMap [xRequestIdKey]).get? k = m.get? k
    rw [GoMap.get?_copyOneLevelMap, if_neg (by simpa using hk)]

theorem Gathers.errors_get? (h : Gathers lib range {} s) (k : String) :
    s.mergedErrors.get? k = range.reverse.findSome? fun p => p.errors.get? k := by
  rw [h.errors]
  cases range.reverse.findSome? fun p => p.errors.get? k <;> rfl

/-- Parts that agree are collected. -/
theorem Gathers.collected (h : Gathers lib range {} s) (hrange : range.Perm parts)
    (hagree : PartsAgree lib parts) :
    Collected lib parts s.headerValues
      { errors := s.mergedErrors
        results := s.mergedResults
        metadata := s.mergedMeta.put xRequestIdKey (.arr (s.requestIDs.map .str)) } where
  results := by
    rw [h.results]
    exact hrange.flatMap_right _
  errors k v := by
    show s.mergedErrors.get? k = some v ↔ _
    have hrev : range.reverse.Perm parts := (List.reverse_perm range).trans hrange
    rw [h.errors_get?, (hagree.errors k).findSome?_perm hrev,
      (hagree.errors k).findSome?_eq_some_iff]
  requestIDs := by
    refine ⟨s.requestIDs, GoMap.get?_put_self _ _ _, ?_⟩
    rw [h.requestIDs]
    exact hrange.flatMap_right _
  metadata k v hk := by
    show (s.mergedMeta.put xRequestIdKey _).get? k = some v ↔ _
    rw [h.metadata_get? hk, (hagree.metadata k hk).findSome?_perm hrange]
    have hgetD : ∀ o : Option (Option Json), o.getD none = some v ↔ o = some (some v) := by
      intro o
      cases o <;> simp
    rw [hgetD, (hagree.metadata k hk).findSome?_eq_some_iff]
    simp [NotifyrResp.metaAt]
  headers key hkey := by
    refine ⟨range.flatMap (NotifyrResp.headerValue · key), ?_, hrange.flatMap_right _⟩
    rw [h.headers]
    exact List.mem_map.mpr ⟨(key, []), List.mem_map.mpr ⟨key, hkey, rfl⟩, rfl⟩

end Gathers

/-- The answers for two orders of good responses are the same exactly if what is gathered is. -/
theorem same_good_iff (lib : GoLib) (syncResp : List (Option NotifyrResp))
    {range range' : List NotifyrResp} (hgood : ∀ p ∈ range, p.Good)
    (hgood' : ∀ p ∈ range', p.Good) :
    (mergeRequest lib syncResp range').Same (mergeRequest lib syncResp range) ↔
      ((range'.reverse.findSome? fun p => some p.statusCode).getD 0 =
          (range.reverse.findSome? fun p => some p.statusCode).getD 0 ∧
        range'.flatMap NotifyrResp.results = range.flatMap NotifyrResp.results ∧
        range'.flatMap (NotifyrResp.requestIDs lib) = range.flatMap (NotifyrResp.requestIDs lib) ∧
        (∀ k, k ≠ xRequestIdKey → (range'.findSome? (NotifyrResp.metaAt k)).getD none =
          (range.findSome? (NotifyrResp.metaAt k)).getD none) ∧
        ∀ k, (range'.reverse.findSome? fun p => p.errors.get? k) =
          range.reverse.findSome? fun p => p.errors.get? k) := by
  obtain ⟨s, hs, hrun⟩ := mergeRequest_good lib syncResp hgood
  obtain ⟨s', hs', hrun'⟩ := mergeRequest_good lib syncResp hgood'
  rw [hrun, hrun']
  show (_ ∧ _ ∧ _ ∧ _) ↔ _
  have hids : s.requestIDs = range.flatMap (NotifyrResp.requestIDs lib) := hs.requestIDs
  have hids' : s'.requestIDs = range'.flatMap (NotifyrResp.requestIDs lib) := hs'.requestIDs
  have hresults : s.mergedResults = range.flatMap NotifyrResp.results := hs.results
  have hresults' : s'.mergedResults = range'.flatMap NotifyrResp.results := hs'.results
  simp only [hs.status, hs'.status, hresults, hresults', hs.errors_get?, hs'.errors_get?]
  constructor
  · rintro ⟨hstatus, hres, herrors, hmeta⟩
    refine ⟨hstatus, hres, ?_, fun k hk => ?_, herrors⟩
    · have hid := hmeta xRequestIdKey
      rw [GoMap.get?_put_self, GoMap.get?_put_self, hids, hids'] at hid
      have harr := Json.arr.inj (Option.some.inj hid)
      exact List.map_injective_iff.mpr (fun a b h => Json.str.inj h) harr
    · have hk' := hmeta k
      rwa [hs.metadata_get? hk, hs'.metadata_get? hk] at hk'
  · rintro ⟨hstatus, hres, hid, hmeta, herrors⟩
    refine ⟨hstatus, hres, herrors, fun k => ?_⟩
    by_cases hk : k = xRequestIdKey
    · subst hk
      rw [GoMap.get?_put_self, GoMap.get?_put_self, hids, hids', hid]
    · rw [hs.metadata_get? hk, hs'.metadata_get? hk]
      exact hmeta k hk

/-- **Good responses are answered the same in every order exactly if they agree.** -/
theorem same_iff_partsAgree (lib : GoLib) (syncResp : List (Option NotifyrResp))
    {parts : List NotifyrResp} (hgood : ∀ p ∈ parts, p.Good) :
    (∀ range, range.Perm parts →
      (mergeRequest lib syncResp range).Same (mergeRequest lib syncResp parts)) ↔
      PartsAgree lib parts := by
  have hiff : ∀ range : List NotifyrResp, range.Perm parts → _ := fun range hrange =>
    same_good_iff lib syncResp hgood fun p hp => hgood p (hrange.mem_iff.mp hp)
  constructor
  · intro h
    have h' := fun range (hrange : range.Perm parts) => (hiff range hrange).mp (h range hrange)
    exact
      { status := (findSome?_reverse_getD_perm_iff _ 0 parts).mp fun l hl => (h' l hl).1
        results := (flatMap_perm_iff _ parts).mp fun l hl => (h' l hl).2.1
        requestIDs := (flatMap_perm_iff _ parts).mp fun l hl => (h' l hl).2.2.1
        metadata := fun k hk =>
          (findSome?_getD_perm_iff _ none parts).mp fun l hl => (h' l hl).2.2.2.1 k hk
        errors := fun k =>
          (findSome?_reverse_perm_iff _ parts).mp fun l hl => (h' l hl).2.2.2.2 k }
  · intro h range hrange
    refine (hiff range hrange).mpr ⟨?_, ?_, ?_, fun k hk => ?_, fun k => ?_⟩
    · exact (findSome?_reverse_getD_perm_iff _ 0 parts).mpr h.status range hrange
    · exact (flatMap_perm_iff _ parts).mpr h.results range hrange
    · exact (flatMap_perm_iff _ parts).mpr h.requestIDs range hrange
    · exact (findSome?_getD_perm_iff _ none parts).mpr (h.metadata k hk) range hrange
    · exact (findSome?_reverse_perm_iff _ parts).mpr (h.errors k) range hrange

theorem PartsAgree.of_mem {lib : GoLib} {parts range : List NotifyrResp}
    (h : PartsAgree lib parts) (hsub : ∀ p ∈ range, p ∈ parts) : PartsAgree lib range where
  status := h.status.of_mem hsub
  results p hp q hq := h.results p (hsub p hp) q (hsub q hq)
  requestIDs p hp q hq := h.requestIDs p (hsub p hp) q (hsub q hq)
  metadata k hk := (h.metadata k hk).of_mem hsub
  errors k := (h.errors k).of_mem hsub

theorem not_decodes_iff (p : NotifyrResp) : ¬ p.Decodes ↔ ∃ err, p.body.document = .error err := by
  unfold NotifyrResp.Decodes
  cases p.body.document with
  | ok payload => simp
  | error err => simp

section Sound

variable {lib : GoLib} {syncResp : List (Option NotifyrResp)}

/-- A first part that failed answers for all, if nothing else stops the range. -/
theorem mergeSound_of_first_failed {p : NotifyrResp} (hhead : syncResp.head? = some (some p))
    (hp : ¬ p.succeeded) (hall : ∀ q ∈ present syncResp,
      (¬ q.succeeded → 400 ≤ q.statusCode ∧ q.statusCode < 500) ∧ (q.succeeded → q.Decodes)) :
    MergeSound lib syncResp := by
  have hmem : p ∈ present syncResp :=
    List.mem_filterMap.mpr ⟨some p, List.mem_of_head? hhead, rfl⟩
  have hret : returnRequest syncResp = .part p := by
    unfold returnRequest
    rw [hhead]
  have hrun : ∀ range, range.Perm (present syncResp) →
      mergeRequest lib syncResp range = .part p := by
    intro range hrange
    have hbad : ¬ ∀ q ∈ range, q.Good := fun h => hp (h p (hrange.mem_iff.mpr hmem)).1
    obtain ⟨good, bad, rest, rfl, hgood, hbad⟩ := exists_first_bad hbad
    have hin : bad ∈ present syncResp :=
      hrange.mem_iff.mp (List.mem_append_right _ List.mem_cons_self)
    obtain ⟨h4xx, hdec⟩ := hall bad hin
    have hfail : ¬ bad.succeeded := fun hok => hbad ⟨hok, hdec hok⟩
    -- whichever response ends the range, it is a 4xx, and the first part answers
    rcases mergeRequest_failed lib syncResp rest hgood hfail with
      ⟨-, -, h⟩ | ⟨hnot, -⟩
    · rw [h, hret]
    · exact absurd (h4xx hfail) hnot
  refine ⟨?_, ?_, ?_, ?_⟩
  · intro range hrange hsuccess
    rw [hrun range hrange] at hsuccess
    exact absurd hsuccess hp
  · intro range hrange status values limits body h
    rw [hrun range hrange] at h
    cases h
  · intro range hrange q _ _
    exact ⟨p, hmem, hp, hrun range hrange⟩
  · intro range range' hrange hrange'
    rw [hrun range hrange, hrun range' hrange']
    rfl

theorem mergeSound_of_agree (hok : AllSucceeded syncResp)
    (hdec : ∀ p ∈ present syncResp, p.Decodes) (hagree : PartsAgree lib (present syncResp)) :
    MergeSound lib syncResp := by
  have hsucc : ∀ p ∈ present syncResp, p.succeeded := by
    intro p hp
    obtain ⟨r, hr, hid⟩ := List.mem_filterMap.mp hp
    obtain ⟨q, rfl, hq⟩ := hok r hr
    cases hid
    exact hq
  have hgood : ∀ range : List NotifyrResp, range.Perm (present syncResp) →
      ∀ p ∈ range, p.Good := fun range hrange p hp =>
    have hin := hrange.mem_iff.mp hp
    ⟨hsucc p hin, hdec p hin⟩
  refine ⟨fun _ _ _ => hok, ?_, ?_, ?_⟩
  · intro range hrange status values limits body h
    obtain ⟨s, hs, hrun⟩ := mergeRequest_good lib syncResp (hgood range hrange)
    rw [hrun] at h
    cases h
    exact hs.collected hrange hagree
  · intro range hrange p hp hfail
    exact absurd (hsucc p hp) hfail
  · intro range range' hrange hrange'
    have hagree' : PartsAgree lib range' := hagree.of_mem fun p hp => hrange'.mem_iff.mp hp
    exact (same_iff_partsAgree lib syncResp (hgood range' hrange')).mpr hagree' range
      (hrange.trans hrange'.symm)

theorem mergeSound_of_undecoded (hok : ∀ p ∈ present syncResp, p.succeeded)
    (hbad : ∃ p ∈ present syncResp, ¬ p.Decodes)
    (hsame : ∀ p ∈ present syncResp, ∀ q ∈ present syncResp, ∀ e f,
      p.body.document = .error e → q.body.document = .error f → e = f) :
    MergeSound lib syncResp := by
  obtain ⟨p, hp, hdec⟩ := hbad
  obtain ⟨err, herr⟩ := (not_decodes_iff p).mp hdec
  have hrun : ∀ range, range.Perm (present syncResp) →
      mergeRequest lib syncResp range = .error err := by
    intro range hrange
    have hbad : ¬ ∀ q ∈ range, q.Good := fun h => hdec (h p (hrange.mem_iff.mpr hp)).2
    obtain ⟨good, bad, rest, rfl, hgood, hbad⟩ := exists_first_bad hbad
    have hin : bad ∈ present syncResp :=
      hrange.mem_iff.mp (List.mem_append_right _ List.mem_cons_self)
    obtain ⟨e, he⟩ := (not_decodes_iff bad).mp fun h => hbad ⟨hok bad hin, h⟩
    rw [mergeRequest_undecoded lib syncResp rest hgood (hok bad hin) he,
      hsame bad hin p hp e err he herr]
  refine ⟨?_, ?_, ?_, ?_⟩
  · intro range hrange hsuccess
    rw [hrun range hrange] at hsuccess
    cases hsuccess
  · intro range hrange status values limits body h
    rw [hrun range hrange] at h
    cases h
  · intro range hrange q hq hfail
    exact absurd (hok q hq) hfail
  · intro range range' hrange hrange'
    rw [hrun range hrange, hrun range' hrange']
    rfl

/-- A failure in a sound merge: it is a 4xx, and so are the others; the first part is one. -/
theorem MergeSound.first_failed (h : MergeSound lib syncResp) {p : NotifyrResp}
    (hp : p ∈ present syncResp) (hfail : ¬ p.succeeded) :
    ∃ q, syncResp.head? = some (some q) ∧ ¬ q.succeeded ∧ ∀ q ∈ present syncResp,
      (¬ q.succeeded → 400 ≤ q.statusCode ∧ q.statusCode < 500) ∧ (q.succeeded → q.Decodes) := by
  -- ranging over a failure first answers the response of the first part
  have first : ∀ r ∈ present syncResp, ¬ r.succeeded →
      (400 ≤ r.statusCode ∧ r.statusCode < 500) ∧
        ∃ q, ¬ q.succeeded ∧ returnRequest syncResp = .part q := by
    intro r hr hrfail
    obtain ⟨rest, hperm⟩ := exists_perm_cons hr
    obtain ⟨q, -, hq, hpart⟩ := h.failure _ hperm p hp hfail
    rcases mergeRequest_failed lib syncResp rest (List.forall_mem_nil _) hrfail with
      ⟨hge, hlt, hret⟩ | ⟨-, status, values, limits, body, hmerged⟩
    · exact ⟨⟨hge, hlt⟩, q, hq, hret.symm.trans hpart⟩
    · have hcontra := hmerged.symm.trans hpart
      cases hcontra
  obtain ⟨-, q, hq, hret⟩ := first p hp hfail
  refine ⟨q, ?_, hq, fun r hr => ⟨fun hrfail => (first r hr hrfail).1, fun hrok => ?_⟩⟩
  · unfold returnRequest at hret
    split at hret
    · rename_i hhead
      rw [hhead, Outcome.part.inj hret]
    · cases hret
  · by_contra hdec
    obtain ⟨err, herr⟩ := (not_decodes_iff r).mp hdec
    obtain ⟨rest, hperm⟩ := exists_perm_cons hr
    obtain ⟨q', -, -, hpart⟩ := h.failure _ hperm p hp hfail
    have hrun := mergeRequest_undecoded lib syncResp rest (List.forall_mem_nil _) hrok herr
    have hcontra := hrun.symm.trans hpart
    cases hcontra

end Sound

/-- A response without headers. -/
def plainResp (statusCode : Nat) (bytes : String) (document : Except String GoMap) :
    NotifyrResp := ⟨fun _ => "", statusCode, ⟨bytes, document⟩⟩

end Notifyr
