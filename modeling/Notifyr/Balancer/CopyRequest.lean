import Notifyr.Balancer.Merge
import Notifyr.Theory.Retry

/-!
# Sending a part of a request on

`sendRequest` and `CopyRequest` (`balancer/internal/services/proxyAgentService.go`): one part of a
request is sent to a server, again while the server answers 503, and its response is put into the
map that `MergeRequest` ranges over.

- `HttpClient`: what `net/http` makes of a request, and of each attempt to send it.
- `copyRound`, `copyRequest`: a round of the loop, and the loop.
- `CopyRight`: the loop ends within a number of attempts, each of which sent the same body, and
  one response was stored.
- `copyRight_iff`: for which answers this holds.
-/

namespace Notifyr

open Theory

/-- A request as it is sent. -/
structure SentRequest where
  method : String
  url : String
  headers : List (String × String)
  body : List UInt8

/-- A response; `readAll` is what `io.ReadAll` makes of its body. -/
structure HttpResponse where
  statusCode : ℕ
  header : String → String
  readAll : Except String RespBody

/-- `net/http`: whether a request can be made of a method and a URL, and what `Do` answers to each
attempt. -/
structure HttpClient where
  newRequest : String → String → Except String Unit
  answer : ℕ → Except String HttpResponse

/-- What is read of the `fiber.Ctx`. -/
structure FiberCtx where
  method : String
  headers : List (String × String)

/-- The variables of `CopyRequest`, and the requests that were sent. -/
structure CopyLoop where
  retry : ℕ
  sent : List SentRequest

/-- How `CopyRequest` returned: its error, and its calls of `syncResp.Store`. -/
structure CopyResult where
  sent : List SentRequest
  stores : List (ℤ × NotifyrResp)
  err : Option String

/-- `sendRequest`, with what is sent; the body is read anew for each request. -/
def sendRequest (newRequest : String → String → Except String Unit) (c : FiberCtx)
    (newBody : List UInt8) (nextUrl : String) (answer : Except String HttpResponse) :
    List SentRequest × Except String HttpResponse :=
  match newRequest c.method nextUrl with
  | .error err => ([], .error err)
  | .ok () => ([⟨c.method, nextUrl, c.headers, newBody⟩], answer)

/-- A round of the loop of `CopyRequest`. -/
def copyRound (newRequest : String → String → Except String Unit) (c : FiberCtx)
    (newBody : List UInt8) (nextUrl : String) (index : ℤ) (s : CopyLoop)
    (answer : Except String HttpResponse) : CopyLoop ⊕ CopyResult :=
  let (request, resp) := sendRequest newRequest c newBody nextUrl answer
  let sent := s.sent ++ request
  match resp with
  | .error err => .inr { sent, stores := [], err := some err }
  | .ok resp =>
    -- `retry` is not counted up
    if resp.statusCode = 503 ∧ s.retry < 5 then .inl { s with sent }
    else
      match resp.readAll with
      | .error err => .inr { sent, stores := [], err := some err }
      | .ok body =>
        .inr { sent, stores := [(index, ⟨resp.header, resp.statusCode, body⟩)], err := none }

/-- `CopyRequest`, after a number of rounds. -/
def copyRequest (client : HttpClient) (c : FiberCtx) (newBody : List UInt8) (nextUrl : String)
    (index : ℤ) : ℕ → CopyLoop ⊕ CopyResult :=
  attempts (copyRound client.newRequest c newBody nextUrl index) client.answer ⟨0, []⟩

/-! ## What it owes -/

/-- `CopyRequest` returns within `limit` attempts, all of which sent the body it was given, and it
has stored one response, at its index. -/
def CopyRight (client : HttpClient) (c : FiberCtx) (newBody : List UInt8) (nextUrl : String)
    (index : ℤ) (limit : ℕ) : Prop :=
  ∃ n ≤ limit, ∃ result, copyRequest client c newBody nextUrl index n = .inr result ∧
    (∀ request ∈ result.sent, request.body = newBody) ∧
    ∃ resp, result.stores = [(index, resp)]

/-- The answer makes the loop go on. -/
def Unavailable (answer : Except String HttpResponse) : Prop :=
  ∃ resp, answer = .ok resp ∧ resp.statusCode = 503

/-- The answer is stored. -/
def CanBeStored (answer : Except String HttpResponse) : Prop :=
  ∃ resp body, answer = .ok resp ∧ resp.statusCode ≠ 503 ∧ resp.readAll = .ok body

variable {newRequest : String → String → Except String Unit} {client : HttpClient} {c : FiberCtx}
  {newBody : List UInt8} {nextUrl : String} {index : ℤ}

/-- Before round `k` as many requests were sent, and no retry was counted. -/
structure CopyInv (c : FiberCtx) (newBody : List UInt8) (nextUrl : String) (k : ℕ)
    (s : CopyLoop) : Prop where
  retry : s.retry = 0
  sent : s.sent = List.replicate k ⟨c.method, nextUrl, c.headers, newBody⟩

theorem copyInv_start : CopyInv c newBody nextUrl 0 ⟨0, []⟩ := ⟨rfl, rfl⟩

/-- A round on an answer 503. -/
theorem copyRound_unavailable (hnew : newRequest c.method nextUrl = .ok ()) {k : ℕ}
    {s : CopyLoop} {answer : Except String HttpResponse} (hs : CopyInv c newBody nextUrl k s)
    (h : Unavailable answer) :
    ∃ s', copyRound newRequest c newBody nextUrl index s answer = .inl s' ∧
      CopyInv c newBody nextUrl (k + 1) s' := by
  obtain ⟨resp, rfl, hstatus⟩ := h
  have hretry : resp.statusCode = 503 ∧ s.retry < 5 := ⟨hstatus, by rw [hs.retry]; decide⟩
  refine ⟨{ s with sent := s.sent ++ [⟨c.method, nextUrl, c.headers, newBody⟩] }, ?_, hs.retry, ?_⟩
  · simp [copyRound, sendRequest, hnew, hretry]
  · show s.sent ++ _ = _
    rw [hs.sent, ← List.replicate_succ']

variable (index) in
/-- A round on any other answer is the last. -/
theorem copyRound_ends (hnew : newRequest c.method nextUrl = .ok ()) {k : ℕ} {s : CopyLoop}
    {answer : Except String HttpResponse} (hs : CopyInv c newBody nextUrl k s)
    (h : ¬ Unavailable answer) :
    ∃ result, copyRound newRequest c newBody nextUrl index s answer = .inr result ∧
      (∀ request ∈ result.sent, request.body = newBody) ∧
      ((∃ resp, result.stores = [(index, resp)]) ↔ CanBeStored answer) := by
  have hsent : ∀ request ∈ s.sent ++ [(⟨c.method, nextUrl, c.headers, newBody⟩ : SentRequest)],
      request.body = newBody := by
    intro request hrequest
    rw [hs.sent, ← List.replicate_succ'] at hrequest
    rw [List.eq_of_mem_replicate hrequest]
  cases answer with
  | error err =>
    refine ⟨⟨_, [], some err⟩, by simp [copyRound, sendRequest, hnew], hsent, ?_⟩
    simp [CanBeStored]
  | ok resp =>
    have hstatus : resp.statusCode ≠ 503 := fun h503 => h ⟨resp, rfl, h503⟩
    cases hread : resp.readAll with
    | error err =>
      refine ⟨⟨_, [], some err⟩, by simp [copyRound, sendRequest, hnew, hstatus, hread],
        hsent, ?_⟩
      simp [CanBeStored, hread]
    | ok body =>
      refine ⟨⟨_, [(index, ⟨resp.header, resp.statusCode, body⟩)], none⟩,
        by simp [copyRound, sendRequest, hnew, hstatus, hread], hsent, ?_⟩
      simp [CanBeStored, hread, hstatus]

/-- The loop ends with its first answer that is not 503. -/
theorem copyRequest_ends (hnew : client.newRequest c.method nextUrl = .ok ()) {n : ℕ}
    {result : CopyResult} :
    copyRequest client c newBody nextUrl index n = .inr result ↔
      ∃ k < n, (∀ j < k, Unavailable (client.answer j)) ∧ ¬ Unavailable (client.answer k) ∧
        ∃ s, copyRequest client c newBody nextUrl index k = .inl s ∧
          CopyInv c newBody nextUrl k s ∧
          copyRound client.newRequest c newBody nextUrl index s (client.answer k) = .inr result :=
  attempts_ends copyInv_start (fun _ _ _ hs h => copyRound_unavailable hnew hs h) fun _ _ _ hs h =>
    let ⟨result, hround, _⟩ := copyRound_ends index hnew hs h
    ⟨result, hround⟩

/-- Without a request nothing is stored. -/
theorem stores_of_newRequest_error {err : String}
    (hnew : client.newRequest c.method nextUrl = .error err) {n : ℕ} {result : CopyResult}
    (h : copyRequest client c newBody nextUrl index n = .inr result) : result.stores = [] := by
  obtain ⟨k, -, s, -, hround⟩ := attempts_result_iff.1 h
  simp only [copyRound, sendRequest, hnew] at hround
  rw [← Sum.inr.inj hround]

/-- **A part is sent and stored within a number of attempts** exactly if a request can be made of
it, and one of so many answers is not 503 and the first of these can be read. -/
theorem copyRight_iff (client : HttpClient) (c : FiberCtx) (newBody : List UInt8)
    (nextUrl : String) (index : ℤ) (limit : ℕ) :
    CopyRight client c newBody nextUrl index limit ↔
      client.newRequest c.method nextUrl = .ok () ∧
        ∃ k < limit, (∀ j < k, Unavailable (client.answer j)) ∧ CanBeStored (client.answer k) := by
  constructor
  · rintro ⟨n, hn, result, hrun, -, resp, hstore⟩
    cases hnew : client.newRequest c.method nextUrl with
    | error err =>
      rw [stores_of_newRequest_error hnew hrun] at hstore
      cases hstore
    | ok _ =>
      obtain ⟨k, hk, hbefore, hlast, s, -, hs, hround⟩ := (copyRequest_ends hnew).1 hrun
      obtain ⟨result', hround', -, hstorable⟩ := copyRound_ends index hnew hs hlast
      obtain rfl := Sum.inr.inj (hround'.symm.trans hround)
      exact ⟨rfl, k, hk.trans_le hn, hbefore, hstorable.1 ⟨resp, hstore⟩⟩
  · rintro ⟨hnew, k, hk, hbefore, hlast⟩
    obtain ⟨resp, body, hresp, hstatus, hread⟩ := hlast
    have hends : ¬ Unavailable (client.answer k) := by
      rintro ⟨resp', hresp', h503⟩
      obtain rfl := Except.ok.inj (hresp.symm.trans hresp')
      exact hstatus h503
    obtain ⟨s, hrun, hs⟩ : ∃ s, copyRequest client c newBody nextUrl index k = .inl s ∧
        CopyInv c newBody nextUrl k s :=
      attempts_running copyInv_start (fun _ _ _ hs h => copyRound_unavailable hnew hs h) hbefore
    obtain ⟨result, hround, hbody, hstorable⟩ := copyRound_ends index hnew hs hends
    exact ⟨k + 1, hk, result, (attempts_succ_of_inl hrun).trans hround, hbody,
      hstorable.2 ⟨resp, body, hresp, hstatus, hread⟩⟩

/-- A client of which every request is answered with one status. -/
def answering (statusCode : ℕ) : HttpClient where
  newRequest := fun _ _ => .ok ()
  answer := fun _ => .ok ⟨statusCode, fun _ => "", .ok ⟨"", .error "unexpected end of JSON input"⟩⟩

/-- **A server that stays unavailable is asked forever.** -/
theorem not_copyRight_unavailable :
    ¬ ∃ limit, CopyRight (answering 503) ⟨"POST", []⟩ [] "http://app:8088/email" 0 limit := by
  rintro ⟨limit, n, -, result, hrun, -⟩
  obtain ⟨k, -, -, hends, -⟩ := (copyRequest_ends rfl).1 hrun
  exact hends ⟨_, rfl, rfl⟩

end Notifyr
