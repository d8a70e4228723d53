import Notifyr.Balancer.Json
import Notifyr.Theory.Share

/-!
# Split requests

`ProxyRequest` for a request that may be split, with `ChooseServer` and `SplitRequest`
(`balancer/internal/services/proxyAgentService.go`) and `ActiveServer` (`healthService.go`).
A body is kept as the document it is decoded from or marshalled to.

- `splitRequest`: the content list is dealt to one body for each server.
- `proxyRequest`: what is sent, and where to.
- `tagged`: the items of a content list with their indices.
- `Distributes`: the bodies of a split request share its content list out evenly.
- `splitSound_iff`: splitting keeps its promise except for a content without a server.
-/

namespace Notifyr

open Theory

/-- What `ActiveServer` reads of a client. -/
structure PingPongClient where
  url : String
  connected : Bool
  isStarted : Bool

/-- `ActiveServer`, the clients in the order in which their map is ranged over. -/
def activeServer (clients : List PingPongClient) : List String :=
  (clients.filter fun client => client.connected && client.isStarted).map PingPongClient.url

/-- `ChooseServer`; `next` is the balancing algorithm. -/
def chooseServer (clients : List PingPongClient) (next : List String → String) (split : Bool) :
    List String :=
  let servers := activeServer clients
  if split then servers else [next servers]

/-- `BODY_EXCLUDE`. -/
def bodyExclude : List String := ["content"]

/-- An object item gets its index. -/
def setIndex (i : Nat) : Json → Json
  | .obj itemMap => .obj (GoMap.put itemMap "index" (.num i))
  | item => item

/-- An item is appended to the content of a body, which is made when it is missing. -/
def appendContent (body : GoMap) (item : Json) : GoResult GoMap :=
  let body := match body.get? "content" with
    | some _ => body
    | none => body.put "content" (.arr [])
  match body.get? "content" with
  | some (.arr contentSlice) => .ok (body.put "content" (.arr (contentSlice ++ [item])))
  | _ => .err "unexpected type for content in copyBodies"

/-- The loop of `SplitRequest` over the content list; `i` is the loop index and `index'` the
variable `_index`. -/
def splitLoop (length : Nat) : List GoMap → Nat → Nat → List Json → GoResult (List GoMap)
  | copyBodies, _, _, [] => .ok copyBodies
  | copyBodies, i, index', item :: content =>
    let item := setIndex i item
    -- `_index % length`
    if length = 0 then .panic "runtime error: integer divide by zero"
    else
      let index := index' % length
      match copyBodies[index]? with
      | none => .panic "runtime error: index out of range"
      | some body =>
        match appendContent body item with
        | .ok body => splitLoop length (copyBodies.set index body) (i + 1) (index' + 1) content
        | .err e => .err e
        | .panic e => .panic e

/-- `SplitRequest`. What `json.Unmarshal` makes of the body is given; the test for a slice, of
a value already asserted to be one, never fails. -/
def splitRequest (body : Except String GoMap) (length : Nat) : GoResult (List GoMap) :=
  match body with
  | .error err => .err err
  | .ok bodyMap =>
    match bodyMap.get? "content" with
    | some (.arr content) =>
      -- the only guard on the number of servers
      if content.length < length then
        .err ("the length of the content is lower than the number of underlying apps, " ++
          "toggle split to False")
      else
        let contentLen := content.length
        let length := if length > contentLen then contentLen else length
        splitLoop length (List.replicate length (bodyMap.copyOneLevelMap bodyExclude)) 0 0 content
    | _ => .err "no content specified"

/-- What happens to a split request. -/
inductive Proxied
  | answered (status : Nat) (text : String)
  | sent (requests : List (String × GoMap))

/-- The loop of `ProxyRequest` over the servers of a split request. -/
def sendLoop (originalURL : String) (syncBodies : List GoMap) (nextUrlsLength : Nat) :
    Nat → List String → GoResult (List (String × GoMap))
  | _, [] => .ok []
  | index, nu :: nextUrls =>
    if syncBodies.length < nextUrlsLength ∧ index + 1 ≥ syncBodies.length then .ok []
    else
      match syncBodies[index]? with
      | none => .panic "runtime error: index out of range"
      | some body =>
        match sendLoop originalURL syncBodies nextUrlsLength (index + 1) nextUrls with
        | .ok requests => .ok ((nu ++ originalURL, body) :: requests)
        | .err e => .err e
        | .panic e => .panic e

/-- `ProxyRequest` up to its answers, for a request that may be split. -/
def proxyRequest (body : Except String GoMap) (originalURL : String)
    (clients : List PingPongClient) (next : List String → String) : GoResult Proxied :=
  let nextUrls := chooseServer clients next true
  match splitRequest body nextUrls.length with
  | .err e => .ok (.answered 500 e)
  | .panic e => .panic e
  | .ok syncBodies =>
    match sendLoop originalURL syncBodies nextUrls.length 0 nextUrls with
    | .ok requests => .ok (.sent requests)
    | .err e => .err e
    | .panic e => .panic e

/-! ## What a split owes -/

/-- The items of a content list with their indices. -/
def tagged (content : List Json) : List Json := content.mapIdx setIndex

/-- The content list of a body. -/
def contentOf (body : GoMap) : List Json :=
  match body.get? "content" with
  | some (.arr content) => content
  | _ => []

/-- The bodies share out the content list of a request among `n` servers. -/
structure Distributes (bodyMap : GoMap) (content : List Json) (n : Nat) (bodies : List GoMap) :
    Prop where
  length : bodies.length = n
  /-- Item `i` is in body `i % n`, and the items of a body are in order. -/
  share : ∀ i (hi : i < bodies.length),
    (bodies[i]).get? "content" = some (.arr (share n i (tagged content)))
  /-- An object item is in its body with its index, its other fields unchanged. -/
  indexed : ∀ (i : Nat) fields, content[i]? = some (.obj fields) → ∃ b fields',
    bodies[i % n]? = some b ∧ .obj fields' ∈ contentOf b ∧
      GoMap.get? fields' "index" = some (.num i) ∧
      ∀ k, k ≠ "index" → GoMap.get? fields' k = GoMap.get? fields k
  /-- No item is lost and none is repeated. -/
  once : (bodies.flatMap contentOf).Perm (tagged content)
  balanced : ∀ b ∈ bodies, ∀ c ∈ bodies, (contentOf b).length ≤ (contentOf c).length + 1
  /-- The other fields are copied to every body. -/
  fields : ∀ b ∈ bodies, ∀ k, k ≠ "content" → b.get? k = bodyMap.get? k

/-- What the balancer owes to a request that may be split. -/
structure SplitSound (body : Except String GoMap) (originalURL : String)
    (clients : List PingPongClient) (next : List String → String) : Prop where
  noPanic : ∀ e, proxyRequest body originalURL clients next ≠ .panic e
  /-- A request with fewer items than servers is refused; nothing of it is sent. -/
  refuses : ∀ bodyMap content, body = .ok bodyMap → bodyMap.get? "content" = some (.arr content) →
    content.length < (activeServer clients).length →
    ∃ text, proxyRequest body originalURL clients next = .ok (.answered 500 text)
  /-- With a server and an item for each server, the request is split: the bodies share out its
  content, and each goes to one active server. -/
  splits : ∀ bodyMap content, body = .ok bodyMap → bodyMap.get? "content" = some (.arr content) →
    activeServer clients ≠ [] → (activeServer clients).length ≤ content.length →
    ∃ bodies requests, splitRequest body (activeServer clients).length = .ok bodies ∧
      Distributes bodyMap content (activeServer clients).length bodies ∧
      proxyRequest body originalURL clients next = .ok (.sent requests) ∧
      requests.map Prod.snd = bodies ∧
      requests.map Prod.fst = (activeServer clients).map (· ++ originalURL)

/-! ## The loop over the content -/

/-- A body that has been given the items `xs`. -/
def bodyWith (base : GoMap) (xs : List Json) : GoMap :=
  match xs with
  | [] => base
  | _ :: _ => base.put "content" (.arr xs)

theorem appendContent_bodyWith {base : GoMap} (hbase : base.get? "content" = none)
    (xs : List Json) (x : Json) :
    appendContent (bodyWith base xs) x = .ok (bodyWith base (xs ++ [x])) := by
  cases xs with
  | nil => simp [appendContent, bodyWith, hbase]
  | cons y ys => simp [appendContent, bodyWith]

theorem set_map_range {α : Type} {n i : Nat} (f g : Nat → α) (h : ∀ j, j ≠ i → f j = g j) :
    ((List.range n).map f).set i (g i) = (List.range n).map g := by
  refine List.ext_getElem (by simp) fun j hj _ => ?_
  rw [List.getElem_set]
  by_cases hij : i = j
  · subst hij
    simp
  · simp [hij, h j (Ne.symm hij)]

/-- One item: the body whose turn it is gets it, the others stay. -/
theorem splitLoop_cons {length : Nat} (hlength : 0 < length) {base : GoMap}
    (hbase : base.get? "content" = none) (dealt : List Json) (item : Json) (content : List Json) :
    splitLoop length ((List.range length).map fun i => bodyWith base (share length i dealt))
        dealt.length dealt.length (item :: content) =
      splitLoop length ((List.range length).map fun i =>
          bodyWith base (share length i (dealt ++ [setIndex dealt.length item])))
        (dealt.length + 1) (dealt.length + 1) content := by
  have hindex : dealt.length % length < length := Nat.mod_lt _ hlength
  have hbody : ((List.range length).map fun i =>
      bodyWith base (share length i dealt))[dealt.length % length]? =
        some (bodyWith base (share length (dealt.length % length) dealt)) := by
    simp [hindex]
  have hset := set_map_range (n := length) (i := dealt.length % length)
    (fun i => bodyWith base (share length i dealt))
    (fun i => bodyWith base (share length i (dealt ++ [setIndex dealt.length item])))
    (fun j hj => by rw [share_concat_other (Ne.symm hj)])
  rw [splitLoop, if_neg (by omega)]
  simp only [hbody, appendContent_bodyWith hbase]
  rw [← share_concat_self rfl, hset]

/-- The loop deals the items. -/
theorem splitLoop_eq {length : Nat} (hlength : 0 < length) {base : GoMap}
    (hbase : base.get? "content" = none) (content dealt : List Json) :
    splitLoop length ((List.range length).map fun i => bodyWith base (share length i dealt))
        dealt.length dealt.length content =
      .ok ((List.range length).map fun i => bodyWith base
        (share length i (dealt ++ content.mapIdx fun j => setIndex (dealt.length + j)))) := by
  induction content generalizing dealt with
  | nil => simp [splitLoop]
  | cons item content ih =>
    rw [splitLoop_cons hlength hbase]
    have hnext := ih (dealt ++ [setIndex dealt.length item])
    rw [List.length_append, List.length_singleton] at hnext
    rw [hnext, List.mapIdx_cons, List.append_assoc]
    have hidx : ∀ j, dealt.length + 1 + j = dealt.length + (j + 1) := fun j => by omega
    simp only [hidx, Nat.add_zero, List.singleton_append]

/-- The bodies of a request whose content reaches every server. -/
def splitBodies (bodyMap : GoMap) (content : List Json) (n : Nat) : List GoMap :=
  (List.range n).map fun i =>
    bodyWith (bodyMap.copyOneLevelMap bodyExclude) (share n i (tagged content))

theorem splitRequest_eq {bodyMap : GoMap} {content : List Json} {n : Nat}
    (hcontent : bodyMap.get? "content" = some (.arr content)) (hn : 0 < n)
    (hle : n ≤ content.length) :
    splitRequest (.ok bodyMap) n = .ok (splitBodies bodyMap content n) := by
  have hbase : (bodyMap.copyOneLevelMap bodyExclude).get? "content" = none := by
    rw [GoMap.get?_copyOneLevelMap]
    rfl
  have hloop := splitLoop_eq hn hbase content []
  have hstart : (List.range n).map (fun i =>
      bodyWith (bodyMap.copyOneLevelMap bodyExclude) (share n i [])) =
        List.replicate n (bodyMap.copyOneLevelMap bodyExclude) := by
    refine List.eq_replicate_iff.mpr ⟨by simp, fun b hb => ?_⟩
    obtain ⟨i, -, rfl⟩ := List.mem_map.mp hb
    rfl
  have htag : (content.mapIdx fun j => setIndex (([] : List Json).length + j)) =
      tagged content := by simp [tagged]
  rw [hstart, htag] at hloop
  unfold splitRequest
  simp only [hcontent]
  rw [if_neg (by omega), if_neg (by omega)]
  exact hloop

theorem contentOf_bodyWith {base : GoMap} {xs : List Json} (h : xs ≠ []) :
    (bodyWith base xs).get? "content" = some (.arr xs) ∧ contentOf (bodyWith base xs) = xs := by
  cases xs with
  | nil => exact absurd rfl h
  | cons x xs => simp [bodyWith, contentOf]

/-- **The bodies share out the content.** -/
theorem splitBodies_distributes (bodyMap : GoMap) {content : List Json} {n : Nat} (hn : 0 < n)
    (hle : n ≤ content.length) :
    Distributes bodyMap content n (splitBodies bodyMap content n) := by
  have hne : ∀ i, i < n → share n i (tagged content) ≠ [] := fun i hi =>
    share_ne_nil hi (by simpa [tagged] using hle)
  have hmem : ∀ b ∈ splitBodies bodyMap content n, ∃ i, i < n ∧
      contentOf b = share n i (tagged content) ∧
      b = bodyWith (bodyMap.copyOneLevelMap bodyExclude) (share n i (tagged content)) := by
    intro b hb
    obtain ⟨i, hi, rfl⟩ := List.mem_map.mp hb
    have hi := List.mem_range.mp hi
    exact ⟨i, hi, (contentOf_bodyWith (hne i hi)).2, rfl⟩
  refine ⟨by simp [splitBodies], ?_, ?_, ?_, ?_, ?_⟩
  · intro i hi
    have hin : i < n := by simpa [splitBodies] using hi
    have hget : (splitBodies bodyMap content n)[i] =
        bodyWith (bodyMap.copyOneLevelMap bodyExclude) (share n i (tagged content)) := by
      simp [splitBodies]
    rw [hget]
    exact (contentOf_bodyWith (hne i hin)).1
  · intro i fields hi
    have hlt : i % n < n := Nat.mod_lt _ hn
    refine ⟨bodyWith (bodyMap.copyOneLevelMap bodyExclude) (share n (i % n) (tagged content)),
      GoMap.put fields "index" (.num i), ?_, ?_, GoMap.get?_put_self _ _ _,
      fun k hk => GoMap.get?_put_ne _ hk _⟩
    · simp [splitBodies, hlt]
    · rw [(contentOf_bodyWith (hne _ hlt)).2]
      refine (mem_share_iff n _ _ _).mpr ⟨i, ?_, rfl⟩
      simp [tagged, hi, setIndex]
  · have hflat : (splitBodies bodyMap content n).flatMap contentOf =
        (List.range n).flatMap fun i => share n i (tagged content) := by
      unfold splitBodies
      rw [List.flatMap_map]
      refine List.flatMap_congr fun i hi => ?_
      exact (contentOf_bodyWith (hne i (List.mem_range.mp hi))).2
    rw [hflat]
    exact perm_shares hn (tagged content)
  · intro b hb c hc
    obtain ⟨i, hi, hbi, -⟩ := hmem b hb
    obtain ⟨j, hj, hcj, -⟩ := hmem c hc
    rw [hbi, hcj]
    exact share_balanced hi hj _
  · intro b hb k hk
    obtain ⟨i, hi, -, rfl⟩ := hmem b hb
    have hput : (bodyWith (bodyMap.copyOneLevelMap bodyExclude)
        (share n i (tagged content))).get? k = (bodyMap.copyOneLevelMap bodyExclude).get? k := by
      cases share n i (tagged content) with
      | nil => rfl
      | cons x xs => exact GoMap.get?_put_ne _ hk _
    rw [hput, GoMap.get?_copyOneLevelMap, if_neg (by simpa [bodyExclude] using hk)]

/-! ## Sending -/

/-- With a body for each server, each body is sent to its server. -/
theorem sendLoop_eq (originalURL : String) (syncBodies : List GoMap) (index : Nat)
    (nextUrls : List String) (hlen : index + nextUrls.length = syncBodies.length) :
    ∃ requests, sendLoop originalURL syncBodies syncBodies.length index nextUrls = .ok requests ∧
      requests.map Prod.snd = syncBodies.drop index ∧
      requests.map Prod.fst = nextUrls.map (· ++ originalURL) := by
  induction nextUrls generalizing index with
  | nil =>
    have hdrop : syncBodies.drop index = [] := by
      rw [List.length_nil] at hlen
      exact List.drop_eq_nil_of_le (by omega)
    exact ⟨[], rfl, hdrop.symm, rfl⟩
  | cons nu nextUrls ih =>
    rw [List.length_cons] at hlen
    have hindex : index < syncBodies.length := by omega
    obtain ⟨requests, hrun, hbodies, hurls⟩ := ih (index + 1) (by omega)
    refine ⟨(nu ++ originalURL, syncBodies[index]) :: requests, ?_, ?_, ?_⟩
    · rw [sendLoop, if_neg (by omega), List.getElem?_eq_getElem hindex]
      simp only [hrun]
    · rw [List.map_cons, hbodies, List.drop_eq_getElem_cons hindex]
    · rw [List.map_cons, hurls, List.map_cons]

/-! ## When a split is sound -/

/-- A content that no server is there for. -/
def NoServer (body : Except String GoMap) (clients : List PingPongClient) : Prop :=
  activeServer clients = [] ∧ ∃ bodyMap content, body = .ok bodyMap ∧
    bodyMap.get? "content" = some (.arr content) ∧ content ≠ []

theorem NoServer.panics {body : Except String GoMap} {clients : List PingPongClient}
    (h : NoServer body clients) (originalURL : String) (next : List String → String) :
    proxyRequest body originalURL clients next =
      .panic "runtime error: integer divide by zero" := by
  obtain ⟨hnone, bodyMap, content, rfl, hcontent, hne⟩ := h
  have hsplit : splitRequest (.ok bodyMap) 0 =
      .panic "runtime error: integer divide by zero" := by
    unfold splitRequest
    simp only [hcontent]
    rw [if_neg (by omega), if_neg (by omega)]
    cases content with
    | nil => exact absurd rfl hne
    | cons item content => simp [splitLoop]
  have hservers : (chooseServer clients next true).length = 0 := by
    show (activeServer clients).length = 0
    rw [hnone, List.length_nil]
  unfold proxyRequest
  simp only [hservers, hsplit]

/-- A request is answered by itself when its content list cannot be had. -/
theorem splitRequest_noContent {body : Except String GoMap}
    (h : ∀ bodyMap content, body = .ok bodyMap → bodyMap.get? "content" ≠ some (.arr content))
    (n : Nat) : ∃ e, splitRequest body n = .err e := by
  cases body with
  | error e => exact ⟨e, rfl⟩
  | ok bodyMap =>
    unfold splitRequest
    cases hget : bodyMap.get? "content" with
    | none => exact ⟨"no content specified", by simp only [hget]⟩
    | some value =>
      cases value with
      | arr content => exact absurd hget (h bodyMap content rfl)
      | _ => exact ⟨"no content specified", by simp only [hget]⟩

theorem proxyRequest_err {body : Except String GoMap} {clients : List PingPongClient} {e : String}
    (h : splitRequest body (activeServer clients).length = .err e) (originalURL : String)
    (next : List String → String) :
    proxyRequest body originalURL clients next = .ok (.answered 500 e) := by
  unfold proxyRequest chooseServer
  simp only [if_true, h]

/-- Bodies for all servers are all sent. -/
theorem proxyRequest_ok {body : Except String GoMap} {clients : List PingPongClient}
    {bodies : List GoMap} (h : splitRequest body (activeServer clients).length = .ok bodies)
    (hlen : bodies.length = (activeServer clients).length) (originalURL : String)
    (next : List String → String) :
    ∃ requests, proxyRequest body originalURL clients next = .ok (.sent requests) ∧
      requests.map Prod.snd = bodies ∧
      requests.map Prod.fst = (activeServer clients).map (· ++ originalURL) := by
  obtain ⟨requests, hrun, hbodies, hurls⟩ :=
    sendLoop_eq originalURL bodies 0 (activeServer clients) (by omega)
  rw [hlen] at hrun
  refine ⟨requests, ?_, by simpa using hbodies, hurls⟩
  unfold proxyRequest chooseServer
  simp only [if_true, h, hrun]

theorem splitRequest_few {bodyMap : GoMap} {content : List Json} {n : Nat}
    (hcontent : bodyMap.get? "content" = some (.arr content)) (hlt : content.length < n) :
    ∃ e, splitRequest (.ok bodyMap) n = .err e := by
  unfold splitRequest
  simp only [hcontent]
  exact ⟨_, if_pos hlt⟩

/-- With a server for a content, or nothing in it, there is a body for each server. -/
theorem splitRequest_bodies {bodyMap : GoMap} {content : List Json} {n : Nat}
    (hcontent : bodyMap.get? "content" = some (.arr content)) (hle : n ≤ content.length)
    (hserver : n = 0 → content = []) :
    ∃ bodies, splitRequest (.ok bodyMap) n = .ok bodies ∧ bodies.length = n := by
  rcases Nat.eq_zero_or_pos n with rfl | hpos
  · -- without servers there is no content either
    obtain rfl := hserver rfl
    refine ⟨[], ?_, rfl⟩
    unfold splitRequest
    simp only [hcontent]
    rfl
  · exact ⟨_, splitRequest_eq hcontent hpos hle, by simp [splitBodies]⟩

theorem proxyRequest_noPanic {body : Except String GoMap} {clients : List PingPongClient}
    (hserver : ¬ NoServer body clients) (originalURL : String) (next : List String → String)
    (panic : String) : proxyRequest body originalURL clients next ≠ .panic panic := by
  by_cases hcontent : ∃ bodyMap content, body = .ok bodyMap ∧
      bodyMap.get? "content" = some (.arr content)
  · obtain ⟨bodyMap, content, rfl, hcontent⟩ := hcontent
    by_cases hlt : content.length < (activeServer clients).length
    · obtain ⟨e, he⟩ := splitRequest_few hcontent hlt
      rw [proxyRequest_err he]
      nofun
    · have hnil : (activeServer clients).length = 0 → content = [] := by
        intro hzero
        by_contra hne
        exact hserver ⟨List.length_eq_zero_iff.mp hzero, bodyMap, content, rfl, hcontent, hne⟩
      obtain ⟨bodies, hsplit, hlen⟩ := splitRequest_bodies hcontent (by omega) hnil
      obtain ⟨requests, hrun, -⟩ := proxyRequest_ok hsplit hlen originalURL next
      rw [hrun]
      nofun
  · have hnone : ∀ bodyMap content, body = .ok bodyMap →
        bodyMap.get? "content" ≠ some (.arr content) :=
      fun bodyMap content hb hc => hcontent ⟨bodyMap, content, hb, hc⟩
    obtain ⟨e, he⟩ := splitRequest_noContent hnone (activeServer clients).length
    rw [proxyRequest_err he]
    nofun

/-- **A split is sound unless a content has no server.** -/
theorem splitSound_iff (body : Except String GoMap) (originalURL : String)
    (clients : List PingPongClient) (next : List String → String) :
    SplitSound body originalURL clients next ↔ ¬ NoServer body clients := by
  constructor
  · intro h hno
    exact h.noPanic _ (hno.panics originalURL next)
  · intro hserver
    refine ⟨proxyRequest_noPanic hserver originalURL next, ?_, ?_⟩
    · rintro bodyMap content rfl hcontent hlt
      obtain ⟨e, he⟩ := splitRequest_few hcontent hlt
      exact ⟨e, proxyRequest_err he originalURL next⟩
    · rintro bodyMap content rfl hcontent hne hle
      have hpos : 0 < (activeServer clients).length := List.length_pos_iff.mpr hne
      have hsplit := splitRequest_eq hcontent hpos hle
      have hdist := splitBodies_distributes bodyMap hpos hle
      obtain ⟨requests, hrun, hbodies, hurls⟩ :=
        proxyRequest_ok hsplit hdist.length originalURL next
      exact ⟨_, requests, hsplit, hdist, hrun, hbodies, hurls⟩

/-- A request with one item, when every application server has gone, stops the balancer's
handler with a division by zero. -/
theorem not_splitSound :
    proxyRequest (.ok [("content", .arr [.str "a"])]) "/email/template/1?split=true" []
        (fun _ => "") = .panic "runtime error: integer divide by zero" ∧
      ¬ SplitSound (.ok [("content", .arr [.str "a"])]) "/email/template/1?split=true" []
        (fun _ => "") := by
  have hno : NoServer (.ok [("content", .arr [.str "a"])]) [] :=
    ⟨rfl, _, _, rfl, rfl, nofun⟩
  exact ⟨hno.panics _ _, fun h => h.noPanic _ (hno.panics _ _)⟩

end Notifyr
