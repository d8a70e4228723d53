import Notifyr.Balancer.Health

/-!
# The mutex of a client

The calls of `PingPongClient` (`balancer/internal/services/healthService.go`) with the mutex they
take by hand: `Connect`, the read loop `Pong`, and `Disconnect`, which the close handler of the
connection and the service call too.

- `RWMutex`, `ClientM`: the mutex; a call, which blocks forever where it waits for a mutex that no
  call will give back.
- `connect`, `pong`, `disconnect`, `activeServerOf`: the calls, with everything they may meet.
- `SyncRight`: a call returns with the mutex free, and after a lost connection the client is no
  longer listed.
- `syncRight_iff`: the runs of which this holds.
-/

namespace Notifyr

open Theory

/-! ## Calls -/

/-- `sync.RWMutex`. -/
structure RWMutex where
  writer : Bool := false
  readers : ℕ := 0
  deriving DecidableEq

/-- `PingPongClient`, with its mutex. -/
structure SyncClient where
  url : String
  connected : Bool := false
  isStarted : Bool := false
  state : ClientState := .toConnect
  mu : RWMutex := {}

/-- A call on a client. It gives nothing where it waits forever. -/
abbrev ClientM := StateT SyncClient Option

/-- `mu.Lock()`. -/
def lock : ClientM Unit := fun c =>
  if c.mu = {} then some ((), { c with mu := { writer := true } }) else none

/-- `mu.Unlock()`. -/
def unlock : ClientM Unit := modify fun c => { c with mu := { c.mu with writer := false } }

/-- `mu.RLock()`. -/
def rLock : ClientM Unit := fun c =>
  if c.mu.writer then none
  else some ((), { c with mu := { c.mu with readers := c.mu.readers + 1 } })

/-- `mu.RUnlock()`. -/
def rUnlock : ClientM Unit :=
  modify fun c => { c with mu := { c.mu with readers := c.mu.readers - 1 } }

/-- The arguments of `Disconnect`, and whether closing the connection fails. -/
structure DisconnectCall where
  byMe : Bool
  code : ℤ
  closeFails : Bool

/-- `Disconnect`. -/
def disconnect (call : DisconnectCall) : ClientM Unit := do
  lock
  -- nothing gives the lock back here
  if !(← get).connected then return
  modify fun c =>
    { c with connected := false, state := stateAfterClose call.byMe call.code false }
  unlock
  if call.closeFails then modify fun c => { c with state := .toQuit }

/-- What `Connect` is told: whether the service is terminated, each time it asks; whether it gets
the permission; and which of its attempts to dial succeed. -/
structure ConnectAnswers where
  terminatedFirst : Bool
  permitted : Bool
  terminatedSecond : Bool
  dial : ℕ → Bool
  terminatedLast : Bool

/-- `MAX_RETRY`. -/
def maxRetry : ℕ := 10

/-- `connectWS`: whether it has connected. The unlocking is deferred. -/
def connectWS (dial : ℕ → Bool) : ClientM Bool := do
  if !(List.range maxRetry).any dial then return false
  lock
  modify fun c => { c with connected := true }
  unlock
  return true

/-- `Connect`: whether it returns without an error. -/
def connect (answers : ConnectAnswers) : ClientM Bool := do
  if answers.terminatedFirst then return false
  if !answers.permitted then return false
  modify fun c => { c with isStarted := true }
  if answers.terminatedSecond then return false
  if !(← connectWS answers.dial) then return false
  return !answers.terminatedLast

/-- What `ReadMessage` returns. A frame that closes the connection goes to the close handler first;
a connection that ends without one is an abnormal closure. -/
inductive ReadResult
  | message
  | closeFrame (code : ℤ) (closeFails : Bool)
  | abnormalClose
  /-- `net.ErrClosed`. -/
  | closed
  | readError (closeFails : Bool)
  deriving DecidableEq

/-- A read, with the calls of `Disconnect` that others make while it waits. -/
structure ReadOutcome where
  meanwhile : List DisconnectCall
  result : ReadResult

/-- `Pong`, as far as its reads go. -/
def pong : List ReadOutcome → ClientM Unit
  | [] => return
  | read :: reads => do
    rLock
    if !(← get).connected then
      rUnlock
      return
    rUnlock
    read.meanwhile.forM disconnect
    match read.result with
    | .message => pong reads
    | .closeFrame code closeFails => disconnect ⟨false, code, closeFails⟩
    | .abnormalClose => return
    | .closed => return
    | .readError closeFails => disconnect ⟨false, unexpectedPeerReadError, closeFails⟩

/-- `ActiveServer`, on this client. -/
def activeServerOf : ClientM (List String) := do
  rLock
  let isConnected := (← get).connected
  rUnlock
  let client ← get
  return activeServer [⟨client.url, isConnected, client.isStarted⟩]

/-! ## Runs -/

inductive ClientCall
  | connect (answers : ConnectAnswers)
  | pong (reads : List ReadOutcome)
  | disconnect (call : DisconnectCall)

/-- A call, and the state of the client after it. -/
def callClient (call : ClientCall) (c : SyncClient) : Option SyncClient :=
  match call with
  | .connect answers => ((connect answers).run c).map Prod.snd
  | .pong reads => ((pong reads).run c).map Prod.snd
  | .disconnect call => ((disconnect call).run c).map Prod.snd

/-- After a call that waits forever there is none. -/
def clientStep (s : Option SyncClient) (call : ClientCall) : Option SyncClient :=
  s.bind (callClient call)

/-- The reads end with a connection that is lost; the loop does not read on a client that is not
connected. -/
def Lost : Bool → List ReadOutcome → Prop
  | _, [] => False
  | false, _ => False
  | true, read :: reads =>
    if read.result = .message then Lost read.meanwhile.isEmpty reads else True

/-- The call is a read loop that loses the connection. -/
def ClientCall.Loses (c : SyncClient) : ClientCall → Prop
  | .pong reads => Lost c.connected reads
  | _ => False

/-- The call returns and the mutex is free; if the connection was lost, the client is not connected
any more, and not listed. -/
def SyncRight (s : Option SyncClient) (call : ClientCall) : Prop :=
  ∃ c c', s = some c ∧ clientStep s call = some c' ∧ c'.mu = {} ∧
    (call.Loses c → c'.connected = false ∧ activeServerOf.run c' = some ([], c'))

/-- The condition on how reading ends, by whether the client is still connected. -/
def ResultGuard (connected : Bool) : ReadResult → Prop
  | .message => True
  | .closeFrame .. => connected = true
  | .readError _ => connected = true
  | .abnormalClose => connected = false
  | .closed => connected = false

/-- The condition on the reads of a loop: while it waits there is one call of `Disconnect` at most,
and it ends by an abnormal closure only after one, by a frame or an error only without one. -/
def PongGuard : Bool → List ReadOutcome → Prop
  | _, [] => True
  | false, _ => True
  | true, read :: reads =>
    read.meanwhile.length ≤ 1 ∧ ResultGuard read.meanwhile.isEmpty read.result ∧
      (read.result = .message → PongGuard read.meanwhile.isEmpty reads)

/-- The condition on a call. -/
def SyncGuard : Option SyncClient → ClientCall → Prop
  | none, _ => False
  | some _, .connect _ => True
  | some c, .disconnect _ => c.connected = true
  | some c, .pong reads => PongGuard c.connected reads

/-! ## What the calls do -/

section Calls

variable {c : SyncClient}

/-- `Disconnect` on a connected client. -/
theorem disconnect_connected (call : DisconnectCall) (hmu : c.mu = {}) (hc : c.connected = true) :
    (disconnect call).run c = some ((), { c with
      connected := false, state := stateAfterClose call.byMe call.code call.closeFails }) := by
  obtain ⟨url, connected, isStarted, state, mu⟩ := c
  obtain ⟨byMe, code, closeFails⟩ := call
  dsimp only at hmu hc
  subst hmu hc
  cases closeFails <;> rfl

/-- `Disconnect` on a client that is not connected returns with the mutex locked. -/
theorem disconnect_not_connected (call : DisconnectCall) (hmu : c.mu = {})
    (hc : c.connected = false) :
    (disconnect call).run c = some ((), { c with mu := { writer := true } }) := by
  obtain ⟨url, connected, isStarted, state, mu⟩ := c
  dsimp only at hmu hc
  subst hmu hc
  rfl

/-- On a locked client it waits forever. -/
theorem disconnect_locked (call : DisconnectCall) (hmu : c.mu.writer = true) :
    (disconnect call).run c = none := by
  have hlock : lock c = none := if_neg fun hfree => by rw [hfree] at hmu; cases hmu
  exact congrArg (fun o => Option.bind o _) hlock

/-- So does the read loop, if it reads. -/
theorem pong_locked (reads : List ReadOutcome) (hmu : c.mu.writer = true) {c' : SyncClient}
    (h : (pong reads).run c = some ((), c')) : c' = c := by
  cases reads with
  | nil =>
    cases h
    rfl
  | cons read reads =>
    have hlock : rLock c = none := if_pos hmu
    have hnone : (pong (read :: reads)).run c = none :=
      congrArg (fun o => Option.bind o _) hlock
    rw [hnone] at h
    cases h

/-- A turn of the loop on a client that is not connected. -/
theorem pong_not_connected (read : ReadOutcome) (reads : List ReadOutcome) (hmu : c.mu = {})
    (hc : c.connected = false) : (pong (read :: reads)).run c = some ((), c) := by
  obtain ⟨url, connected, isStarted, state, mu⟩ := c
  dsimp only at hmu hc
  subst hmu hc
  rfl

/-- What is done about a read. -/
def afterRead (result : ReadResult) (reads : List ReadOutcome) : ClientM Unit :=
  match result with
  | .message => pong reads
  | .closeFrame code closeFails => disconnect ⟨false, code, closeFails⟩
  | .abnormalClose => return
  | .closed => return
  | .readError closeFails => disconnect ⟨false, unexpectedPeerReadError, closeFails⟩

/-- A turn of the loop on a connected client. -/
theorem pong_connected (read : ReadOutcome) (reads : List ReadOutcome) (hmu : c.mu = {})
    (hc : c.connected = true) : (pong (read :: reads)).run c =
      ((read.meanwhile.forM disconnect).run c).bind fun p =>
        (afterRead read.result reads).run p.2 := by
  obtain ⟨url, connected, isStarted, state, mu⟩ := c
  dsimp only at hmu hc
  subst hmu hc
  rfl

/-- Nobody unlocks a client that a call has left locked. -/
theorem afterRead_locked (result : ReadResult) (reads : List ReadOutcome)
    (hmu : c.mu.writer = true) {c' : SyncClient}
    (h : (afterRead result reads).run c = some ((), c')) : c' = c := by
  cases result with
  | message => exact pong_locked reads hmu h
  | closeFrame code closeFails =>
    rw [afterRead, disconnect_locked _ hmu] at h
    cases h
  | abnormalClose =>
    cases h
    rfl
  | closed =>
    cases h
    rfl
  | readError closeFails =>
    rw [afterRead, disconnect_locked _ hmu] at h
    cases h

/-- `connectWS` gives the mutex back, whether it has connected or not. -/
theorem connectWS_releases (dial : ℕ → Bool) (hmu : c.mu = {}) :
    ∃ ok c', (connectWS dial).run c = some (ok, c') ∧ c'.mu = {} := by
  obtain ⟨url, connected, isStarted, state, mu⟩ := c
  dsimp only at hmu
  subst hmu
  unfold connectWS
  cases (List.range maxRetry).any dial with
  | false => exact ⟨false, _, rfl, rfl⟩
  | true => exact ⟨true, _, rfl, rfl⟩

/-- `Connect` does, however it ends. -/
theorem connect_releases (answers : ConnectAnswers) (hmu : c.mu = {}) :
    ∃ c', callClient (.connect answers) c = some c' ∧ c'.mu = {} := by
  obtain ⟨terminatedFirst, permitted, terminatedSecond, dial, terminatedLast⟩ := answers
  cases terminatedFirst with
  | true => exact ⟨c, rfl, hmu⟩
  | false =>
    cases permitted with
    | false => exact ⟨c, rfl, hmu⟩
    | true =>
      cases terminatedSecond with
      | true => exact ⟨{ c with isStarted := true }, rfl, hmu⟩
      | false =>
        obtain ⟨ok, c', hrun, hfree⟩ :=
          connectWS_releases (c := { c with isStarted := true }) dial hmu
        have hconnect : (connect ⟨false, true, false, dial, terminatedLast⟩).run c =
            ((connectWS dial).run { c with isStarted := true }).bind fun p =>
              (if !p.1 then return false else return !terminatedLast : ClientM Bool).run p.2 := rfl
        refine ⟨c', ?_, hfree⟩
        unfold callClient
        dsimp only
        rw [hconnect, hrun]
        cases ok <;> rfl

/-- The list that is made of a client that is not connected. -/
theorem activeServerOf_not_connected (hmu : c.mu = {}) (hc : c.connected = false) :
    activeServerOf.run c = some ([], c) := by
  obtain ⟨url, connected, isStarted, state, mu⟩ := c
  dsimp only at hmu hc
  subst hmu hc
  rfl

end Calls

/-! ## The read loop -/

section Reads

variable {c : SyncClient}

/-- The calls of `Disconnect` while a read waits, where there is one at most. -/
theorem meanwhile_run {calls : List DisconnectCall} (hcalls : calls.length ≤ 1) (hmu : c.mu = {})
    (hc : c.connected = true) : ∃ c', (calls.forM disconnect).run c = some ((), c') ∧ c'.mu = {} ∧
      c'.connected = calls.isEmpty := by
  match calls, hcalls with
  | [], _ => exact ⟨c, rfl, hmu, hc⟩
  | [call], _ =>
    refine ⟨{ c with
      connected := false, state := stateAfterClose call.byMe call.code call.closeFails },
      ?_, hmu, rfl⟩
    show ((disconnect call >>= fun _ => pure ()) : ClientM Unit).run c = _
    rw [StateT.run_bind, disconnect_connected call hmu hc]
    rfl

/-- On a locked client the first of them waits forever. -/
theorem meanwhile_locked {calls : List DisconnectCall} (hmu : c.mu.writer = true) {c' : SyncClient}
    (h : (calls.forM disconnect).run c = some ((), c')) : c' = c := by
  cases calls with
  | nil =>
    cases h
    rfl
  | cons call calls =>
    obtain ⟨_, hfirst, -⟩ := Option.bind_eq_some_iff.mp h
    cases (disconnect_locked call hmu).symm.trans hfirst

/-- A second one locks the client, and a third waits. -/
theorem meanwhile_locks {calls : List DisconnectCall} (hcalls : 2 ≤ calls.length)
    (hmu : c.mu = {}) (hc : c.connected = true) {c' : SyncClient}
    (h : (calls.forM disconnect).run c = some ((), c')) : c'.mu.writer = true := by
  match calls, hcalls with
  | call :: call' :: calls, _ =>
    obtain ⟨⟨⟨⟩, c₁⟩, hfirst, h⟩ := Option.bind_eq_some_iff.mp h
    cases (disconnect_connected call hmu hc).symm.trans hfirst
    obtain ⟨⟨⟨⟩, c₂⟩, hsecond, h⟩ := Option.bind_eq_some_iff.mp h
    cases (disconnect_not_connected call' (by exact hmu) rfl).symm.trans hsecond
    obtain rfl := @meanwhile_locked _ calls rfl c' h
    rfl

/-- Within the condition the loop gives the mutex back, and leaves the client disconnected if the
connection was lost. -/
theorem pong_releases {reads : List ReadOutcome} (hmu : c.mu = {})
    (hguard : PongGuard c.connected reads) : ∃ c', (pong reads).run c = some ((), c') ∧
      c'.mu = {} ∧ (Lost c.connected reads → c'.connected = false) := by
  induction reads generalizing c with
  | nil => exact ⟨c, rfl, hmu, False.elim⟩
  | cons read reads ih =>
    cases hc : c.connected with
    | false => exact ⟨c, pong_not_connected read reads hmu hc, hmu, fun _ => hc⟩
    | true =>
      rw [hc] at hguard
      obtain ⟨hlength, hresult, hrest⟩ := hguard
      obtain ⟨c', hrun, hfree, hconnected⟩ := meanwhile_run hlength hmu hc
      rw [pong_connected read reads hmu hc, hrun]
      dsimp only [Option.bind]
      unfold Lost
      rw [← hconnected] at hresult hrest ⊢
      cases hread : read.result with
      | message =>
        rw [if_pos rfl]
        exact ih hfree (hrest hread)
      | closeFrame code closeFails =>
        rw [hread] at hresult
        exact ⟨_, disconnect_connected _ hfree hresult, hfree, fun _ => rfl⟩
      | abnormalClose =>
        rw [hread] at hresult
        exact ⟨c', rfl, hfree, fun _ => hresult⟩
      | closed =>
        rw [hread] at hresult
        exact ⟨c', rfl, hfree, fun _ => hresult⟩
      | readError closeFails =>
        rw [hread] at hresult
        exact ⟨_, disconnect_connected _ hfree hresult, hfree, fun _ => rfl⟩

/-- Outside it the loop leaves the client locked, or connected though the connection was lost. -/
theorem pong_leaves {reads : List ReadOutcome} (hmu : c.mu = {})
    (hguard : ¬ PongGuard c.connected reads) {c' : SyncClient}
    (h : (pong reads).run c = some ((), c')) :
    c'.mu.writer = true ∨ (Lost c.connected reads ∧ c'.connected = true) := by
  induction reads generalizing c with
  | nil => exact absurd trivial hguard
  | cons read reads ih =>
    cases hc : c.connected with
    | false =>
      rw [hc] at hguard
      exact absurd trivial hguard
    | true =>
      rw [hc] at hguard
      rw [pong_connected read reads hmu hc] at h
      obtain ⟨⟨⟨⟩, c₁⟩, hrun, hafter⟩ := Option.bind_eq_some_iff.mp h
      by_cases hlength : read.meanwhile.length ≤ 1
      case neg =>
        have hlocked := meanwhile_locks (Nat.lt_of_not_le hlength) hmu hc hrun
        rw [afterRead_locked read.result reads hlocked hafter]
        exact .inl hlocked
      obtain ⟨c₂, hrun₂, hfree, hconnected⟩ := meanwhile_run hlength hmu hc
      cases hrun.symm.trans hrun₂
      unfold Lost
      rw [PongGuard, and_iff_right hlength, ← hconnected] at hguard
      rw [← hconnected]
      dsimp only at hafter
      cases hread : read.result with
      | message =>
        rw [hread] at hguard hafter
        rw [if_pos rfl]
        exact ih hfree (fun hrest => hguard ⟨trivial, fun _ => hrest⟩) hafter
      | closeFrame code closeFails =>
        rw [hread] at hguard hafter
        have hoff : c₁.connected = false :=
          Bool.eq_false_iff.mpr fun hon => hguard ⟨hon, nofun⟩
        cases (disconnect_not_connected _ hfree hoff).symm.trans hafter
        exact .inl rfl
      | abnormalClose =>
        rw [hread] at hguard hafter
        cases hafter
        exact .inr ⟨trivial, Bool.eq_true_of_not_eq_false fun hoff => hguard ⟨hoff, nofun⟩⟩
      | closed =>
        rw [hread] at hguard hafter
        cases hafter
        exact .inr ⟨trivial, Bool.eq_true_of_not_eq_false fun hoff => hguard ⟨hoff, nofun⟩⟩
      | readError closeFails =>
        rw [hread] at hguard hafter
        have hoff : c₁.connected = false :=
          Bool.eq_false_iff.mpr fun hon => hguard ⟨hon, nofun⟩
        cases (disconnect_not_connected _ hfree hoff).symm.trans hafter
        exact .inl rfl

end Reads

/-! ## Every run -/

/-- What is asked of a call on a client whose mutex is free, in terms of the state it leaves. -/
theorem syncRight_step_iff_exists {c : SyncClient} {call : ClientCall} :
    SyncRight (some c) call ↔ ∃ c', callClient call c = some c' ∧ c'.mu = {} ∧
      (call.Loses c → c'.connected = false) := by
  constructor
  · rintro ⟨_, c', ⟨⟩, hstep, hfree, hlost⟩
    exact ⟨c', hstep, hfree, fun h => (hlost h).1⟩
  · rintro ⟨c', hstep, hfree, hlost⟩
    exact ⟨c, c', rfl, hstep, hfree, fun h =>
      ⟨hlost h, activeServerOf_not_connected hfree (hlost h)⟩⟩

/-- **The step lemma**: exactly the calls within the condition do what they should. -/
theorem syncRight_step_iff {c : SyncClient} (hmu : c.mu = {}) (call : ClientCall) :
    SyncRight (some c) call ↔ SyncGuard (some c) call := by
  rw [syncRight_step_iff_exists]
  cases call with
  | connect answers =>
    obtain ⟨c', hrun, hfree⟩ := connect_releases answers hmu
    exact iff_of_true ⟨c', hrun, hfree, False.elim⟩ trivial
  | disconnect call =>
    show (∃ c', ((disconnect call).run c).map Prod.snd = some c' ∧ _) ↔ c.connected = true
    cases hc : c.connected with
    | true =>
      rw [disconnect_connected call hmu hc]
      exact iff_of_true ⟨_, rfl, hmu, False.elim⟩ rfl
    | false =>
      rw [disconnect_not_connected call hmu hc]
      refine iff_of_false ?_ Bool.false_ne_true
      rintro ⟨c', ⟨⟩, hfree, -⟩
      cases hfree
  | pong reads =>
    constructor
    · rintro ⟨c', hrun, hfree, hlost⟩
      by_contra hguard
      obtain ⟨⟨⟨⟩, c''⟩, hpong, rfl⟩ := Option.map_eq_some_iff.mp hrun
      rcases pong_leaves hmu hguard hpong with hlocked | ⟨hloses, hon⟩
      · rw [hfree] at hlocked
        cases hlocked
      · rw [hlost hloses] at hon
        cases hon
    · intro hguard
      obtain ⟨c', hrun, hfree, hlost⟩ := pong_releases hmu hguard
      refine ⟨c', ?_, hfree, hlost⟩
      show ((pong reads).run c).map Prod.snd = some c'
      rw [hrun]
      rfl

/-- **Exactly the runs in which `Disconnect` is called on connected clients only, and no connection
ends without a frame that closes it, an error or a call of `Disconnect`,** release the mutex at
every call, and do not list a client whose connection was lost. -/
theorem syncRight_iff (url : String) (calls : List ClientCall) :
    Always clientStep SyncRight (some { url := url }) calls ↔
      Always clientStep SyncGuard (some { url := url }) calls := by
  refine always_congr_of_step (I := fun s => ∃ c : SyncClient, s = some c ∧ c.mu = {}) ?_ ?_
    ⟨_, rfl, rfl⟩
  · rintro _ call - ⟨c, c', rfl, hstep, hfree, -⟩
    exact ⟨c', hstep, hfree⟩
  · rintro _ call ⟨c, rfl, hmu⟩
    exact syncRight_step_iff hmu call

/-- A client whose connections all succeed. -/
def connects : ConnectAnswers where
  terminatedFirst := false
  permitted := true
  terminatedSecond := false
  dial _ := true
  terminatedLast := false

/-- A server that vanishes without closing the connection stays listed. -/
theorem not_syncRight_vanished : ¬ Always clientStep SyncRight
    (some { url := "http://app:8088" }) [.connect connects, .pong [⟨[], .abnormalClose⟩]] := by
  rintro ⟨-, ⟨c, c', hc, hstep, -, hlost⟩, -⟩
  cases hc
  cases hstep
  have hloses : Lost true [⟨[], .abnormalClose⟩] := by
    unfold Lost
    rw [if_neg nofun]
    trivial
  cases (hlost hloses).1

/-- A client that is disconnected twice is locked. -/
theorem not_syncRight_twice : ¬ Always clientStep SyncRight (some { url := "http://app:8088" })
    [.connect connects, .disconnect ⟨true, -1, false⟩, .disconnect ⟨true, -1, false⟩] := by
  rintro ⟨-, -, ⟨c, c', hc, hstep, hfree, -⟩, -⟩
  cases hc
  cases hstep
  cases hfree

end Notifyr
