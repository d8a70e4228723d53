import Mathlib.Data.Fintype.Basic
import Mathlib.Data.Finset.Card
import Notifyr.Balancer.Split
import Notifyr.Theory.Runs

/-!
# Connected servers

The health service of the balancer (`balancer/internal/services/healthService.go`), the check of
`ActiveMiddleware` (`balancer/middleware/balancerMiddleware.go`), and the list of servers that the
algorithm of a request gets.

- `HealthConfig`: the URLs, and the hash under which `ppClient` keeps the client of a URL.
- `HealthService`, `healthStep`: the clients with the counter of active connections, and the events:
  connections, failures, disconnections, requests that are let through and that choose a server.
- `HealthRight`: the counter is the number of connected servers, and no request that was let through
  gets an empty list.
- `healthRight_iff`: the runs of which this holds.
-/

namespace Notifyr

open Theory

/-- The digits of `%x`. -/
def hexDigits : List Char := "0123456789abcdef".toList

/-- The servers that the balancer was started with; a key of the map is a hash in hexadecimal. -/
structure HealthConfig (n : ℕ) where
  url : Fin n → String
  hashURL : String → String
  hashURL_hex : ∀ url, ∀ c ∈ (hashURL url).toList, c ∈ hexDigits

/-- The name of a client. -/
def clientName {n : ℕ} (i : Fin n) : String := "Notifyr Instance " ++ toString i.val

/-- The state that the loop of a client is in. -/
inductive ClientState
  | toConnect
  | toRun
  | toQuit
  deriving DecidableEq

/-- `PingPongClient`; `locked` says that a call has returned without giving back its lock. -/
structure HealthClient where
  connected : Bool := false
  isStarted : Bool := false
  state : ClientState := .toConnect
  locked : Bool := false
  deriving DecidableEq

/-- `HealthService`, and the requests that the middleware has let through and that have not chosen
a server yet. -/
structure HealthService (n : ℕ) where
  client : Fin n → HealthClient := fun _ => {}
  activePpConnection : ℕ := 0
  passed : List ℕ := []

/-- What happens. A connection is `Connect` with what `StateMachine` does after it, which counts the
connection; nothing in the balancer calls `ForcedlyTerminateConnectionState`, which would come
between the two, or `PingPongClient.RemoveActiveConnection`. -/
inductive HealthEvent (n : ℕ)
  | connect (i : Fin n)
  | connectFails (i : Fin n) (permitted : Bool)
  | disconnect (i : Fin n) (byMe : Bool) (code : ℤ) (closeFails : Bool)
  | removeActive (i : Fin n)
  | pass (request : ℕ)
  | choose (request : ℕ)

variable {n : ℕ}

namespace HealthConfig

variable (cfg : HealthConfig n)

/-- A client is the one that `ppClient` keeps under the key of its URL: it is the last with it. -/
def InMap (i : Fin n) : Prop := ∀ j, i < j → cfg.hashURL (cfg.url j) ≠ cfg.hashURL (cfg.url i)

instance (i : Fin n) : Decidable (cfg.InMap i) :=
  inferInstanceAs (Decidable (∀ j, i < j → cfg.hashURL (cfg.url j) ≠ cfg.hashURL (cfg.url i)))

/-- What `ActiveServer` reads of a client. -/
def pingPongClient (s : HealthService n) (i : Fin n) : PingPongClient :=
  ⟨cfg.url i, (s.client i).connected, (s.client i).isStarted⟩

/-- The clients of the map, in an order in which it may be ranged over. -/
def MapOrder (order : List (Fin n)) : Prop :=
  order.Perm ((List.finRange n).filter fun i => cfg.InMap i)

/-- The servers that are connected. -/
def connectedServers (s : HealthService n) : Finset (Fin n) :=
  Finset.univ.filter fun i => cfg.InMap i ∧ (s.client i).connected = true

end HealthConfig

namespace HealthService

/-- A client changes. -/
def setClient (s : HealthService n) (i : Fin n) (c : HealthClient) : HealthService n :=
  { s with client := Function.update s.client i c }

end HealthService

/-- A client can connect: its loop is about to, and gets the lock. -/
def HealthClient.canConnect (c : HealthClient) : Bool :=
  decide (c.state = .toConnect) && !c.locked

/-- `UNEXPECTED_PEER_READ_ERROR`. -/
def unexpectedPeerReadError : ℤ := 4001

/-- The state after a disconnection. -/
def stateAfterClose (byMe : Bool) (code : ℤ) (closeFails : Bool) : ClientState :=
  if closeFails then .toQuit
  else if byMe then .toQuit
  else if code = 1012 ∨ code = unexpectedPeerReadError then .toConnect
  else .toQuit

/-- `PingPongClient.Disconnect`; a call on a client that is not connected keeps the lock. -/
def HealthClient.disconnect (c : HealthClient) (byMe : Bool) (code : ℤ) (closeFails : Bool) :
    HealthClient :=
  if !c.connected then { c with locked := true }
  else { c with connected := false, state := stateAfterClose byMe code closeFails }

/-- `HealthService.RemoveActiveConnection`. -/
def removeActiveConnection (cfg : HealthConfig n) (s : HealthService n) (name : String) :
    HealthService n :=
  if ∃ i, cfg.hashURL (cfg.url i) = name then
    { s with activePpConnection := s.activePpConnection - 1 }
  else s

/-- One event; an event that cannot happen changes nothing. -/
def healthStep (cfg : HealthConfig n) (s : HealthService n) : HealthEvent n → HealthService n
  | .connect i =>
    if (s.client i).canConnect then
      { s.setClient i { s.client i with connected := true, isStarted := true, state := .toRun } with
        activePpConnection := s.activePpConnection + 1 }
    else s
  | .connectFails i permitted =>
    if (s.client i).state = .toConnect then
      s.setClient i { s.client i with
        isStarted := (s.client i).isStarted || permitted, state := .toQuit }
    else s
  | .disconnect i byMe code closeFails =>
    if (s.client i).locked then s
    else s.setClient i ((s.client i).disconnect byMe code closeFails)
  | .removeActive i => removeActiveConnection cfg s (clientName i)
  | .pass request =>
    if 0 < s.activePpConnection then { s with passed := request :: s.passed } else s
  | .choose request => { s with passed := s.passed.erase request }

/-! ## The property and the condition -/

/-- The counter is the number of connected servers. -/
def Counts (cfg : HealthConfig n) (s : HealthService n) : Prop :=
  s.activePpConnection = (cfg.connectedServers s).card

/-- A request that chooses a server gets a list that is not empty, in whatever order the map is. -/
def ChoosesFrom (cfg : HealthConfig n) (s : HealthService n) : HealthEvent n → Prop
  | .choose request => request ∈ s.passed → ∀ order, cfg.MapOrder order →
      activeServer (order.map (cfg.pingPongClient s)) ≠ []
  | _ => True

/-- Every state that a run reaches has its servers counted, and every request in it that was let
through has a server to choose. -/
def HealthRight (cfg : HealthConfig n) (events : List (HealthEvent n)) : Prop :=
  (∀ before after, events = before ++ after → Counts cfg (runFrom (healthStep cfg) {} before)) ∧
    Always (healthStep cfg) (ChoosesFrom cfg) {} events

/-- The condition on an event: the client that connects is the one of its server, and no connected
server is disconnected. -/
def HealthGuard (cfg : HealthConfig n) (s : HealthService n) : HealthEvent n → Prop
  | .connect i => (s.client i).canConnect = true → cfg.InMap i
  | .disconnect i _ _ _ => (s.client i).locked = false → cfg.InMap i →
      (s.client i).connected = false
  | _ => True

/-! ## Counting the servers -/

section Counting

variable {cfg : HealthConfig n} {s : HealthService n} {i : Fin n} {c : HealthClient}

theorem HealthService.setClient_self : (s.setClient i c).client i = c := by
  unfold setClient
  exact Function.update_self ..

theorem HealthService.setClient_of_ne {j : Fin n} (h : j ≠ i) :
    (s.setClient i c).client j = s.client j := by
  unfold setClient
  exact Function.update_of_ne h ..

theorem HealthConfig.mem_connectedServers {j : Fin n} :
    j ∈ cfg.connectedServers s ↔ cfg.InMap j ∧ (s.client j).connected = true := by
  unfold connectedServers
  rw [Finset.mem_filter, and_iff_right (Finset.mem_univ j)]

/-- A client that is as connected as before, or not in the map, counts as before. -/
theorem connectedServers_setClient_same
    (h : cfg.InMap i → c.connected = (s.client i).connected) :
    cfg.connectedServers (s.setClient i c) = cfg.connectedServers s := by
  ext j
  rw [HealthConfig.mem_connectedServers, HealthConfig.mem_connectedServers]
  refine and_congr_right fun hj => ?_
  by_cases hji : j = i
  · subst hji
    rw [HealthService.setClient_self, h hj]
  · rw [HealthService.setClient_of_ne hji]

/-- A server that connects. -/
theorem connectedServers_setClient_true (hi : cfg.InMap i) (hc : c.connected = true) :
    cfg.connectedServers (s.setClient i c) = insert i (cfg.connectedServers s) := by
  ext j
  rw [Finset.mem_insert, HealthConfig.mem_connectedServers, HealthConfig.mem_connectedServers]
  by_cases hji : j = i
  · subst hji
    rw [HealthService.setClient_self]
    exact iff_of_true ⟨hi, hc⟩ (.inl rfl)
  · rw [HealthService.setClient_of_ne hji]
    exact ⟨.inr, fun h => h.resolve_left hji⟩

/-- A server that is disconnected. -/
theorem connectedServers_setClient_false (hc : c.connected = false) :
    cfg.connectedServers (s.setClient i c) = (cfg.connectedServers s).erase i := by
  ext j
  rw [Finset.mem_erase, HealthConfig.mem_connectedServers, HealthConfig.mem_connectedServers]
  by_cases hji : j = i
  · subst hji
    rw [HealthService.setClient_self, hc]
    exact iff_of_false (fun h => Bool.false_ne_true h.2) (fun h => h.1 rfl)
  · rw [HealthService.setClient_of_ne hji]
    exact ⟨fun h => ⟨hji, h⟩, fun h => h.2⟩

/-- A call of `Disconnect` leaves a client that is not connected. -/
theorem HealthClient.disconnect_connected (byMe : Bool) (code : ℤ) (closeFails : Bool) :
    (c.disconnect byMe code closeFails).connected = false := by
  unfold disconnect
  split_ifs with hc
  · rw [Bool.not_eq_true'] at hc
    exact hc
  · rfl

/-- No name of a client is a key of the map. -/
theorem removeActiveConnection_clientName (cfg : HealthConfig n) (s : HealthService n)
    (i : Fin n) : removeActiveConnection cfg s (clientName i) = s := by
  unfold removeActiveConnection
  refine if_neg ?_
  rintro ⟨j, hj⟩
  have hN : 'N' ∈ (cfg.hashURL (cfg.url j)).toList := by
    rw [hj]
    unfold clientName
    rw [String.toList_append]
    exact List.mem_append_left _ (by decide)
  have hhex := cfg.hashURL_hex _ 'N' hN
  revert hhex
  decide

end Counting

/-! ## Runs -/

section Runs

variable {cfg : HealthConfig n} {s : HealthService n}

/-- What the runs within the condition keep. -/
structure HealthInv (cfg : HealthConfig n) (s : HealthService n) : Prop where
  counts : Counts cfg s
  /-- A client that is about to connect is not connected. -/
  waits : ∀ i, (s.client i).state = .toConnect → (s.client i).connected = false
  started : ∀ i, (s.client i).connected = true → (s.client i).isStarted = true
  /-- The counter only grows, so that it is still positive for a request that was let through. -/
  positive : s.passed ≠ [] → 0 < s.activePpConnection

theorem healthInv_init : HealthInv cfg {} where
  counts := by
    unfold Counts
    refine (Finset.card_eq_zero.mpr (Finset.eq_empty_of_forall_notMem fun i hi => ?_)).symm
    exact Bool.false_ne_true (HealthConfig.mem_connectedServers.mp hi).2
  waits _ _ := rfl
  started _ h := absurd h Bool.false_ne_true
  positive h := absurd rfl h

/-- A change of one client that leaves the counter, and the servers that are counted. -/
theorem HealthInv.setClient (h : HealthInv cfg s) {i : Fin n} {c : HealthClient}
    (hsame : cfg.InMap i → c.connected = (s.client i).connected)
    (hwaits : c.state = .toConnect → c.connected = false)
    (hstarted : c.connected = true → c.isStarted = true) :
    HealthInv cfg (s.setClient i c) where
  counts := by
    have hcounts := h.counts
    unfold Counts at hcounts ⊢
    rw [connectedServers_setClient_same hsame]
    exact hcounts
  waits j hj := by
    by_cases hji : j = i
    · subst hji
      rw [HealthService.setClient_self] at hj ⊢
      exact hwaits hj
    · rw [HealthService.setClient_of_ne hji] at hj ⊢
      exact h.waits j hj
  started j hj := by
    by_cases hji : j = i
    · subst hji
      rw [HealthService.setClient_self] at hj ⊢
      exact hstarted hj
    · rw [HealthService.setClient_of_ne hji] at hj ⊢
      exact h.started j hj
  positive := h.positive

/-- A server of the map connects and is counted. -/
theorem HealthInv.connect (h : HealthInv cfg s) {i : Fin n} (hi : cfg.InMap i)
    (hstate : (s.client i).state = .toConnect) :
    HealthInv cfg (healthStep cfg s (.connect i)) := by
  dsimp only [healthStep]
  split_ifs
  case neg => exact h
  refine ⟨?_, fun j hj => ?_, fun j hj => ?_, fun _ => Nat.succ_pos _⟩
  · have hnot : i ∉ cfg.connectedServers s := by
      intro hmem
      have := (HealthConfig.mem_connectedServers.mp hmem).2
      rw [h.waits i hstate] at this
      exact Bool.false_ne_true this
    have hcounts : s.activePpConnection = (cfg.connectedServers s).card := h.counts
    change s.activePpConnection + 1 = (cfg.connectedServers (s.setClient i _)).card
    rw [connectedServers_setClient_true hi rfl, Finset.card_insert_of_notMem hnot, hcounts]
  · change ((s.setClient i _).client j).state = _ at hj
    change ((s.setClient i _).client j).connected = _
    by_cases hji : j = i
    · subst hji
      rw [HealthService.setClient_self] at hj
      cases hj
    · rw [HealthService.setClient_of_ne hji] at hj ⊢
      exact h.waits j hj
  · change ((s.setClient i _).client j).connected = _ at hj
    change ((s.setClient i _).client j).isStarted = _
    by_cases hji : j = i
    · subst hji
      rw [HealthService.setClient_self]
    · rw [HealthService.setClient_of_ne hji] at hj ⊢
      exact h.started j hj

/-- **The step lemma.** -/
theorem healthInv_step (event : HealthEvent n) (h : HealthInv cfg s)
    (hguard : HealthGuard cfg s event) : HealthInv cfg (healthStep cfg s event) := by
  cases event with
  | connect i =>
    by_cases hcan : (s.client i).canConnect = true
    · have hstate : (s.client i).state = .toConnect := by
        unfold HealthClient.canConnect at hcan
        rw [Bool.and_eq_true, decide_eq_true_iff] at hcan
        exact hcan.1
      exact h.connect (hguard hcan) hstate
    · dsimp only [healthStep]
      rw [if_neg hcan]
      exact h
  | connectFails i permitted =>
    dsimp only [healthStep]
    split_ifs with hstate
    case neg => exact h
    refine h.setClient (fun _ => rfl) (fun hquit => by cases hquit) fun hc => ?_
    rw [h.waits i hstate] at hc
    cases hc
  | disconnect i byMe code closeFails =>
    dsimp only [healthStep]
    split_ifs with hlocked
    · exact h
    by_cases hc : (s.client i).connected = true
    · have hoff := HealthClient.disconnect_connected (c := s.client i) byMe code closeFails
      refine h.setClient (fun hi => ?_) (fun _ => hoff) fun hon => ?_
      · rw [hguard (Bool.eq_false_iff.mpr hlocked) hi]
        exact hoff
      · rw [hoff] at hon
        cases hon
    · -- a second call, which keeps the lock
      unfold HealthClient.disconnect
      rw [if_pos (by rw [Bool.eq_false_iff.mpr hc]; rfl)]
      exact h.setClient (fun _ => rfl) (h.waits i) (h.started i)
  | removeActive i =>
    dsimp only [healthStep]
    rw [removeActiveConnection_clientName]
    exact h
  | pass request =>
    dsimp only [healthStep]
    split_ifs with hpos
    case neg => exact h
    exact ⟨h.counts, h.waits, h.started, fun _ => hpos⟩
  | choose request =>
    refine ⟨h.counts, h.waits, h.started, fun hne => h.positive fun hnil => hne ?_⟩
    dsimp only [healthStep]
    rw [hnil]
    rfl

/-- While a connected server is counted, there is a server to choose. -/
theorem HealthInv.choosesFrom (h : HealthInv cfg s) (event : HealthEvent n) :
    ChoosesFrom cfg s event := by
  cases event
  case choose request =>
    intro hmem order horder hempty
    have hpos := h.positive (List.ne_nil_of_mem hmem)
    rw [show s.activePpConnection = (cfg.connectedServers s).card from h.counts] at hpos
    obtain ⟨i, hi⟩ := Finset.card_pos.mp hpos
    obtain ⟨hmap, hconnected⟩ := HealthConfig.mem_connectedServers.mp hi
    have hin : i ∈ order := by
      refine horder.mem_iff.mpr (List.mem_filter.mpr ⟨List.mem_finRange i, ?_⟩)
      exact decide_eq_true hmap
    unfold activeServer at hempty
    have hnone := List.filter_eq_nil_iff.mp (List.map_eq_nil_iff.mp hempty)
      (cfg.pingPongClient s i) (List.mem_map_of_mem hin)
    refine hnone ?_
    unfold HealthConfig.pingPongClient
    dsimp only
    rw [hconnected, h.started i hconnected]
    rfl
  all_goals trivial

/-- Where the servers are counted before an event and after it, the event is within the
condition: the counter grows with every connection, and with nothing else does it change. -/
theorem healthGuard_of_counts (event : HealthEvent n) (hbefore : Counts cfg s)
    (hafter : Counts cfg (healthStep cfg s event)) : HealthGuard cfg s event := by
  unfold Counts at hbefore
  cases event with
  | connect i =>
    intro hcan
    by_contra hi
    dsimp only [healthStep] at hafter
    rw [if_pos hcan] at hafter
    have hcard : s.activePpConnection + 1 = (cfg.connectedServers (s.setClient i _)).card := hafter
    rw [connectedServers_setClient_same fun h => absurd h hi] at hcard
    omega
  | disconnect i byMe code closeFails =>
    intro hlocked hi
    by_contra hc
    have hconnected := Bool.eq_true_of_not_eq_false hc
    dsimp only [healthStep] at hafter
    rw [if_neg (by rw [hlocked]; exact Bool.false_ne_true)] at hafter
    have hcard : s.activePpConnection = (cfg.connectedServers (s.setClient i _)).card := hafter
    have hoff := HealthClient.disconnect_connected (c := s.client i) byMe code closeFails
    have hmem := HealthConfig.mem_connectedServers.mpr ⟨hi, hconnected⟩
    have hpos := Finset.card_pos.mpr ⟨i, hmem⟩
    rw [connectedServers_setClient_false hoff, Finset.card_erase_of_mem hmem] at hcard
    omega
  | connectFails => trivial
  | removeActive => trivial
  | pass => trivial
  | choose => trivial

end Runs

/-- **Exactly the runs in which no connected server is disconnected** keep the counter right, and
give every request that was let through a server. -/
theorem healthRight_iff (cfg : HealthConfig n) (events : List (HealthEvent n)) :
    HealthRight cfg events ↔ Always (healthStep cfg) (HealthGuard cfg) {} events := by
  constructor
  · rintro ⟨hcounts, -⟩
    refine always_iff.mpr fun before event after hsplit => ?_
    have hbefore := hcounts before (event :: after) hsplit
    have hafter := hcounts (before ++ [event]) after (by rw [hsplit, List.append_cons])
    rw [runFrom_append] at hafter
    exact healthGuard_of_counts event hbefore hafter
  · intro hguard
    have hstep : ∀ s event, HealthInv cfg s → HealthGuard cfg s event →
        ChoosesFrom cfg s event ∧ HealthInv cfg (healthStep cfg s event) :=
      fun s event h hevent => ⟨h.choosesFrom event, healthInv_step event h hevent⟩
    refine ⟨fun before after hsplit => ?_, (always_of_inv hstep healthInv_init hguard).1⟩
    rw [hsplit] at hguard
    exact (always_of_inv hstep healthInv_init hguard.of_append).2.counts

/-- A server closes the connection between the check of a request and its choice. -/
def oneServer : HealthConfig 1 where
  url _ := "http://app:8088"
  hashURL _ := "9a"
  hashURL_hex _ c hc := by
    rcases List.mem_cons.mp hc with rfl | hc
    · decide
    · rw [List.mem_singleton.mp hc]
      decide

/-- The counter stays, and the next request that it lets through gets an empty list. -/
theorem not_healthRight : ¬ ∀ (n : ℕ) (cfg : HealthConfig n) (events : List (HealthEvent n)),
    HealthRight cfg events := by
  intro h
  have hright := (h 1 oneServer
    [.connect 0, .disconnect 0 false 1000 false, .pass 0, .choose 0]).2.2.2.2.1
  exact hright (by decide) [0] (by unfold HealthConfig.MapOrder; decide) (by decide)

end Notifyr
