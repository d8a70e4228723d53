import Mathlib.Data.Int.CardIntervalMod
import Mathlib.Data.List.Perm.Basic
import Notifyr.Balancer.Health

/-!
# Round robin

`RoundRobbinAlgo` (`balancer/internal/algo/balancerAlgo.go`) over the lists that `ActiveServer`
makes of the map of clients, for one request that is not split after another.

- `RoundRobbinAlgo.next`: the index is kept by the algorithm, the list is the one of the request.
- `RoundRobbinAlgo.requests`: where requests are sent; each has its own order of the map.
- `FairRight`: whatever the orders, `k` requests for each server send `k` to each.
- `fairRight_iff`: the servers and the `k` for which this holds.
- `fair_of_sameOrder`: what the algorithm gives when every request sees the map in one order.
-/

namespace Notifyr

/-- Above this the index is reset. -/
def indexBound : ℕ := 1000000000000000

/-- `RoundRobbinAlgo`, between two requests. -/
structure RoundRobbinAlgo where
  index : ℕ := 0
  index_le : index ≤ indexBound := by decide

namespace RoundRobbinAlgo

/-- `RoundRobbinAlgo.Next`. -/
def next (round : RoundRobbinAlgo) (servers : List String) : GoResult String × RoundRobbinAlgo :=
  -- `atomic.AddUint64`
  let i := (round.index + 1) % 2 ^ 64
  let round : RoundRobbinAlgo := if h : i > indexBound then {} else ⟨i, Nat.le_of_not_lt h⟩
  if servers.length = 0 then (.panic "runtime error: integer divide by zero", round)
  else
    match servers[i % servers.length]? with
    | some server => (.ok server, round)
    | none => (.panic "runtime error: index out of range", round)

/-- What `ChooseServer` answers to requests that are not split, one after another: for each the
clients of the map in the order of that request. -/
def requests : RoundRobbinAlgo → List (List PingPongClient) → List (GoResult String)
  | _, [] => []
  | round, clients :: rest =>
    let (server, round) := round.next (activeServer clients)
    server :: round.requests rest

end RoundRobbinAlgo

/-- A request is sent to a server. -/
def sentTo (url : String) : GoResult String → Bool
  | .ok server => server == url
  | _ => false

/-- Each of the servers is sent exactly `k` of the requests. -/
def Fair (servers : List String) (k : ℕ) (results : List (GoResult String)) : Prop :=
  ∀ server ∈ servers, results.countP (sentTo server) = k

variable {n : ℕ}

/-- The active servers of a state of the health service. -/
def HealthConfig.activeServers (cfg : HealthConfig n) (s : HealthService n) : List String :=
  activeServer (((List.finRange n).filter fun i => cfg.InMap i).map (cfg.pingPongClient s))

/-- From a state of the algorithm on, `k` requests for each active server are shared out evenly,
in whatever order each of them ranges over the map. -/
def FairRight (cfg : HealthConfig n) (s : HealthService n) (round : RoundRobbinAlgo) (k : ℕ) :
    Prop :=
  ∀ orders : List (List (Fin n)), (∀ order ∈ orders, cfg.MapOrder order) →
    orders.length = k * (cfg.activeServers s).length →
      Fair (cfg.activeServers s) k
        (round.requests (orders.map fun order => order.map (cfg.pingPongClient s)))

/-! ## One request -/

section Next

variable (round : RoundRobbinAlgo) {servers : List String}

theorem RoundRobbinAlgo.add_index : (round.index + 1) % 2 ^ 64 = round.index + 1 := by
  refine Nat.mod_eq_of_lt (Nat.lt_of_le_of_lt (Nat.add_le_add_right round.index_le 1) ?_)
  decide

/-- The server at the place of the new index. -/
theorem RoundRobbinAlgo.next_ok {server : String}
    (h : servers[(round.index + 1) % servers.length]? = some server) :
    (round.next servers).1 = .ok server := by
  have hne : servers.length ≠ 0 := by
    intro hzero
    rw [List.length_eq_zero_iff.mp hzero] at h
    cases h
  unfold next
  rw [round.add_index]
  dsimp only
  rw [if_neg hne, h]

/-- The index counts the requests, up to the bound. -/
theorem RoundRobbinAlgo.next_index (h : round.index + 1 ≤ indexBound) :
    (round.next servers).2.index = round.index + 1 := by
  unfold next
  rw [round.add_index]
  dsimp only
  rw [dif_neg (Nat.not_lt.mpr h)]
  split_ifs
  · rfl
  · split <;> rfl

end Next

/-! ## The list of a request -/

section Order

variable {cfg : HealthConfig n} {s : HealthService n}

/-- The test of `ActiveServer`. -/
def isActive (cfg : HealthConfig n) (s : HealthService n) (i : Fin n) : Bool :=
  (cfg.pingPongClient s i).connected && (cfg.pingPongClient s i).isStarted

theorem activeServer_map (order : List (Fin n)) :
    activeServer (order.map (cfg.pingPongClient s)) =
      (order.filter (isActive cfg s)).map cfg.url := by
  unfold activeServer
  rw [List.filter_map, List.map_map]
  rfl

/-- The same servers, in whatever order the map is. -/
theorem activeServer_perm {order : List (Fin n)} (h : cfg.MapOrder order) :
    (activeServer (order.map (cfg.pingPongClient s))).Perm (cfg.activeServers s) := by
  unfold HealthConfig.activeServers activeServer
  exact ((h.map _).filter _).map _

/-- An active server stands at any place of the list, in some order of the map. -/
theorem exists_order_at {server : String} (h : server ∈ cfg.activeServers s) {place : ℕ}
    (hplace : place < (cfg.activeServers s).length) : ∃ order, cfg.MapOrder order ∧
      (activeServer (order.map (cfg.pingPongClient s)))[place]? = some server := by
  unfold HealthConfig.activeServers at h hplace
  rw [activeServer_map] at h hplace
  rw [List.length_map] at hplace
  obtain ⟨i, hi, rfl⟩ := List.mem_map.mp h
  have hlen := List.length_erase_of_mem hi
  have hactive : isActive cfg s i = true := (List.mem_filter.mp hi).2
  generalize hclients : ((List.finRange n).filter fun i => cfg.InMap i) = clients at *
  -- the active clients, `i` at its place, before the others
  have hinsert := List.perm_insertIdx i ((clients.filter (isActive cfg s)).erase i)
    (i := place) (by omega)
  refine ⟨((clients.filter (isActive cfg s)).erase i).insertIdx place i ++
    clients.filter (fun j => !isActive cfg s j), ?_, ?_⟩
  · unfold HealthConfig.MapOrder
    rw [hclients]
    have hperm := hinsert.trans (List.perm_cons_erase hi).symm
    exact (hperm.append_right _).trans (List.filter_append_perm (isActive cfg s) clients)
  · have hall : ∀ j ∈ ((clients.filter (isActive cfg s)).erase i).insertIdx place i,
        isActive cfg s j = true := by
      intro j hj
      rcases List.mem_cons.mp (hinsert.mem_iff.mp hj) with rfl | hmem
      · exact hactive
      · exact (List.mem_filter.mp (List.mem_of_mem_erase hmem)).2
    rw [activeServer_map, List.filter_append, List.filter_eq_self.mpr hall, List.filter_filter]
    have hnone : clients.filter (fun j => isActive cfg s j && !isActive cfg s j) = [] := by
      refine List.filter_eq_nil_iff.mpr fun j _ => ?_
      rw [Bool.and_not_self]
      exact Bool.false_ne_true
    rw [hnone, List.append_nil, List.getElem?_map, List.getElem?_insertIdx_self, if_pos (by omega)]
    rfl

end Order

/-! ## Sequences of requests -/

section Requests

variable {cfg : HealthConfig n} {s : HealthService n}

theorem requests_cons (round : RoundRobbinAlgo) (clients : List PingPongClient)
    (rest : List (List PingPongClient)) :
    round.requests (clients :: rest) = (round.next (activeServer clients)).1 ::
      (round.next (activeServer clients)).2.requests rest := rfl

theorem sentTo_ok (url : String) : sentTo url (.ok url) = true := beq_self_eq_true url

/-- An active server gets every request, in some orders of the map. -/
theorem exists_all_to {server : String} (h : server ∈ cfg.activeServers s) (count : ℕ)
    (round : RoundRobbinAlgo) : ∃ orders : List (List (Fin n)),
      (∀ order ∈ orders, cfg.MapOrder order) ∧ orders.length = count ∧
      round.requests (orders.map fun order => order.map (cfg.pingPongClient s)) =
        List.replicate count (.ok server) := by
  induction count generalizing round with
  | zero => exact ⟨[], fun _ hmem => (List.not_mem_nil hmem).elim, rfl, rfl⟩
  | succ count ih =>
    have hpos : 0 < (cfg.activeServers s).length := List.length_pos_of_mem h
    obtain ⟨order, horder, hat⟩ := exists_order_at h (Nat.mod_lt (round.index + 1) hpos)
    rw [← (activeServer_perm (s := s) horder).length_eq] at hat
    have hnext := round.next_ok hat
    obtain ⟨orders, horders, hlen, hrun⟩ :=
      ih (round.next (activeServer (order.map (cfg.pingPongClient s)))).2
    refine ⟨order :: orders, ?_, by rw [List.length_cons, hlen], ?_⟩
    · rintro other hother
      rcases List.mem_cons.mp hother with rfl | hmem
      · exact horder
      · exact horders other hmem
    · rw [List.map_cons, requests_cons, hnext, hrun, List.replicate_succ]

/-- With one server, every request goes to it. -/
theorem requests_single {server : String} (hone : cfg.activeServers s = [server])
    (orders : List (List (Fin n))) (horders : ∀ order ∈ orders, cfg.MapOrder order)
    (round : RoundRobbinAlgo) :
    round.requests (orders.map fun order => order.map (cfg.pingPongClient s)) =
      List.replicate orders.length (.ok server) := by
  induction orders generalizing round with
  | nil => rfl
  | cons order orders ih =>
    have hperm := activeServer_perm (s := s) (horders order List.mem_cons_self)
    rw [hone] at hperm
    have hservers := List.perm_singleton.mp hperm
    have hat : (activeServer (order.map (cfg.pingPongClient s)))[(round.index + 1) %
        (activeServer (order.map (cfg.pingPongClient s))).length]? = some server := by
      rw [hservers, List.length_singleton, Nat.mod_one]
      rfl
    rw [List.map_cons, requests_cons, round.next_ok hat,
      ih (fun other hother => horders other (List.mem_cons_of_mem _ hother)), List.length_cons,
      List.replicate_succ]

/-- **Only one server, or no request,** is shared out evenly in every order of the map: with two
servers, the orders can send every request to the same one. -/
theorem fairRight_iff (cfg : HealthConfig n) (s : HealthService n) (round : RoundRobbinAlgo)
    (k : ℕ) : FairRight cfg s round k ↔ (cfg.activeServers s).length ≤ 1 ∨ k = 0 := by
  constructor
  · intro h
    by_contra hnot
    rw [not_or, Nat.not_le] at hnot
    obtain ⟨htwo, hk⟩ := hnot
    obtain ⟨server, hserver⟩ := List.exists_mem_of_length_pos (Nat.lt_of_succ_lt htwo)
    obtain ⟨orders, horders, hlen, hrun⟩ :=
      exists_all_to hserver (k * (cfg.activeServers s).length) round
    have hfair := h orders horders hlen server hserver
    rw [hrun, List.countP_replicate, sentTo_ok, if_pos rfl] at hfair
    have hlt : k * 1 < k * (cfg.activeServers s).length :=
      Nat.mul_lt_mul_of_pos_left htwo (Nat.pos_of_ne_zero hk)
    omega
  · rintro (hone | rfl) orders horders hlen server hserver
    · have hlength : (cfg.activeServers s).length = 1 :=
        Nat.le_antisymm hone (List.length_pos_of_mem hserver)
      obtain ⟨only, honly⟩ := List.length_eq_one_iff.mp hlength
      rw [honly] at hserver
      obtain rfl := List.mem_singleton.mp hserver
      rw [requests_single honly orders horders, List.countP_replicate, sentTo_ok, if_pos rfl, hlen,
        hlength, Nat.mul_one]
    · rw [Nat.zero_mul] at hlen
      rw [List.eq_nil_of_length_eq_zero hlen]
      rfl

/-- Two servers, both connected. -/
def twoServers : HealthConfig 2 where
  url i := if i = 0 then "http://a:8088" else "http://b:8088"
  hashURL url := if url = "http://a:8088" then "a" else "b"
  hashURL_hex url c hc := by
    split_ifs at hc
    · rw [List.mem_singleton.mp hc]
      decide
    · rw [List.mem_singleton.mp hc]
      decide

/-- The second request sees the map the other way round, and goes to the server of the first. -/
theorem not_fairRight : ¬ ∀ (n : ℕ) (cfg : HealthConfig n) (s : HealthService n)
    (round : RoundRobbinAlgo) (k : ℕ), 1 ≤ (cfg.activeServers s).length →
      FairRight cfg s round k := by
  intro h
  let s : HealthService 2 := { client := fun _ => { connected := true, isStarted := true } }
  have hfair := h 2 twoServers s {} 1 (by decide) [[0, 1], [1, 0]]
    (by unfold HealthConfig.MapOrder; decide) (by decide) "http://b:8088" (by decide)
  revert hfair
  decide

end Requests

/-! ## One order -/

section SameOrder

/-- As many of `k * n` numbers in a row as `k` have a given remainder. -/
theorem count_mod_window {n place : ℕ} (hplace : place < n) (start k : ℕ) :
    Nat.count (fun t => (start + t) % n = place) (k * n) = k := by
  have hmod : ∀ b, Nat.count (fun t => t % n = place) b =
      b / n + if place < b % n then 1 else 0 := by
    intro b
    have := Nat.count_modEq_card b (Nat.zero_lt_of_lt hplace) place
    simpa only [Nat.ModEq, Nat.mod_eq_of_lt hplace] using this
  have hadd := Nat.count_add (fun t => t % n = place) start (k * n)
  rw [hmod, hmod, Nat.add_mul_div_right _ _ (Nat.zero_lt_of_lt hplace),
    Nat.add_mul_mod_self_right] at hadd
  omega

/-- Where the lists are one and the index is not reset, the places follow one another. -/
theorem countP_requests {servers : List String} (hnodup : servers.Nodup) {place : ℕ}
    (hplace : place < servers.length) (lists : List (List PingPongClient))
    (hsame : ∀ clients ∈ lists, activeServer clients = servers) (round : RoundRobbinAlgo)
    (hindex : round.index + lists.length ≤ indexBound) :
    (round.requests lists).countP (sentTo servers[place]) =
      Nat.count (fun t => (round.index + 1 + t) % servers.length = place) lists.length := by
  induction lists generalizing round with
  | nil => rfl
  | cons clients rest ih =>
    have hpos : 0 < servers.length := Nat.zero_lt_of_lt hplace
    have hlt : (round.index + 1) % servers.length < servers.length := Nat.mod_lt _ hpos
    have hclients := hsame clients List.mem_cons_self
    have hok := round.next_ok (List.getElem?_eq_getElem hlt)
    rw [List.length_cons] at hindex
    have hstep : (round.next servers).2.index = round.index + 1 := round.next_index (by omega)
    rw [requests_cons, hclients, List.countP_cons, hok, List.length_cons, Nat.count_succ',
      ih (fun other hother => hsame other (List.mem_cons_of_mem _ hother)) _ (by omega), hstep]
    congr 1
    · congr 1
      funext t
      rw [Nat.add_right_comm (round.index + 1) 1 t, Nat.add_assoc (round.index + 1) t 1]
    · exact if_congr (beq_iff_eq.trans hnodup.getElem_inj_iff) rfl rfl

/-- **Round robin proper**: requests that see the map in one order, before the index is reset, are
shared out evenly. -/
theorem fair_of_sameOrder {servers : List String} (hnodup : servers.Nodup)
    (lists : List (List PingPongClient)) (hsame : ∀ clients ∈ lists, activeServer clients = servers)
    (k : ℕ) (hlen : lists.length = k * servers.length) (round : RoundRobbinAlgo)
    (hindex : round.index + lists.length ≤ indexBound) :
    Fair servers k (round.requests lists) := by
  intro server hserver
  obtain ⟨place, hplace, rfl⟩ := List.mem_iff_getElem.mp hserver
  rw [countP_requests hnodup hplace lists hsame round hindex, hlen]
  exact count_mod_window hplace _ k

end SameOrder

end Notifyr
