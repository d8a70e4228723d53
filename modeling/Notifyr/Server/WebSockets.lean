import Mathlib.Algebra.Order.Ring.Rat
import Mathlib.Logic.Function.Basic
import Notifyr.Auth.Token
import Notifyr.Theory.Sweep

/-!
# WebSocket connections

`WSConnectionManager` and the wrapper of an endpoint (`app/definition/_ws.py`): connections come and
go while `disconnectAll` goes over the list of active ones.

- `onConnect`: the check of the token of a connection.
- `WsRun`: the active connections and the loop over them, with how far each endpoint has come.
- `WsRun.Inv`: who is active, in every order of events.
- `ws_active_iff`, `disconnectAll_missed`: what this says of any run.
- `disconnectAll_leaving`: where each closed connection leaves at once, half of them are not closed.
-/

namespace Notifyr

open Theory

/-- `WSPermission`, as far as it is checked. -/
structure WSPermission where
  runId : String
  operationId : String
  expiredAt : ℚ

/-- What a connection comes with. -/
structure WsConnection where
  header : Option String
  /-- `time.time()` at the check. -/
  time : ℚ
  /-- `websocket.accept()` returns. -/
  accepts : Bool

/-- The resource, for the connections of one path. -/
structure WsRessource where
  runId : String
  operationId : String
  /-- `_decode_token(auth_token, 'WS_JWT_SECRET_KEY')`. -/
  decode : String → Py WSPermission
  bypassAuth : Bool := false

/-- `on_connect`; without a token it returns no pair, and the wrapper fails to unpack it. -/
def WsRessource.onConnect (ressource : WsRessource) (websocket : WsConnection) :
    Py (Bool × String) :=
  if ressource.bypassAuth then .ok (true, "")
  else
    match websocket.header with
    | none => .error .typeError
    | some token =>
      match ressource.decode token with
      | .error (.httpException _ _) => .ok (false, "Token Invalid")
      | .error e => .error e
      | .ok permission =>
        if ressource.runId ≠ permission.runId then .ok (false, "Invalid token issuer")
        else if ressource.operationId ≠ permission.operationId then
          .ok (false, "Invalid token route")
        else if permission.expiredAt < websocket.time then .ok (false, "Token expired")
        else .ok (true, "")

/-- A text in a claims record. -/
def getText (permission : Claims) (k : String) : Py String := do
  match ← getItem permission k with
  | .text s => .ok s
  | _ => .error .typeError

/-- The decoder of `JWTAuthService`, after some calls of it. -/
def wsDecode (env : JwtEnv) (calls : List (String × Option String × ℚ)) (now : ℚ) (token : String) :
    Py WSPermission := do
  let permission ← (decodeToken env (cacheAfter env calls) token (some "WS_JWT_SECRET_KEY") now).1
  let runId ← getText permission "run_id"
  let operationId ← getText permission "operation_id"
  let expiredAt ← getNumber permission "expired_at"
  return { runId, operationId, expiredAt }

/-- How `websocket.close` ends. -/
inductive CloseEnd
  | returns
  | runtimeError
  | otherError
  deriving DecidableEq, Repr

/-- How far the wrapper of a connection has come. -/
inductive WsPhase
  | absent
  /-- It has ended before `connect`. -/
  | refused
  | running
  | left
  deriving DecidableEq, Repr

/-- What happens: a wrapper runs up to its loop, ends in its `finally`, or `disconnectAll` takes a
turn, with how the `close` of that turn ends. -/
inductive WsEvent (κ : Type)
  | connect (w : κ)
  | leave (w : κ)
  | turn (close : CloseEnd)

/-- The manager of a path: the sweep is over `active_connections`, and its visits are the calls of
`close` by `disconnectAll`. -/
structure WsRun (κ : Type) where
  loop : Sweep κ := { items := [] }
  /-- An exception has ended `disconnectAll`, or it has come to the end of the list. -/
  ended : Bool := false
  phase : κ → WsPhase := fun _ => .absent

section Run

variable {κ : Type} [DecidableEq κ] (ressource : WsRessource) (conn : κ → WsConnection)
  (close : κ → CloseEnd)

/-- One event; `close` is how the `close` in the `disconnect` of a connection ends. -/
def WsRun.step (s : WsRun κ) : WsEvent κ → WsRun κ
  | .connect w =>
    if s.phase w ≠ .absent then s
    else
      match ressource.onConnect (conn w) with
      | .ok (true, _) =>
        { s with
          loop := if (conn w).accepts then s.loop.step (.append w) else s.loop
          phase := Function.update s.phase w .running }
      | _ => { s with phase := Function.update s.phase w .refused }
  | .leave w =>
    if s.phase w ≠ .running then s
    else
      { s with
        loop := if close w = .otherError then s.loop else s.loop.step (.remove w)
        phase := Function.update s.phase w .left }
  | .turn out =>
    if s.ended then s
    else if s.loop.items.length ≤ s.loop.next then { s with ended := true }
    else { s with loop := s.loop.step .visit, ended := out = .otherError }

/-- The manager after some events. -/
def wsRun (events : List (WsEvent κ)) : WsRun κ :=
  runFrom (WsRun.step ressource conn close) {} events

/-- A connection that `connect` puts in the list. -/
def Admitted (w : κ) : Prop :=
  (∃ reason, ressource.onConnect (conn w) = .ok (true, reason)) ∧ (conn w).accepts = true

/-- What holds after any events. -/
structure WsRun.Inv (s : WsRun κ) : Prop where
  loop : s.loop.Inv
  active : ∀ w, w ∈ s.loop.items ↔ Admitted ressource conn w ∧
    (s.phase w = .running ∨ s.phase w = .left ∧ close w = .otherError)
  visited : ∀ w ∈ s.loop.visited, s.phase w ≠ .absent

variable {ressource conn close}

/-- A token that was issued by this run, for this path, and has not expired. -/
def Authorised (ressource : WsRessource) (websocket : WsConnection) : Prop :=
  ∃ token permission, websocket.header = some token ∧ ressource.decode token = .ok permission ∧
    permission.runId = ressource.runId ∧ permission.operationId = ressource.operationId ∧
      websocket.time ≤ permission.expiredAt

/-- Who the check lets through. -/
theorem onConnect_true_iff (websocket : WsConnection) :
    (∃ reason, ressource.onConnect websocket = .ok (true, reason)) ↔
      ressource.bypassAuth = true ∨ Authorised ressource websocket := by
  unfold WsRessource.onConnect Authorised
  cases hbypass : ressource.bypassAuth with
  | true => simp
  | false =>
    cases hheader : websocket.header with
    | none => simp
    | some token =>
      cases hdecode : ressource.decode token with
      | error e => cases e <;> simp [hdecode]
      | ok permission =>
        by_cases hrun : ressource.runId = permission.runId
        · by_cases hoperation : ressource.operationId = permission.operationId
          · by_cases htime : permission.expiredAt < websocket.time
            · simp [hdecode, hrun, hoperation, htime, not_le.mpr htime]
            · simp [hdecode, hrun, hoperation, htime, not_lt.mp htime]
          · simp [hdecode, hrun, hoperation, Ne.symm hoperation]
        · simp [hdecode, hrun, Ne.symm hrun]

variable {s : WsRun κ}

/-- A wrapper comes further. -/
theorem WsRun.Inv.further (h : s.Inv ressource conn close) {w : κ} {phase : WsPhase}
    {loop : Sweep κ} (hphase : phase ≠ .absent) (hloop : loop.Inv)
    (hvisited : loop.visited = s.loop.visited)
    (hothers : ∀ v, v ≠ w → (v ∈ loop.items ↔ v ∈ s.loop.items))
    (hw : w ∈ loop.items ↔ Admitted ressource conn w ∧
      (phase = .running ∨ phase = .left ∧ close w = .otherError)) :
    ({ s with loop, phase := Function.update s.phase w phase } : WsRun κ).Inv
      ressource conn close := by
  refine ⟨hloop, fun v => ?_, fun v hv => ?_⟩
  · dsimp only
    by_cases hvw : v = w
    · rw [hvw, Function.update_self]
      exact hw
    · rw [Function.update_of_ne hvw, hothers v hvw]
      exact h.active v
  · dsimp only at hv ⊢
    by_cases hvw : v = w
    · rw [hvw, Function.update_self]
      exact hphase
    · rw [Function.update_of_ne hvw]
      exact h.visited v (hvisited ▸ hv)

theorem WsRun.Inv.connect (h : s.Inv ressource conn close) (w : κ) :
    (s.step ressource conn close (.connect w)).Inv ressource conn close := by
  unfold WsRun.step
  dsimp only
  by_cases hphase : s.phase w = .absent
  · -- a connection that is active has come before
    have hitems : w ∉ s.loop.items := by
      intro hmem
      rcases ((h.active w).mp hmem).2 with hrun | ⟨hleft, -⟩
      · cases hphase.symm.trans hrun
      · cases hphase.symm.trans hleft
    rw [if_neg (not_not.mpr hphase)]
    split
    · next reason hcheck =>
      split_ifs with haccepts
      · refine h.further (by decide)
          (h.loop.append ⟨hitems, fun hvisited => h.visited w hvisited hphase⟩) rfl
          (fun v hv => by simp [Sweep.step, hv]) ?_
        exact iff_of_true (List.mem_append_right _ (List.mem_singleton_self w))
          ⟨⟨⟨reason, hcheck⟩, haccepts⟩, .inl rfl⟩
      · exact h.further (by decide) h.loop rfl (fun v _ => Iff.rfl)
          (iff_of_false hitems fun hin => haccepts hin.1.2)
    · next hcheck =>
      refine h.further (by decide) h.loop rfl (fun v _ => Iff.rfl)
        (iff_of_false hitems fun hin => ?_)
      obtain ⟨reason, hreason⟩ := hin.1.1
      exact hcheck reason hreason
  · rw [if_pos hphase]
    exact h

theorem WsRun.Inv.leave (h : s.Inv ressource conn close) (w : κ) :
    (s.step ressource conn close (.leave w)).Inv ressource conn close := by
  unfold WsRun.step
  dsimp only
  by_cases hphase : s.phase w = .running
  · rw [if_neg (not_not.mpr hphase)]
    split_ifs with hclose
    -- what `close` raises keeps the wrapper from removing the connection
    · refine h.further (by decide) h.loop rfl (fun v _ => Iff.rfl) ((h.active w).trans ?_)
      exact and_congr_right fun _ => iff_of_true (.inl hphase) (.inr ⟨rfl, hclose⟩)
    · refine h.further (by decide) (h.loop.remove w) rfl (fun v hv => List.mem_erase_of_ne hv) ?_
      refine iff_of_false (h.loop.items.not_mem_erase) fun hin => ?_
      rcases hin.2 with hrun | ⟨-, hother⟩
      · cases hrun
      · exact hclose hother
  · rw [if_pos hphase]
    exact h

theorem WsRun.Inv.turn (h : s.Inv ressource conn close) (out : CloseEnd) :
    (s.step ressource conn close (.turn out)).Inv ressource conn close := by
  unfold WsRun.step
  dsimp only
  split_ifs with hended hend
  · exact h
  · exact ⟨h.loop, h.active, h.visited⟩
  · obtain ⟨w, hw⟩ : ∃ w, s.loop.items[s.loop.next]? = some w :=
      ⟨_, List.getElem?_eq_getElem (Nat.lt_of_not_le hend)⟩
    have hitems : (s.loop.step .visit).items = s.loop.items := by
      unfold Sweep.step
      rw [hw]
    have hvisited : (s.loop.step .visit).visited = s.loop.visited ++ [w] := by
      unfold Sweep.step
      rw [hw]
    refine ⟨h.loop.visit, fun v => ?_, fun v hv => ?_⟩
    · rw [hitems]
      exact h.active v
    · rw [hvisited] at hv
      rcases List.mem_append.mp hv with hv | hv
      · exact h.visited v hv
      · rw [List.mem_singleton] at hv
        have hin := ((h.active w).mp (List.mem_of_getElem? hw)).2
        rw [hv]
        rcases hin with hin | ⟨hin, -⟩ <;> rw [hin] <;> decide

/-- **Any events.** -/
theorem wsRun_inv (events : List (WsEvent κ)) :
    (wsRun ressource conn close events).Inv ressource conn close := by
  have hall : Always (WsRun.step ressource conn close) (fun _ _ => True) {} events :=
    always_iff.mpr fun _ _ _ _ => trivial
  refine (always_of_inv (Q := fun _ _ => True) (fun s e h _ => ⟨trivial, ?_⟩) ?_ hall).2
  · cases e with
    | connect w => exact h.connect w
    | leave w => exact h.leave w
    | turn out => exact h.turn out
  · refine ⟨Sweep.inv_init List.nodup_nil, fun w => iff_of_false List.not_mem_nil ?_, ?_⟩
    · rintro ⟨-, hphase | ⟨hphase, -⟩⟩ <;> cases hphase
    · exact List.forall_mem_nil _

/-- **Who is active.** After any events, in any order, the active connections are those that came
with a token issued by this run for this path, not expired then, and were accepted, less those that
have left; a connection whose `close` fails with anything but a `RuntimeError` never leaves the
list. -/
theorem ws_active_iff (ressource : WsRessource) (conn : κ → WsConnection) (close : κ → CloseEnd)
    (events : List (WsEvent κ)) (w : κ) :
    let s := wsRun ressource conn close events
    w ∈ s.loop.items ↔
      (ressource.bypassAuth = true ∨ Authorised ressource (conn w)) ∧ (conn w).accepts = true ∧
      (s.phase w = .running ∨ s.phase w = .left ∧ close w = .otherError) := by
  intro s
  rw [← onConnect_true_iff, ← and_assoc]
  exact (wsRun_inv events).active w

/-- The decoder of the application refuses every token, so that nobody ever becomes active. -/
theorem ws_none_active (env : JwtEnv) (calls : List (String × Option String × ℚ)) (now : ℚ)
    (runId operationId : String) (conn : κ → WsConnection) (close : κ → CloseEnd)
    (events : List (WsEvent κ)) :
    (wsRun { runId, operationId, decode := wsDecode env calls now } conn close
      events).loop.items = [] := by
  refine List.eq_nil_iff_forall_not_mem.mpr fun w hw => ?_
  obtain ⟨⟨hconnect, -⟩, -⟩ := ((wsRun_inv events).active w).mp hw
  rcases (onConnect_true_iff _).mp hconnect with hbypass | ⟨token, permission, -, hdecode, -⟩
  · cases hbypass
  · simp only [wsDecode, cacheAfter_nil, decodeToken_nil] at hdecode
    cases hdecode

/-- **`disconnectAll`.** In any order of events it closes no connection twice, and when it comes to
the end of the list, the active connections it has not closed are no more than the closed ones that
have left. -/
theorem disconnectAll_missed (ressource : WsRessource) (conn : κ → WsConnection)
    (close : κ → CloseEnd) (events : List (WsEvent κ)) :
    let s := wsRun ressource conn close events
    s.loop.visited.Nodup ∧ (s.loop.items.length ≤ s.loop.next →
      unvisited s.loop.visited s.loop.items ≤ s.loop.lost) :=
  ⟨(wsRun_inv events).loop.visited, (wsRun_inv events).loop.unvisited_le⟩

/-! ## Where everyone leaves -/

/-- `disconnectAll`, where each connection that it closes leaves before its next turn. -/
def shutdown (l : List κ) : List (WsEvent κ) :=
  (evens l).flatMap fun w => [.turn .returns, .leave w]

/-- All connections of a list come in. -/
theorem run_connects (l : List κ) (s : WsRun κ) (hnodup : l.Nodup)
    (habsent : ∀ w ∈ l, s.phase w = .absent) (hadmitted : ∀ w ∈ l, Admitted ressource conn w) :
    ∃ phase, runFrom (WsRun.step ressource conn close) s (l.map .connect) =
        { loop := { s.loop with items := s.loop.items ++ l }, ended := s.ended, phase } ∧
      ∀ w, phase w = if w ∈ l then .running else s.phase w := by
  induction l generalizing s with
  | nil => exact ⟨s.phase, by simp, fun w => by simp⟩
  | cons a l ih =>
    obtain ⟨ha, hl⟩ := List.nodup_cons.mp hnodup
    obtain ⟨⟨reason, hcheck⟩, haccepts⟩ := hadmitted a List.mem_cons_self
    have hstep : s.step ressource conn close (.connect a) =
        { s with
          loop := s.loop.step (.append a)
          phase := Function.update s.phase a .running } := by
      unfold WsRun.step
      dsimp only
      rw [if_neg (not_not.mpr (habsent a List.mem_cons_self)), hcheck]
      dsimp only
      rw [if_pos haccepts]
    obtain ⟨phase, hrun, hphase⟩ := ih (s.step ressource conn close (.connect a)) hl
      (fun w hw => by
        rw [hstep]
        dsimp only
        have hne : w ≠ a := fun h => ha (h ▸ hw)
        rw [Function.update_of_ne hne]
        exact habsent w (List.mem_cons_of_mem _ hw))
      (fun w hw => hadmitted w (List.mem_cons_of_mem _ hw))
    refine ⟨phase, ?_, fun w => ?_⟩
    · rw [List.map_cons, runFrom_cons, hrun, hstep]
      simp [Sweep.step]
    · rw [hphase w, hstep]
      by_cases hw : w = a
      · simp [hw, ha]
      · simp [hw]

/-- A turn of the loop and the leave after it are a turn of the sweep. -/
theorem run_shutdown (l before visited : List κ) (lost : ℕ) (phase : κ → WsPhase)
    (hnodup : (before ++ l).Nodup) (hrunning : ∀ w ∈ l, phase w = .running)
    (hclose : ∀ w ∈ l, close w ≠ .otherError) :
    let loop : Sweep κ := { items := before ++ l, next := before.length, visited, lost }
    (runFrom (WsRun.step ressource conn close) { loop, phase } (shutdown l)).loop =
      runFrom Sweep.step loop (leaving l) := by
  have hstep : ∀ (a : κ) (rest before visited : List κ) (lost : ℕ) (phase : κ → WsPhase),
      phase a = .running → close a ≠ .otherError →
      runFrom (WsRun.step ressource conn close)
          { loop := { items := before ++ a :: rest, next := before.length, visited, lost }, phase }
          [.turn .returns, .leave a] =
        { loop := runFrom Sweep.step
            { items := before ++ a :: rest, next := before.length, visited, lost }
            [.visit, .remove a]
          phase := Function.update phase a .left } := by
    intro a rest before visited lost phase hphase ha
    have hlt : ¬ (before ++ a :: rest).length ≤ before.length := by
      rw [List.length_append, List.length_cons]
      omega
    simp only [runFrom_cons, runFrom_nil, WsRun.step, Bool.false_eq_true, if_false, hlt]
    simp [hphase, ha]
  induction l using evens.induct generalizing before visited lost phase with
  | case1 => rfl
  | case2 a =>
    intro loop
    have hshutdown : shutdown [a] = [.turn .returns, .leave a] := rfl
    rw [hshutdown, hstep a [] before visited lost phase (hrunning a List.mem_cons_self)
      (hclose a List.mem_cons_self)]
    rfl
  | case3 a b rest ih =>
    intro loop
    have hnot : a ∉ before :=
      fun ha => (List.nodup_append.mp hnodup).2.2 a ha a List.mem_cons_self rfl
    have hrest : (before ++ [b] ++ rest).Nodup := by
      rw [List.append_assoc]
      exact hnodup.sublist ((List.sublist_cons_self a _).append_left before)
    have hne : ∀ w ∈ rest, w ≠ a := by
      rintro w hw rfl
      exact (List.nodup_cons.mp (List.nodup_append.mp hnodup).2.1).1 (List.mem_cons_of_mem _ hw)
    have hshutdown : shutdown (a :: b :: rest) =
        [.turn .returns, .leave a] ++ shutdown rest := rfl
    have hleaving : leaving (a :: b :: rest) = [.visit, .remove a] ++ leaving rest := rfl
    have hturn := ih (before ++ [b]) (visited ++ [a]) (lost + 1) (Function.update phase a .left)
      hrest (fun w hw => by
        rw [Function.update_of_ne (hne w hw)]
        exact hrunning w (List.mem_cons_of_mem _ (List.mem_cons_of_mem _ hw)))
      (fun w hw => hclose w (List.mem_cons_of_mem _ (List.mem_cons_of_mem _ hw)))
    -- the removed one leaves a gap: the loop passes over `b`
    dsimp only at hturn
    rw [List.append_assoc before, List.length_append] at hturn
    rw [hshutdown, hleaving, runFrom_append, runFrom_append,
      hstep a (b :: rest) before visited lost phase (hrunning a List.mem_cons_self)
        (hclose a List.mem_cons_self), run_visit_remove hnot]
    exact hturn

/-- **Half of them.** Where every connection leaves as soon as `disconnectAll` has closed it, the
loop closes every other connection and is at the end of the list. -/
theorem disconnectAll_leaving {l : List κ} (hnodup : l.Nodup)
    (hadmitted : ∀ w ∈ l, Admitted ressource conn w) (hclose : ∀ w ∈ l, close w ≠ .otherError) :
    let s := wsRun ressource conn close (l.map .connect ++ shutdown l)
    s.loop.visited = evens l ∧ s.loop.visited.length = (l.length + 1) / 2 ∧
      s.loop.items.length ≤ s.loop.next := by
  intro s
  obtain ⟨phase, hrun, hphase⟩ := @run_connects _ _ ressource conn close l {} hnodup
    (fun _ _ => rfl) hadmitted
  have hs : s.loop = runFrom Sweep.step { items := l } (leaving l) := by
    have hrunning : ∀ w ∈ l, phase w = .running := fun w hw => by rw [hphase w, if_pos hw]
    have hloop := @run_shutdown _ _ ressource conn close l [] [] 0 phase hnodup hrunning hclose
    simp only [s, wsRun]
    rw [runFrom_append, hrun]
    exact hloop
  obtain ⟨hvisited, hend⟩ := sweep_evens [] l [] 0 hnodup
  rw [hs]
  refine ⟨hvisited, ?_, hend⟩
  rw [← length_evens]
  exact congrArg List.length hvisited

/-- Three connections: the second is not closed. -/
theorem disconnectAll_leaving_three :
    let ressource : WsRessource :=
      { runId := "run", operationId := "pong", decode := fun _ => .ok ⟨"run", "pong", 10⟩ }
    let conn : ℕ → WsConnection := fun _ => { header := some "token", time := 0, accepts := true }
    let close : ℕ → CloseEnd := fun _ => .runtimeError
    let s := wsRun ressource conn close ([0, 1, 2].map .connect ++ shutdown [0, 1, 2])
    s.loop.visited = evens [0, 1, 2] ∧ s.loop.visited.length = ([0, 1, 2].length + 1) / 2 ∧
      s.loop.items.length ≤ s.loop.next :=
  disconnectAll_leaving (by decide)
    (fun _ _ => ⟨⟨"", by simp [WsRessource.onConnect]⟩, rfl⟩) (fun _ _ => nofun)

end Run

end Notifyr
