import Notifyr.Theory.Pipe

/-!
# The relay of a WebSocket

`WSHandler` (`balancer/websocket/balancerWebsocket.go`), which passes the messages of a client on to
an internal server, and the server's back, in two goroutines.

- `wsHandler`: the handler, with any messages, failures and order of turns.
- `relay_faithful`: what each side gets is the beginning of what the other sent.
- `relay_leaks`: as long as the server neither sends nor closes, the handler does not return, even
  long after the client has gone.
- `relay_returns`: once both sides have closed, it returns.
-/

namespace Notifyr

open Theory

variable {M : Type} (json : M → Option M) (protocol : String)

/-- What the client is sent for a message of the server; `json` is `json.Unmarshal` into a map, and
then `WriteJSON`. -/
def toClient (message : M) : Option M :=
  if protocol = "text" then some message else json message

/-- The two loops, and whether the handler has returned. -/
structure Relay (M : Type) where
  /-- From the client to the server: the loop of the handler itself. -/
  up : Pipe M M := {}
  /-- From the server to the client: the goroutine, which closes `done` at its end. -/
  down : Pipe M M := {}
  returned : Bool := false

inductive RelayEvent (M : Type)
  | up (a : PipeAction M)
  | down (a : PipeAction M)
  /-- The handler gets to `<-done`, or has its turn there. -/
  | wait

def relayStep (r : Relay M) : RelayEvent M → Relay M
  | .up a => { r with up := r.up.step some a }
  | .down a => { r with down := r.down.step (toClient json protocol) a }
  | .wait => { r with returned := r.returned || (!r.up.running && !r.down.running) }

/-- `WSHandler`, from where both connections are open. -/
def wsHandler (run : List (RelayEvent M)) : Relay M :=
  runFrom (relayStep json protocol) {} run

/-- What happens on the side of the client. -/
def upOf : RelayEvent M → Option (PipeAction M)
  | .up a => some a
  | _ => none

/-- What happens on the side of the server. -/
def downOf : RelayEvent M → Option (PipeAction M)
  | .down a => some a
  | _ => none

variable {json protocol} {r : Relay M} {run : List (RelayEvent M)}

/-- Neither loop takes notice of the other. -/
theorem up_run : (runFrom (relayStep json protocol) r run).up =
    runFrom (Pipe.step some) r.up (run.filterMap upOf) := by
  induction run generalizing r with
  | nil => rfl
  | cons e run ih => cases e <;> exact ih

theorem down_run : (runFrom (relayStep json protocol) r run).down =
    runFrom (Pipe.step (toClient json protocol)) r.down (run.filterMap downOf) := by
  induction run generalizing r with
  | nil => rfl
  | cons e run ih => cases e <;> exact ih

theorem wsHandler_up : (wsHandler json protocol run).up =
    runFrom (Pipe.step some) {} (run.filterMap upOf) := up_run

theorem wsHandler_down : (wsHandler json protocol run).down =
    runFrom (Pipe.step (toClient json protocol)) {} (run.filterMap downOf) := down_run

/-- The handler has returned only where both loops have ended. -/
def Joined (r : Relay M) : Prop :=
  r.returned = true → r.up.running = false ∧ r.down.running = false

theorem joined_step (h : Joined r) (e : RelayEvent M) : Joined (relayStep json protocol r e) := by
  cases e with
  | up a => exact fun hr => ⟨Pipe.ended_step (h hr).1 a, (h hr).2⟩
  | down a => exact fun hr => ⟨(h hr).1, Pipe.ended_step (h hr).2 a⟩
  | wait =>
    intro hr
    rcases (Bool.or_eq_true _ _).mp hr with hr | hr
    · exact h hr
    · have hends : r.up.running = false ∧ r.down.running = false := by simpa using hr
      exact hends

theorem joined_run : Joined (wsHandler json protocol run) := by
  have h : ∀ r : Relay M, Joined r → Joined (runFrom (relayStep json protocol) r run) := by
    induction run with
    | nil => exact fun r hr => hr
    | cons e run ih => exact fun r hr => ih _ (joined_step hr e)
  exact h _ nofun

/-- **What each side gets**, in every run: the beginning of what the other sent, in its order and
each message once; and all but what is on its way, while the loop runs. -/
theorem relay_faithful (json : M → Option M) (protocol : String) (run : List (RelayEvent M)) :
    let r := wsHandler json protocol run
    (r.up.written <+: r.up.sent ∧ (r.up.running = true → r.up.sent = r.up.written ++ r.up.queue)) ∧
      r.down.written.map some <+: r.down.sent.map (toClient json protocol) ∧
      (r.down.running = true → r.down.sent.map (toClient json protocol) =
        r.down.written.map some ++ r.down.queue.map (toClient json protocol)) := by
  intro r
  have hup : Pipe.Faithful some r.up := by
    rw [show r.up = _ from wsHandler_up]
    exact Pipe.faithful_run
  have hdown : Pipe.Faithful (toClient json protocol) r.down := by
    rw [show r.down = _ from wsHandler_down]
    exact Pipe.faithful_run
  have hinj : Function.Injective (List.map (some (α := M))) :=
    List.map_injective_iff.mpr fun _ _ h => Option.some.inj h
  refine ⟨⟨?_, fun hrunning => ?_⟩, hdown.isPrefix, hdown.eq_append⟩
  · obtain ⟨read, rest, hsent, hwritten⟩ := hup.begins
    rw [hsent, hinj hwritten]
    exact List.prefix_append _ _
  · obtain ⟨read, hall, hwritten⟩ := hup.all hrunning
    rw [hall, hinj hwritten]

/-- **A silent server holds the handler**: as long as it neither closes nor is lost, and the client
can be sent what it says, the handler does not return, whatever the client does. -/
theorem relay_leaks {run : List (RelayEvent M)}
    (hserver : ∀ a, .down a ∈ run → Pipe.Live (toClient json protocol) a) :
    (wsHandler json protocol run).returned = false := by
  have hopen : Pipe.Open (toClient json protocol) (wsHandler json protocol run).down := by
    rw [wsHandler_down]
    refine Pipe.open_run (fun a ha => ?_) ⟨rfl, rfl, List.forall_mem_nil _⟩
    obtain ⟨e, he, hea⟩ := List.mem_filterMap.mp ha
    cases e with
    | down b =>
      obtain rfl := Option.some.inj hea
      exact hserver b he
    | _ => cases hea
  by_contra hreturned
  rw [Bool.not_eq_false] at hreturned
  exact Bool.false_ne_true ((joined_run hreturned).2.symm.trans hopen.running)

/-- The client has gone, and the server is silent. -/
theorem relay_leaks_gone : (wsHandler (fun m : ℕ => some m) "json"
    [.up (.send 1), .up .close, .up (.turn true), .up (.turn true), .wait]).returned = false :=
  relay_leaks fun a ha => by simp at ha

/-- **Once both sides have closed**, the handler returns, after enough turns of both loops, in
whatever order these come. -/
theorem relay_returns {before after : List (RelayEvent M)}
    (hup : (wsHandler json protocol before).up.closed = true)
    (hdown : (wsHandler json protocol before).down.closed = true)
    (hups : (wsHandler json protocol before).up.queue.length < Pipe.turns (after.filterMap upOf))
    (hdowns : (wsHandler json protocol before).down.queue.length <
      Pipe.turns (after.filterMap downOf)) :
    (wsHandler json protocol (before ++ (after ++ [.wait]))).returned = true := by
  unfold wsHandler at *
  rw [runFrom_append, runFrom_append]
  have hupEnd : (runFrom (relayStep json protocol)
      (runFrom (relayStep json protocol) {} before) after).up.running = false := by
    rw [up_run]
    exact Pipe.closed_run hup hups
  have hdownEnd : (runFrom (relayStep json protocol)
      (runFrom (relayStep json protocol) {} before) after).down.running = false := by
    rw [down_run]
    exact Pipe.closed_run hdown hdowns
  rw [runFrom_cons, runFrom_nil]
  simp [relayStep, hupEnd, hdownEnd]

/-- The client leaves a message behind, and the server has closed too. -/
theorem relay_returns_closed : (wsHandler (fun m : ℕ => some m) "json"
    ([.up (.send 1), .up .close, .down .close] ++
      ([.down (.turn true), .up (.turn true), .up (.turn true)] ++ [.wait]))).returned = true :=
  relay_returns rfl rfl (by decide) (by decide)

end Notifyr
