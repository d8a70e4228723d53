import Mathlib.Data.List.Induction
import Notifyr.Theory.Dict
import Notifyr.Theory.Runs

/-!
# Requests that are kept alive

A request that is kept alive subscribes to a subject and waits there for the states its parser
expects. The callbacks of the subscription update the value, the states left and one error field;
the waiter sleeps on a lock that every event releases, and looks at these when it is awake again.

- `StreamDataParser`, `KeepAliveManager`: the parser in its two modes and the callbacks.
- `Request`, `step`: the subject, the lock and the waiter as one machine. Its actions are the
  events that are published and the turns the event loop gives to the waiter, in any order.
- `verdict`: what the request is promised, event by event: the first event that decides decides.
- `WaitRight`: what the waiter is told is that verdict, it never sleeps on one, and it sleeps no
  longer than its timeout.
- `waitRight_of_clean`: so it is where no event falls between one that decides and the look of the
  waiter that would change what is told, and no wait begins that cannot see what was decided.
-/

namespace Notifyr

namespace KeepAlive

open Theory

variable {σ δ ε ρ : Type} [DecidableEq σ]

/-! ## The parser of a stream -/

/-- `StreamData` as it is published. Either key may be missing. -/
structure StreamData (σ δ : Type) where
  state : Option σ
  data : Option δ

/-- `StreamType`. -/
inductive StreamType
  | continuous
  | sequential
  deriving DecidableEq

/-- What `on_next` catches, and the error of an error event. -/
inductive StreamError (σ ε : Type)
  | keyError (key : String)
  | continuousStateError
  | sequentialStateError (state : σ)
  | published (e : ε)
  deriving DecidableEq

/-- `StreamContinuousDataParser` and `StreamSequentialDataParser`. -/
structure StreamDataParser (σ : Type) where
  type : StreamType
  state : List σ
  completed_ : Bool

/-- `up_state` of either parser. -/
def StreamDataParser.upState (p : StreamDataParser σ) (state : σ) :
    Except (StreamError σ ε) (StreamDataParser σ) :=
  match p.type with
  | .continuous =>
    if state ∉ p.state then .error .continuousStateError
    else .ok { p with state := p.state.erase state }
  | .sequential =>
    if state ∉ p.state then .ok p
    else if p.state.getLast? ≠ some state then .error (.sequentialStateError state)
    else .ok { p with state := p.state.dropLast }

/-- `completed`, which the sequential parser inherits. -/
def StreamDataParser.completed (p : StreamDataParser σ) : Bool :=
  p.completed_ || p.state.isEmpty

/-! ## The callbacks -/

/-- The part of a `KeepAliveManager` that its callbacks write. -/
structure KeepAliveManager (σ δ ε : Type) where
  value : Dict σ δ
  error : Option (StreamError σ ε)
  parser : StreamDataParser σ

namespace KeepAliveManager

/-- `on_error`, which a success calls with no error. -/
def onError (m : KeepAliveManager σ δ ε) (e : Option (StreamError σ ε)) :
    KeepAliveManager σ δ ε :=
  { m with error := e }

/-- The end of `on_next`: the state goes to the parser. -/
def upState (m : KeepAliveManager σ δ ε) (state : σ) : KeepAliveManager σ δ ε :=
  match m.parser.upState state with
  | .error e => m.onError (some e)
  -- `self.on_error(None)`: an error that has not been raised yet is gone
  | .ok parser => { m with parser := parser }.onError none

/-- `on_next`. The value of an expected state is stored before the parser has its say. -/
def onNext (m : KeepAliveManager σ δ ε) (v : StreamData σ δ) : KeepAliveManager σ δ ε :=
  match v.state with
  | none => m.onError (some (.keyError "state"))
  | some state =>
    if state ∈ m.parser.state then
      match v.data with
      | none => m.onError (some (.keyError "data"))
      -- the value stays also where the parser refuses the state
      | some data => { m with value := m.value.set state data }.upState state
    else m.upState state

/-- `on_complete`. -/
def onComplete (m : KeepAliveManager σ δ ε) : KeepAliveManager σ δ ε :=
  { m with parser := { m.parser with completed_ := true } }

end KeepAliveManager

/-! ## The subject, the lock and the waiter -/

/-- What is published on a subject. -/
inductive Event (σ δ ε : Type)
  | next (v : StreamData σ δ)
  | error (e : ε)
  | completed

/-- How `wait_for` ends. -/
inductive Outcome (σ δ ε ρ : Type)
  /-- The request was not kept alive. -/
  | result (result : ρ)
  | returned (key : String) (value : Dict σ δ) (results : ρ)
  | raised (e : StreamError σ ε)
  /-- `TimeoutError`, with the result it carries where it comes from the lock. -/
  | timeoutError (result : Option ρ)

/-- Where the waiter is. -/
inductive Phase (σ δ ε ρ : Type)
  /-- Before `wait_for`. -/
  | idle
  /-- The lock is asked for, the task that acquires it has not run yet. -/
  | asked
  /-- Asleep among the waiters of the lock. -/
  | queued
  /-- A release has woken it, its turn has not come yet. -/
  | woken
  /-- The lock is acquired, the loop of `wait_for` has not gone on yet. -/
  | acquired
  | ended (outcome : Outcome σ δ ε ρ)

/-- What a request was made with: the query, its parser and the arguments of `wait_for`. -/
structure Conn (σ ρ : Type) where
  timeout : Nat
  keepAlive : Bool
  type : StreamType
  /-- The states of the parser. -/
  expected : List σ
  resultToReturn : ρ
  coerce : Option String
  /-- Whether `wait_for` names a subject, and so registers its lock anew. -/
  bySubject : Bool

/-- The key of the value in what `wait_for` returns. -/
def Conn.key (c : Conn σ ρ) : String := c.coerce.getD "value"

/-- A request, the subject it subscribed to and its lock there. -/
structure Request (σ δ ε ρ : Type) where
  manager : KeepAliveManager σ δ ε
  /-- `is_stopped` of the subject: nothing reaches the callbacks after an error or the end. -/
  stopped : Bool
  /-- `_locked` of the lock. -/
  locked : Bool
  phase : Phase σ δ ε ρ
  currentTimeout : Nat
  currentTime : Nat
  /-- When the wait for the lock is given up. -/
  deadline : Nat
  /-- The clock. -/
  now : Nat

inductive Action (σ δ ε : Type)
  | publish (ev : Event σ δ ε)
  /-- Time goes by. -/
  | elapse (d : Nat)
  /-- `wait_for` is called. -/
  | call
  /-- The task that acquires the lock has its first turn. -/
  | acquire
  /-- It has its turn after a release. -/
  | wake
  /-- The timer of the wait fires. -/
  | expire
  /-- The loop of `wait_for` goes on; `drift` passes between its two readings of the clock. -/
  | resume (drift : Nat)

namespace Request

/-- What a subject does for its subscription: nothing once it is stopped. -/
def subjectOn (s : Request σ δ ε ρ) (ev : Event σ δ ε) : Request σ δ ε ρ :=
  if s.stopped then s
  else
    match ev with
    | .next v => { s with manager := s.manager.onNext v }
    | .error e => { s with stopped := true, manager := s.manager.onError (some (.published e)) }
    | .completed => { s with stopped := true, manager := s.manager.onComplete }

/-- `release` of a lock that is locked, which wakes the one who sleeps there. -/
def release (s : Request σ δ ε ρ) : Request σ δ ε ρ :=
  if s.locked then
    match s.phase with
    | .queued => { s with locked := false, phase := .woken }
    | _ => { s with locked := false }
  else s

/-- `ReactiveSubject.on_next`, `on_error` and `on_completed`. -/
def publish (s : Request σ δ ε ρ) (ev : Event σ δ ε) : Request σ δ ε ρ :=
  (s.subjectOn ev).release

/-- The clock. One who sleeps is woken by the timer, so no time passes beyond its deadline. -/
def elapse (s : Request σ δ ε ρ) (d : Nat) : Request σ δ ε ρ :=
  match s.phase with
  | .queued => if s.now + d ≤ s.deadline then { s with now := s.now + d } else s
  | _ => { s with now := s.now + d }

variable (c : Conn σ ρ)

/-- `wait_for` up to its first wait. -/
def call (s : Request σ δ ε ρ) : Request σ δ ε ρ :=
  match s.phase with
  | .idle =>
    if c.keepAlive then
      { s with
        -- a lock that is registered anew is locked
        locked := c.bySubject || s.locked
        phase := .asked
        currentTimeout := c.timeout
        currentTime := s.now
        deadline := s.now + c.timeout }
    else { s with phase := .ended (.result c.resultToReturn) }
  | _ => s

/-- `asyncio.wait_for(lock.acquire(), timeout)`. Without time left the task is cancelled before it
has a turn. -/
def acquire (s : Request σ δ ε ρ) : Request σ δ ε ρ :=
  match s.phase with
  | .asked =>
    if s.currentTimeout = 0 then
      { s with phase := .ended (.timeoutError (some c.resultToReturn)) }
    else if s.locked then { s with phase := .queued }
    else { s with locked := true, phase := .acquired }
  | _ => s

def wake (s : Request σ δ ε ρ) : Request σ δ ε ρ :=
  match s.phase with
  | .woken => { s with locked := true, phase := .acquired }
  | _ => s

/-- The timer. Only one who still sleeps is given up: after a release the lock has its turn. -/
def expire (s : Request σ δ ε ρ) : Request σ δ ε ρ :=
  match s.phase with
  | .queued =>
    if s.deadline ≤ s.now then
      { s with phase := .ended (.timeoutError (some c.resultToReturn)) }
    else s
  | _ => s

/-- The rest of the loop after a wait, to the next one: the error, the parser, `lock_lock`, the
time that is left. -/
def look (s : Request σ δ ε ρ) (drift : Nat) : Request σ δ ε ρ :=
  match s.manager.error with
  | some e => { s with phase := .ended (.raised e) }
  | none =>
    if s.manager.parser.completed then
      { s with phase := .ended (.returned c.key s.manager.value c.resultToReturn) }
    else if s.currentTimeout < s.now - s.currentTime then
      { s with locked := true, phase := .ended (.timeoutError none) }
    else
      { s with
        locked := true
        phase := .asked
        currentTimeout := s.currentTimeout - (s.now - s.currentTime)
        currentTime := s.now + drift
        deadline := s.now + drift + (s.currentTimeout - (s.now - s.currentTime))
        now := s.now + drift }

def resume (s : Request σ δ ε ρ) (drift : Nat) : Request σ δ ε ρ :=
  match s.phase with
  | .acquired => s.look c drift
  | _ => s

/-- One step of any of the parties. One that is not due changes nothing. -/
def step (s : Request σ δ ε ρ) : Action σ δ ε → Request σ δ ε ρ
  | .publish ev => s.publish ev
  | .elapse d => s.elapse d
  | .call => s.call c
  | .acquire => s.acquire c
  | .wake => s.wake
  | .expire => s.expire c
  | .resume drift => s.resume c drift

/-- Asleep on the lock. -/
def parked (s : Request σ δ ε ρ) : Bool :=
  match s.phase with
  | .queued => true
  | _ => false

def ended (s : Request σ δ ε ρ) : Bool :=
  match s.phase with
  | .ended _ => true
  | _ => false

end Request

/-! ## What is observed of a run -/

/-- A request with the events published until it ended and the time it has slept. -/
structure Observed (σ δ ε ρ : Type) where
  request : Request σ δ ε ρ
  heard : List (Event σ δ ε)
  waited : Nat

/-- A request with its subject created, its lock registered and its parser set. -/
def start (c : Conn σ ρ) : Observed σ δ ε ρ where
  request :=
    { manager := { value := Dict.empty, error := none, parser := ⟨c.type, c.expected, false⟩ }
      stopped := false
      locked := true
      phase := .idle
      currentTimeout := c.timeout
      currentTime := 0
      deadline := 0
      now := 0 }
  heard := []
  waited := 0

/-- The events an action adds to those heard. -/
def Action.events : Action σ δ ε → List (Event σ δ ε)
  | .publish ev => [ev]
  | _ => []

def observe (c : Conn σ ρ) (o : Observed σ δ ε ρ) (a : Action σ δ ε) : Observed σ δ ε ρ where
  request := o.request.step c a
  heard := if o.request.ended then o.heard else o.heard ++ a.events
  waited :=
    if o.request.parked then o.waited + ((o.request.step c a).now - o.request.now) else o.waited

/-! ## What a request is promised -/

/-- What the events of a stream come to: states still expected, all there is, or an error. -/
inductive Verdict (σ δ ε : Type)
  | pending (left : List σ) (received : List (σ × δ))
  | finished (received : List (σ × δ))
  | failed (e : StreamError σ ε)

/-- The states received, in this order, and the states left after them: in continuous mode any
order is allowed, in sequential mode only the one from the end of the list. -/
def InOrder (type : StreamType) (expected got left : List σ) : Prop :=
  match type with
  | .continuous => (got ++ left).Perm expected
  | .sequential => left ++ got.reverse = expected

/-- All the expected states, in an allowed order. -/
def AllReceived (type : StreamType) (expected got : List σ) : Prop :=
  InOrder type expected got []

/-- What is left of the expected states after one that may come, none if it may not. -/
def takeState (type : StreamType) (left : List σ) (state : σ) : Option (List σ) :=
  match type with
  | .continuous => some (left.erase state)
  | .sequential => if left.getLast? = some state then some left.dropLast else none

def settle (left : List σ) (received : List (σ × δ)) : Verdict σ δ ε :=
  if left = [] then .finished received else .pending left received

/-- A value event, where states are left. -/
def receive (type : StreamType) (left : List σ) (received : List (σ × δ))
    (v : StreamData σ δ) : Verdict σ δ ε :=
  match v.state with
  | none => .failed (.keyError "state")
  | some state =>
    if state ∈ left then
      match v.data with
      | none => .failed (.keyError "data")
      | some data =>
        match takeState type left state with
        | some rest => settle rest (received ++ [(state, data)])
        | none => .failed (.sequentialStateError state)
    else if type = .continuous then .failed .continuousStateError
    else .pending left received

/-- One more event. After one that decides, none does. -/
def hear (type : StreamType) : Verdict σ δ ε → Event σ δ ε → Verdict σ δ ε
  | .pending left received, .next v => receive type left received v
  | .pending _ _, .error e => .failed (.published e)
  | .pending _ received, .completed => .finished received
  | .finished received, _ => .finished received
  | .failed e, _ => .failed e

def verdict (c : Conn σ ρ) (evs : List (Event σ δ ε)) : Verdict σ δ ε :=
  evs.foldl (hear c.type) (settle c.expected [])

/-- What the waiter is told, by the verdict on what was published before. -/
def Tells (c : Conn σ ρ) : Verdict σ δ ε → Outcome σ δ ε ρ → Prop
  | .finished received, outcome =>
    outcome = .returned c.key (Dict.ofEntries received) c.resultToReturn
  | .failed e, outcome => outcome = .raised e
  | .pending _ _, outcome => ∃ result, outcome = .timeoutError result

/-- What is promised of a request that is kept alive. -/
structure WaitRight (c : Conn σ ρ) (o : Observed σ δ ε ρ) : Prop where
  /-- It returns exactly when the stream is finished, with what was received; it raises the error
  that came before that, and runs out of time only where there is neither. -/
  told : ∀ outcome, o.request.phase = .ended outcome → Tells c (verdict c o.heard) outcome
  /-- Finished is: all states came in an allowed order, or the stream completed. -/
  order : ∀ received, verdict c o.heard = .finished received →
    AllReceived c.type c.expected (received.map Prod.fst) ∨ .completed ∈ o.heard
  /-- It does not sleep on an event that decides. -/
  awake : o.request.phase = .queued → ∃ left received, verdict c o.heard = .pending left received
  /-- All its sleeps together are within its timeout. -/
  waited : o.waited ≤ c.timeout

/-! ## Where it is kept -/

/-- What makes an error of a stream whose states are all received. -/
def Breaks (type : StreamType) : Event σ δ ε → Prop
  | .next v => v.state = none ∨ type = .continuous
  | .error _ => True
  | .completed => False

/-- A step that does not change what is to be told, nor begins a wait that cannot see it.

- Where an error waits to be raised, or all states are received, the waiter looks before the next
  event that would replace the error, clear it, or be an error now; an event on a stopped subject
  and one after the outcome do no harm.
- A wait that has no time left, or finds its lock locked, begins with nothing decided. -/
def Clean (c : Conn σ ρ) (o : Observed σ δ ε ρ) : Action σ δ ε → Prop
  | .publish ev =>
    o.request.stopped = true ∨ o.request.ended = true ∨
      ((o.request.manager.error ≠ none → ev = .completed) ∧
        (o.request.manager.parser.completed = true → ¬ Breaks c.type ev))
  | .acquire =>
    o.request.phase = .asked → o.request.currentTimeout = 0 ∨ o.request.locked = true →
      o.request.manager.error = none ∧ o.request.manager.parser.completed = false
  | _ => True

/-! ## The callbacks and the verdict -/

/-- The manager is where the verdict says, `stopped` telling whether the subject is. -/
def Agrees (type : StreamType) (stopped : Bool) (m : KeepAliveManager σ δ ε) :
    Verdict σ δ ε → Prop
  | .pending left received =>
    stopped = false ∧ m.error = none ∧ m.parser = ⟨type, left, false⟩ ∧ left ≠ [] ∧
      m.value = Dict.ofEntries received
  | .finished received =>
    m.error = none ∧ m.parser.completed = true ∧
      (stopped = false → m.parser = ⟨type, [], false⟩) ∧ m.value = Dict.ofEntries received
  | .failed e => m.error = some e

theorem agrees_settle {type : StreamType} {m : KeepAliveManager σ δ ε} {left : List σ}
    {received : List (σ × δ)} (herror : m.error = none) (hparser : m.parser = ⟨type, left, false⟩)
    (hvalue : m.value = Dict.ofEntries received) :
    Agrees type false m (settle left received) := by
  unfold settle
  by_cases hleft : left = []
  · rw [if_pos hleft]
    subst hleft
    refine ⟨herror, ?_, fun _ => hparser, hvalue⟩
    rw [hparser]
    rfl
  · rw [if_neg hleft]
    exact ⟨rfl, herror, hparser, hleft, hvalue⟩

theorem ofEntries_concat (es : List (σ × δ)) (k : σ) (v : δ) :
    Dict.ofEntries (es ++ [(k, v)]) = (Dict.ofEntries es).set k v := List.foldl_append

/-- The parser takes a state it expects as `takeState` says. -/
theorem upState_of_mem {type : StreamType} {left : List σ} {state : σ} (h : state ∈ left) :
    (StreamDataParser.upState ⟨type, left, false⟩ state :
        Except (StreamError σ ε) (StreamDataParser σ)) =
      match takeState type left state with
      | some rest => .ok ⟨type, rest, false⟩
      | none => .error (.sequentialStateError state) := by
  cases type with
  | continuous =>
    show (if state ∉ left then _ else _) = _
    rw [if_neg (not_not_intro h)]
    rfl
  | sequential =>
    show (if state ∉ left then _ else if left.getLast? ≠ some state then _ else _) = _
    rw [if_neg (not_not_intro h)]
    by_cases hlast : left.getLast? = some state
    · rw [if_neg (not_not_intro hlast), takeState, if_pos hlast]
    · rw [if_pos hlast, takeState, if_neg hlast]

/-- A state that is not expected is an error in continuous mode and nothing in sequential mode. -/
theorem upState_of_not_mem {p : StreamDataParser σ} {state : σ} (h : state ∉ p.state) :
    (p.upState state : Except (StreamError σ ε) (StreamDataParser σ)) =
      if p.type = .continuous then .error .continuousStateError else .ok p := by
  unfold StreamDataParser.upState
  cases htype : p.type with
  | continuous => exact if_pos h
  | sequential => exact if_pos h

/-- One value event, from a manager with states left. -/
theorem agrees_receive {type : StreamType} {m : KeepAliveManager σ δ ε} {left : List σ}
    {received : List (σ × δ)} (h : Agrees type false m (.pending left received))
    (v : StreamData σ δ) : Agrees type false (m.onNext v) (receive type left received v) := by
  obtain ⟨-, herror, hparser, hleft, hvalue⟩ := h
  have hstate : m.parser.state = left := by
    rw [hparser]
  unfold KeepAliveManager.onNext receive
  cases v.state with
  | none => exact rfl
  | some state =>
    dsimp only
    rw [hstate]
    by_cases hmem : state ∈ left
    · rw [if_pos hmem, if_pos hmem]
      cases v.data with
      | none => exact rfl
      | some data =>
        dsimp only
        unfold KeepAliveManager.upState
        dsimp only
        rw [hparser, upState_of_mem hmem]
        cases takeState type left state with
        | none => exact rfl
        | some rest =>
          refine agrees_settle rfl rfl ?_
          rw [ofEntries_concat, ← hvalue]
          rfl
    · rw [if_neg hmem, if_neg hmem]
      unfold KeepAliveManager.upState
      rw [upState_of_not_mem (hstate ▸ hmem)]
      have htype : m.parser.type = type := by
        rw [hparser]
      rw [htype]
      by_cases hcont : type = .continuous
      · rw [if_pos hcont, if_pos hcont]
        exact rfl
      · rw [if_neg hcont, if_neg hcont]
        exact ⟨rfl, rfl, hparser, hleft, hvalue⟩

/-- A value on a stream whose states are all received, where it is no error. -/
theorem onNext_finished {m : KeepAliveManager σ δ ε} {type : StreamType} {v : StreamData σ δ}
    (herror : m.error = none) (hparser : m.parser = ⟨type, [], false⟩)
    (h : ¬ Breaks type (.next v : Event σ δ ε)) : m.onNext v = m := by
  obtain ⟨hstate, htype⟩ := not_or.mp h
  obtain ⟨state, hv⟩ := Option.ne_none_iff_exists'.mp hstate
  have hmem : state ∉ m.parser.state := by
    rw [hparser]
    exact List.not_mem_nil
  have hseq : m.parser.type ≠ .continuous := by
    rw [hparser]
    exact htype
  unfold KeepAliveManager.onNext KeepAliveManager.upState
  rw [hv]
  dsimp only
  rw [if_neg hmem, upState_of_not_mem hmem, if_neg hseq]
  cases m with
  | mk value error parser =>
    subst herror
    rfl

/-- One event: where it leaves alone what is decided, the manager goes where the verdict does. -/
theorem agrees_hear {type : StreamType} {s : Request σ δ ε ρ} {V : Verdict σ δ ε}
    {ev : Event σ δ ε} (h : Agrees type s.stopped s.manager V)
    (hclean : s.stopped = true ∨ (s.manager.error ≠ none → ev = .completed) ∧
      (s.manager.parser.completed = true → ¬ Breaks type ev)) :
    Agrees type (s.subjectOn ev).stopped (s.subjectOn ev).manager (hear type V ev) := by
  unfold Request.subjectOn
  cases V with
  | pending left received =>
    have hrunning : s.stopped = false := h.1
    rw [if_neg (by rw [hrunning]; exact Bool.false_ne_true)]
    cases ev with
    | next v =>
      dsimp only
      rw [hrunning] at h ⊢
      exact agrees_receive h v
    | error e => exact rfl
    | completed =>
      obtain ⟨-, herror, -, -, hvalue⟩ := h
      exact ⟨herror, rfl, fun hstop => absurd hstop.symm Bool.false_ne_true, hvalue⟩
  | finished received =>
    show Agrees type _ _ (.finished received)
    by_cases hstop : s.stopped = true
    · rw [if_pos hstop]
      exact h
    rw [if_neg hstop]
    obtain ⟨herror, hcompleted, hparser, hvalue⟩ := h
    have hbreaks := (hclean.resolve_left hstop).2 hcompleted
    have hparser := hparser (eq_false_of_ne_true hstop)
    cases ev with
    | next v =>
      dsimp only
      rw [onNext_finished herror hparser hbreaks]
      exact ⟨herror, hcompleted, fun _ => hparser, hvalue⟩
    | error e => exact absurd trivial hbreaks
    | completed => exact ⟨herror, rfl, fun hstop => absurd hstop.symm Bool.false_ne_true, hvalue⟩
  | failed e =>
    show Agrees type _ _ (.failed e)
    by_cases hstop : s.stopped = true
    · rw [if_pos hstop]
      exact h
    rw [if_neg hstop]
    -- an error that waits is left alone by the end of the stream only
    have herror : s.manager.error ≠ none := by
      rw [show s.manager.error = some e from h]
      exact Option.some_ne_none e
    rw [(hclean.resolve_left hstop).1 herror]
    exact h

/-! ## What holds of every clean run -/

/-- The sleeps so far and the wait that is under way fit in the timeout. -/
def Timed (c : Conn σ ρ) (s : Request σ δ ε ρ) (waited : Nat) : Prop :=
  match s.phase with
  | .idle => waited = 0
  | .ended _ => waited ≤ c.timeout
  | _ =>
    waited ≤ c.timeout ∧ s.currentTime ≤ s.now ∧
      s.deadline = s.currentTime + s.currentTimeout ∧
      waited + s.currentTimeout ≤ c.timeout + (s.now - s.currentTime)

/-- The invariant: the callbacks are where the verdict says, one who sleeps has seen everything
and is to be woken by the next event, and what was told is the verdict. -/
structure Inv (c : Conn σ ρ) (s : Request σ δ ε ρ) (V : Verdict σ δ ε) (waited : Nat) : Prop where
  agrees : s.ended = false → Agrees c.type s.stopped s.manager V
  told : ∀ outcome, s.phase = .ended outcome → Tells c V outcome
  locked : s.phase = .queued → s.locked = true
  seen : s.phase = .queued → s.manager.error = none ∧ s.manager.parser.completed = false
  timed : Timed c s waited

variable {c : Conn σ ρ} {s : Request σ δ ε ρ} {V : Verdict σ δ ε} {waited : Nat}

/-- Where there is no error and the parser is not completed, nothing is decided. -/
theorem pending_of_agrees {stopped : Bool} {m : KeepAliveManager σ δ ε} {type : StreamType}
    (h : Agrees type stopped m V) (herror : m.error = none)
    (hcompleted : m.parser.completed = false) : ∃ left received, V = .pending left received := by
  cases V with
  | pending left received => exact ⟨left, received, rfl⟩
  | finished received =>
    rw [h.2.1] at hcompleted
    cases hcompleted
  | failed e =>
    rw [show m.error = some e from h] at herror
    cases herror

/-- Running out of time is right where nothing is decided. -/
theorem tells_timeout {stopped : Bool} {m : KeepAliveManager σ δ ε} {type : StreamType}
    (h : Agrees type stopped m V) (herror : m.error = none)
    (hcompleted : m.parser.completed = false) (result : Option ρ) :
    Tells c V (.timeoutError result) := by
  obtain ⟨left, received, rfl⟩ := pending_of_agrees h herror hcompleted
  exact ⟨result, rfl⟩

/-- A request that is awake and has not ended. -/
theorem Inv.of_awake (hended : s.ended = false) (hparked : s.parked = false)
    (hagrees : Agrees c.type s.stopped s.manager V) (htimed : Timed c s waited) :
    Inv c s V waited := by
  have hawake : s.phase ≠ .queued := by
    intro h
    rw [Request.parked, h] at hparked
    cases hparked
  refine ⟨fun _ => hagrees, ?_, fun h => absurd h hawake, fun h => absurd h hawake, htimed⟩
  intro outcome h
  rw [Request.ended, h] at hended
  cases hended

/-- A request that has ended, with what it was told. -/
theorem Inv.of_ended {outcome : Outcome σ δ ε ρ} (hphase : s.phase = .ended outcome)
    (htells : Tells c V outcome) (hwaited : waited ≤ c.timeout) : Inv c s V waited := by
  have hawake : s.phase ≠ .queued := by
    rw [hphase]
    intro h
    cases h
  refine ⟨?_, ?_, fun h => absurd h hawake, fun h => absurd h hawake, ?_⟩
  · intro hended
    rw [Request.ended, hphase] at hended
    cases hended
  · intro outcome' h
    cases hphase.symm.trans h
    exact htells
  · rw [Timed, hphase]
    exact hwaited

theorem inv_start (c : Conn σ ρ) :
    Inv c (start c : Observed σ δ ε ρ).request (verdict c []) 0 :=
  Inv.of_awake rfl rfl (agrees_settle rfl rfl rfl) rfl

theorem subjectOn_frame (s : Request σ δ ε ρ) (ev : Event σ δ ε) :
    s.subjectOn ev =
      { s with manager := (s.subjectOn ev).manager, stopped := (s.subjectOn ev).stopped } := by
  unfold Request.subjectOn
  by_cases hstop : s.stopped = true
  · rw [if_pos hstop]
  · rw [if_neg hstop]
    cases ev <;> rfl

/-- A release after an event: the one who slept does not any more. -/
theorem inv_release (hagrees : s.ended = false → Agrees c.type s.stopped s.manager V)
    (htold : ∀ outcome, s.phase = .ended outcome → Tells c V outcome)
    (hlocked : s.phase = .queued → s.locked = true) (htimed : Timed c s waited) :
    Inv c s.release V waited := by
  obtain ⟨m, stopped, locked, phase, currentTimeout, currentTime, deadline, now⟩ := s
  unfold Request.release
  cases locked with
  | false =>
    -- one who sleeps has a locked lock, so nobody sleeps here
    have hawake : phase ≠ .queued := by
      intro h
      cases hlocked h
    exact ⟨hagrees, htold, hlocked, fun h => absurd h hawake, htimed⟩
  | true =>
    cases phase with
    | ended outcome => exact Inv.of_ended rfl (htold outcome rfl) htimed
    | _ => exact Inv.of_awake rfl rfl (hagrees rfl) htimed

/-- An event after the outcome. -/
theorem inv_publish_of_ended (h : Inv c s V waited) (hended : s.ended = true) (ev : Event σ δ ε) :
    Inv c (s.publish ev) V waited := by
  unfold Request.publish
  have hframe := subjectOn_frame s ev
  refine inv_release ?_ ?_ ?_ ?_
  · intro hrunning
    rw [hframe] at hrunning
    have hrunning : s.ended = false := hrunning
    rw [hended] at hrunning
    cases hrunning
  · rw [hframe]
    exact h.told
  · rw [hframe]
    exact h.locked
  · rw [hframe]
    exact h.timed

/-- An event before the outcome. -/
theorem inv_publish (h : Inv c s V waited) (hended : s.ended = false) {ev : Event σ δ ε}
    (hclean : s.stopped = true ∨ (s.manager.error ≠ none → ev = .completed) ∧
      (s.manager.parser.completed = true → ¬ Breaks c.type ev)) :
    Inv c (s.publish ev) (hear c.type V ev) waited := by
  have hagrees := agrees_hear (h.agrees hended) hclean
  unfold Request.publish
  have hframe := subjectOn_frame s ev
  refine inv_release (fun _ => hagrees) ?_ ?_ ?_
  · intro outcome houtcome
    rw [hframe] at houtcome
    have houtcome : s.phase = .ended outcome := houtcome
    have : s.ended = true := by
      rw [Request.ended, houtcome]
    rw [hended] at this
    cases this
  · rw [hframe]
    exact h.locked
  · rw [hframe]
    exact h.timed

/-- Time goes by, and counts as waited where the waiter sleeps. -/
theorem inv_elapse (h : Inv c s V waited) (d : Nat) :
    Inv c (s.elapse d) V
      (if s.parked then waited + ((s.elapse d).now - s.now) else waited) := by
  obtain ⟨hagrees, htold, hlocked, hseen, htimed⟩ := h
  obtain ⟨m, stopped, locked, phase, currentTimeout, currentTime, deadline, now⟩ := s
  cases phase with
  | queued =>
    obtain ⟨hwaited, hclock, hdeadline, hfits⟩ := htimed
    unfold Request.elapse
    dsimp only at hwaited hclock hdeadline hfits ⊢
    -- the clock stops at the deadline, which is within what is left of the timeout
    by_cases hdue : now + d ≤ deadline
    · rw [if_pos hdue]
      refine ⟨hagrees, htold, hlocked, hseen, ?_, ?_, hdeadline, ?_⟩
      · show waited + (now + d - now) ≤ c.timeout
        omega
      · show currentTime ≤ now + d
        omega
      · show waited + (now + d - now) + currentTimeout ≤ c.timeout + (now + d - currentTime)
        omega
    · rw [if_neg hdue]
      refine ⟨hagrees, htold, hlocked, hseen, ?_, hclock, hdeadline, ?_⟩
      · show waited + (now - now) ≤ c.timeout
        omega
      · show waited + (now - now) + currentTimeout ≤ c.timeout + (now - currentTime)
        omega
  | idle => exact ⟨hagrees, htold, hlocked, hseen, htimed⟩
  | ended outcome => exact ⟨hagrees, htold, hlocked, hseen, htimed⟩
  | _ =>
    obtain ⟨hwaited, hclock, hdeadline, hfits⟩ := htimed
    refine ⟨hagrees, htold, hlocked, hseen, hwaited, ?_, hdeadline, ?_⟩
    · show currentTime ≤ now + d
      exact Nat.le_add_right_of_le hclock
    · show waited + currentTimeout ≤ c.timeout + (now + d - currentTime)
      dsimp only at hclock hfits
      omega

theorem inv_call (h : Inv c s V waited) (hkeep : c.keepAlive = true) :
    Inv c (s.call c) V waited := by
  obtain ⟨hagrees, htold, hlocked, hseen, htimed⟩ := h
  obtain ⟨m, stopped, locked, phase, currentTimeout, currentTime, deadline, now⟩ := s
  cases phase with
  | idle =>
    unfold Request.call
    dsimp only
    rw [if_pos hkeep]
    have hzero : waited = 0 := htimed
    subst hzero
    refine Inv.of_awake rfl rfl (hagrees rfl) ⟨Nat.zero_le _, Nat.le_refl _, rfl, ?_⟩
    show 0 + c.timeout ≤ c.timeout + (now - now)
    omega
  | _ => exact ⟨hagrees, htold, hlocked, hseen, htimed⟩

/-- The lock is asked for. The wait that begins sees what is decided. -/
theorem inv_acquire (h : Inv c s V waited)
    (hclean : s.phase = .asked → s.currentTimeout = 0 ∨ s.locked = true →
      s.manager.error = none ∧ s.manager.parser.completed = false) :
    Inv c (s.acquire c) V waited := by
  obtain ⟨hagrees, htold, hlocked, hseen, htimed⟩ := h
  obtain ⟨m, stopped, locked, phase, currentTimeout, currentTime, deadline, now⟩ := s
  cases phase with
  | asked =>
    have hopen := hclean rfl
    unfold Request.acquire
    dsimp only at hopen ⊢
    by_cases hzero : currentTimeout = 0
    · rw [if_pos hzero]
      obtain ⟨herror, hcompleted⟩ := hopen (.inl hzero)
      exact Inv.of_ended rfl (tells_timeout (hagrees rfl) herror hcompleted _) htimed.1
    · rw [if_neg hzero]
      by_cases hlock : locked = true
      · rw [if_pos hlock]
        refine ⟨fun _ => hagrees rfl, ?_, fun _ => hlock, fun _ => hopen (.inr hlock), htimed⟩
        intro outcome houtcome
        cases houtcome
      · rw [if_neg hlock]
        exact Inv.of_awake rfl rfl (hagrees rfl) htimed
  | _ => exact ⟨hagrees, htold, hlocked, hseen, htimed⟩

theorem inv_wake (h : Inv c s V waited) : Inv c s.wake V waited := by
  obtain ⟨hagrees, htold, hlocked, hseen, htimed⟩ := h
  obtain ⟨m, stopped, locked, phase, currentTimeout, currentTime, deadline, now⟩ := s
  cases phase with
  | woken =>
    exact Inv.of_awake rfl rfl (hagrees rfl) htimed
  | _ => exact ⟨hagrees, htold, hlocked, hseen, htimed⟩

/-- The timer fires only on one who sleeps, and who sleeps has seen everything. -/
theorem inv_expire (h : Inv c s V waited) : Inv c (s.expire c) V waited := by
  obtain ⟨hagrees, htold, hlocked, hseen, htimed⟩ := h
  obtain ⟨m, stopped, locked, phase, currentTimeout, currentTime, deadline, now⟩ := s
  cases phase with
  | queued =>
    unfold Request.expire
    dsimp only
    by_cases hdue : deadline ≤ now
    · rw [if_pos hdue]
      obtain ⟨herror, hcompleted⟩ := hseen rfl
      exact Inv.of_ended rfl (tells_timeout (hagrees rfl) herror hcompleted _) htimed.1
    · rw [if_neg hdue]
      exact ⟨hagrees, htold, hlocked, hseen, htimed⟩
  | _ => exact ⟨hagrees, htold, hlocked, hseen, htimed⟩

/-- The look of the waiter: it tells what is decided, and else waits for the time that is left. -/
theorem inv_resume (h : Inv c s V waited) (drift : Nat) : Inv c (s.resume c drift) V waited := by
  obtain ⟨hagrees, htold, hlocked, hseen, htimed⟩ := h
  obtain ⟨m, stopped, locked, phase, currentTimeout, currentTime, deadline, now⟩ := s
  cases phase with
  | acquired =>
    obtain ⟨hwaited, hclock, -, hfits⟩ := htimed
    have hnow := hagrees rfl
    -- the three things the waiter looks at, in this order: the error, the parser, the time
    unfold Request.resume Request.look
    dsimp only at hnow hwaited hclock hfits ⊢
    cases herror : m.error with
    | some e =>
      refine Inv.of_ended rfl ?_ hwaited
      cases V with
      | pending left received =>
        rw [hnow.2.1] at herror
        cases herror
      | finished received =>
        rw [hnow.1] at herror
        cases herror
      | failed e' =>
        rw [show m.error = some e' from hnow] at herror
        cases herror
        exact rfl
    | none =>
      dsimp only
      by_cases hcompleted : m.parser.completed = true
      · rw [if_pos hcompleted]
        refine Inv.of_ended rfl ?_ hwaited
        cases V with
        | pending left received =>
          obtain ⟨-, -, hparser, hleft, -⟩ := hnow
          rw [hparser] at hcompleted
          cases left with
          | nil => exact absurd rfl hleft
          | cons a left => cases hcompleted
        | finished received =>
          show _ = _
          rw [hnow.2.2.2]
        | failed e =>
          rw [show m.error = some e from hnow] at herror
          cases herror
      rw [if_neg hcompleted]
      by_cases hlate : currentTimeout < now - currentTime
      · rw [if_pos hlate]
        have hopen := eq_false_of_ne_true hcompleted
        exact Inv.of_ended rfl (tells_timeout hnow herror hopen _) hwaited
      · rw [if_neg hlate]
        refine Inv.of_awake rfl rfl hnow ⟨hwaited, Nat.le_refl _, rfl, ?_⟩
        show waited + (currentTimeout - (now - currentTime)) ≤
          c.timeout + (now + drift - (now + drift))
        omega
  | _ => exact ⟨hagrees, htold, hlocked, hseen, htimed⟩

theorem publish_now (s : Request σ δ ε ρ) (ev : Event σ δ ε) : (s.publish ev).now = s.now := by
  unfold Request.publish Request.release
  rw [subjectOn_frame]
  by_cases hlocked : s.locked = true
  · rw [if_pos hlocked]
    cases s.phase <;> rfl
  · rw [if_neg hlocked]

/-- Only an event adds to what was heard. -/
theorem heard_of_no_event {o : Observed σ δ ε ρ} {a : Action σ δ ε} (h : a.events = []) :
    (observe c o a).heard = o.heard := by
  show (if o.request.ended then o.heard else o.heard ++ a.events) = o.heard
  rw [h, List.append_nil, ite_self]

/-- Only the clock adds to the time waited. -/
theorem waited_of_now {o : Observed σ δ ε ρ} {a : Action σ δ ε}
    (h : o.request.phase = .queued → (o.request.step c a).now = o.request.now) :
    (observe c o a).waited = o.waited := by
  show (if o.request.parked then _ else _) = o.waited
  cases hphase : o.request.phase with
  | queued =>
    rw [h hphase, Nat.sub_self, Nat.add_zero, ite_self]
  | _ =>
    refine if_neg ?_
    rw [Request.parked, hphase]
    exact Bool.false_ne_true

/-- One step of a run. -/
theorem inv_observe {o : Observed σ δ ε ρ} {a : Action σ δ ε} (hkeep : c.keepAlive = true)
    (h : Inv c o.request (verdict c o.heard) o.waited) (hclean : Clean c o a) :
    Inv c (observe c o a).request (verdict c (observe c o a).heard) (observe c o a).waited := by
  cases a with
  | publish ev =>
    have hnow : (o.request.step c (.publish ev)).now = o.request.now := publish_now o.request ev
    rw [waited_of_now fun _ => hnow]
    show Inv c (o.request.publish ev)
      (verdict c (if o.request.ended then o.heard else o.heard ++ [ev])) o.waited
    cases hended : o.request.ended with
    | true => exact inv_publish_of_ended h hended ev
    | false =>
      rw [if_neg Bool.false_ne_true, verdict, List.foldl_append]
      refine inv_publish h hended ?_
      rcases hclean with hstop | houtcome | hclean
      · exact .inl hstop
      · rw [hended] at houtcome
        cases houtcome
      · exact .inr hclean
  | elapse d =>
    rw [heard_of_no_event rfl]
    exact inv_elapse h d
  | call =>
    rw [heard_of_no_event rfl, waited_of_now]
    · exact inv_call h hkeep
    · intro hphase
      rw [Request.step, Request.call, hphase]
  | acquire =>
    rw [heard_of_no_event rfl, waited_of_now]
    · exact inv_acquire h hclean
    · intro hphase
      rw [Request.step, Request.acquire, hphase]
  | wake =>
    rw [heard_of_no_event rfl, waited_of_now]
    · exact inv_wake h
    · intro hphase
      rw [Request.step, Request.wake, hphase]
  | expire =>
    rw [heard_of_no_event rfl, waited_of_now]
    · exact inv_expire h
    · intro hphase
      rw [Request.step, Request.expire, hphase]
      by_cases hdue : o.request.deadline ≤ o.request.now
      · rw [if_pos hdue]
      · rw [if_neg hdue]
  | resume drift =>
    rw [heard_of_no_event rfl, waited_of_now]
    · exact inv_resume h drift
    · intro hphase
      rw [Request.step, Request.resume, hphase]

/-! ## The order of what was received -/

/-- What a verdict says of the order. -/
def Ordered (c : Conn σ ρ) (evs : List (Event σ δ ε)) : Verdict σ δ ε → Prop
  | .pending left received => InOrder c.type c.expected (received.map Prod.fst) left
  | .finished received =>
    AllReceived c.type c.expected (received.map Prod.fst) ∨ .completed ∈ evs
  | .failed _ => True

theorem inOrder_take {type : StreamType} {expected got left rest : List σ} {state : σ}
    (h : InOrder type expected got left) (hmem : state ∈ left)
    (htake : takeState type left state = some rest) :
    InOrder type expected (got ++ [state]) rest := by
  cases type with
  | continuous =>
    have h : (got ++ left).Perm expected := h
    cases htake
    show (got ++ [state] ++ left.erase state).Perm expected
    rw [List.append_assoc]
    exact ((List.perm_cons_erase hmem).symm.append_left got).trans h
  | sequential =>
    have h : left ++ got.reverse = expected := h
    have htake : (if left.getLast? = some state then some left.dropLast else none) = some rest :=
      htake
    by_cases hlast : left.getLast? = some state
    · rw [if_pos hlast] at htake
      cases htake
      show left.dropLast ++ (got ++ [state]).reverse = expected
      rw [List.reverse_append, ← List.append_assoc, List.reverse_singleton,
        List.dropLast_append_getLast? state hlast, h]
    · rw [if_neg hlast] at htake
      cases htake

omit [DecidableEq σ] in
theorem ordered_settle {evs : List (Event σ δ ε)} {left : List σ} {received : List (σ × δ)}
    (h : InOrder c.type c.expected (received.map Prod.fst) left) :
    Ordered c evs (settle left received) := by
  unfold settle
  by_cases hleft : left = []
  · rw [if_pos hleft]
    subst hleft
    exact .inl h
  · rw [if_neg hleft]
    exact h

omit [DecidableEq σ] in
theorem inOrder_nil (type : StreamType) (expected : List σ) :
    InOrder type expected [] expected := by
  cases type with
  | continuous => exact List.Perm.refl expected
  | sequential => exact List.append_nil expected

theorem ordered_receive {evs : List (Event σ δ ε)} {left : List σ} {received : List (σ × δ)}
    (h : InOrder c.type c.expected (received.map Prod.fst) left) (v : StreamData σ δ) :
    Ordered c evs (receive c.type left received v) := by
  unfold receive
  cases v.state with
  | none => exact trivial
  | some state =>
    dsimp only
    by_cases hmem : state ∈ left
    · rw [if_pos hmem]
      cases v.data with
      | none => exact trivial
      | some data =>
        dsimp only
        cases htake : takeState c.type left state with
        | none => exact trivial
        | some rest =>
          refine ordered_settle ?_
          rw [List.map_append]
          exact inOrder_take h hmem htake
    · rw [if_neg hmem]
      by_cases hcont : c.type = .continuous
      · rw [if_pos hcont]
        exact trivial
      · rw [if_neg hcont]
        exact h

theorem ordered_verdict (c : Conn σ ρ) (evs : List (Event σ δ ε)) :
    Ordered c evs (verdict c evs) := by
  -- by the last event, as the verdict is
  induction evs using List.reverseRecOn with
  | nil => exact ordered_settle (inOrder_nil c.type c.expected)
  | append_singleton evs ev ih =>
    have hstep : verdict c (evs ++ [ev]) = hear c.type (verdict c evs) ev := by
      rw [verdict, verdict, List.foldl_append]
      rfl
    rw [hstep]
    cases hverdict : verdict c evs with
    | pending left received =>
      rw [hverdict] at ih
      cases ev with
      | next v => exact ordered_receive ih v
      | error e => exact trivial
      | completed => exact .inr (List.mem_append_right _ (List.mem_singleton_self _))
    | finished received =>
      rw [hverdict] at ih
      exact ih.imp_right fun hmem => List.mem_append_left _ hmem
    | failed e => exact trivial

/-! ## Every run -/

theorem Inv.waitRight {o : Observed σ δ ε ρ}
    (h : Inv c o.request (verdict c o.heard) o.waited) : WaitRight c o where
  told := h.told
  order := by
    intro received hfinished
    have := ordered_verdict c o.heard
    rw [hfinished] at this
    exact this
  awake := by
    intro hphase
    have hended : o.request.ended = false := by
      rw [Request.ended, hphase]
    obtain ⟨herror, hcompleted⟩ := h.seen hphase
    exact pending_of_agrees (h.agrees hended) herror hcompleted
  waited := by
    have htimed := h.timed
    unfold Timed at htimed
    cases hphase : o.request.phase with
    | idle =>
      rw [hphase] at htimed
      rw [show o.waited = 0 from htimed]
      exact Nat.zero_le _
    | ended outcome =>
      rw [hphase] at htimed
      exact htimed
    | _ =>
      rw [hphase] at htimed
      exact htimed.1

/-- **A request that is kept alive is told what it is promised**, in every run of events and turns
whose steps are clean. -/
theorem waitRight_of_clean (c : Conn σ ρ) (hkeep : c.keepAlive = true)
    (as : List (Action σ δ ε)) (h : Always (observe c) (Clean c) (start c) as) :
    WaitRight c (runFrom (observe c) (start c) as) := by
  have hinv : ∀ (o : Observed σ δ ε ρ) a, Inv c o.request (verdict c o.heard) o.waited →
      Clean c o a → True ∧
        Inv c (observe c o a).request (verdict c (observe c o a).heard) (observe c o a).waited :=
    fun o a ho hclean => ⟨trivial, inv_observe hkeep ho hclean⟩
  exact (always_of_inv hinv (inv_start c) h).2.waitRight

/-- The request of the route that reads a code by telephone. -/
def otpConn : Conn String Unit where
  timeout := 60
  keepAlive := true
  type := .sequential
  expected := ["completed", "dtmf-result"]
  resultToReturn := ()
  coerce := some "otp_result"
  bySubject := false

def sends (state : String) (data : Nat) : Action String Nat Unit :=
  .publish (.next ⟨some state, some data⟩)

/-- The code and then the end of the call, with a turn of the waiter after each. -/
theorem waitRight_otp :
    WaitRight otpConn (runFrom (observe otpConn) (start otpConn)
      [.call, .acquire, sends "dtmf-result" 1, .wake, .resume 0, .acquire, .elapse 3,
        sends "completed" 2, .wake, .resume 0]) := by
  refine waitRight_of_clean otpConn rfl _ ⟨trivial, ?_, ?_, trivial, trivial, ?_, trivial, ?_,
    trivial, trivial, trivial⟩
  · exact fun _ _ => ⟨rfl, rfl⟩
  · exact .inr (.inr ⟨fun h => absurd rfl h, fun h => absurd h (by decide)⟩)
  · exact fun _ _ => ⟨rfl, rfl⟩
  · exact .inr (.inr ⟨fun h => absurd rfl h, fun h => absurd h (by decide)⟩)

/-- The call ends before the code is there, and the code comes before the waiter has its turn: the
error of the first is cleared by the second, and the request returns after the next event. -/
theorem error_hidden_by_value :
    ¬ WaitRight otpConn (runFrom (observe otpConn) (start otpConn)
      [.call, .acquire, sends "completed" 0, sends "dtmf-result" 1, .wake, .resume 0, .acquire,
        sends "completed" 2, .wake, .resume 0]) := by
  intro h
  have htold := h.told _ rfl
  cases htold

end KeepAlive

end Notifyr
