import Mathlib.Data.List.Basic
import Notifyr.Theory.Runs

/-!
# A loop that passes messages on

One reader of a connection that writes what it reads to another, translated, until something fails.

- `Pipe`: what was sent, what is on its way, what was written, and whether the loop still runs.
- `faithful_run`: what was written is the beginning of what was sent, and while the loop runs all
  but what is on its way.
- `open_run`: where the sender does not close and every write works, the loop never ends.
- `closed_run`: after the sender has closed, as many turns as there are messages, and one more, end
  the loop.
-/

namespace Theory

/-- A loop, and the connection that it reads from. -/
structure Pipe (α β : Type) where
  /-- All that was sent. -/
  sent : List α := []
  /-- What of it was not read. -/
  queue : List α := []
  /-- The sender has closed. -/
  closed : Bool := false
  written : List β := []
  running : Bool := true

/-- What can happen to it. -/
inductive PipeAction (α : Type)
  | send (message : α)
  | close
  /-- A turn of the loop; `ok`: if it writes, that works. -/
  | turn (ok : Bool)
  /-- The connection that the loop reads from is lost. -/
  | lost

namespace Pipe

variable {α β : Type} (translate : α → Option β)

/-- A turn of a loop that runs. It waits where there is nothing to read yet. -/
def turn (p : Pipe α β) (ok : Bool) : Pipe α β :=
  match p.queue with
  | [] => if p.closed then { p with running := false } else p
  | message :: rest =>
    match translate message, ok with
    | some out, true => { p with queue := rest, written := p.written ++ [out] }
    | _, _ => { p with queue := rest, running := false }

def step (p : Pipe α β) : PipeAction α → Pipe α β
  | .send message =>
    if p.closed then p
    else { p with sent := p.sent ++ [message], queue := p.queue ++ [message] }
  | .close => { p with closed := true }
  | .turn ok => if p.running then p.turn translate ok else p
  | .lost => { p with running := false }

/-- What was written is the beginning of what was sent, and while the loop runs it is all but what
is on its way. -/
structure Faithful (p : Pipe α β) : Prop where
  begins : ∃ read rest, p.sent = read ++ rest ∧ read.map translate = p.written.map some
  all : p.running = true →
    ∃ read, p.sent = read ++ p.queue ∧ read.map translate = p.written.map some

variable {translate} {p : Pipe α β} {as : List (PipeAction α)}

theorem Faithful.init : Faithful translate ({} : Pipe α β) :=
  ⟨⟨[], [], rfl, rfl⟩, fun _ => ⟨[], rfl, rfl⟩⟩

/-- What ends the loop: its sender has closed and nothing is left, or the next message cannot be
passed on. -/
def Ends (translate : α → Option β) (p : Pipe α β) (ok : Bool) : Prop :=
  (p.queue = [] ∧ p.closed = true) ∨
    ∃ message ∈ p.queue.head?, translate message = none ∨ ok = false

/-- **A turn** writes the next message, or waits, or ends the loop. -/
theorem turn_cases (translate : α → Option β) (p : Pipe α β) (ok : Bool) :
    (∃ message rest out, p.queue = message :: rest ∧ translate message = some out ∧ ok = true ∧
      p.turn translate ok = { p with queue := rest, written := p.written ++ [out] }) ∨
    (p.queue = [] ∧ p.closed = false ∧ p.turn translate ok = p) ∨
    (Ends translate p ok ∧
      p.turn translate ok = { p with queue := p.queue.tail, running := false }) := by
  unfold turn Ends
  cases hqueue : p.queue with
  | nil =>
    cases hclosed : p.closed with
    | false => exact Or.inr (Or.inl ⟨rfl, rfl, rfl⟩)
    | true => exact Or.inr (Or.inr ⟨Or.inl ⟨rfl, rfl⟩, by simp⟩)
  | cons message rest =>
    cases htranslate : translate message with
    | none =>
      exact Or.inr (Or.inr ⟨Or.inr ⟨message, rfl, Or.inl htranslate⟩, by simp [htranslate]⟩)
    | some out =>
      cases ok with
      | false => exact Or.inr (Or.inr ⟨Or.inr ⟨message, rfl, Or.inr rfl⟩, by simp [htranslate]⟩)
      | true => exact Or.inl ⟨message, rest, out, rfl, htranslate, rfl, by simp [htranslate]⟩

theorem step_send {message : α} (h : p.closed = false) : p.step translate (.send message) =
    { p with sent := p.sent ++ [message], queue := p.queue ++ [message] } := by
  simp [step, h]

theorem step_send_closed {message : α} (h : p.closed = true) :
    p.step translate (.send message) = p := if_pos h

theorem step_turn {ok : Bool} (h : p.running = true) :
    p.step translate (.turn ok) = p.turn translate ok := if_pos h

theorem step_turn_ended {ok : Bool} (h : p.running = false) :
    p.step translate (.turn ok) = p := by
  simp [step, h]

theorem Faithful.turn {ok : Bool} (h : Faithful translate p) (hrunning : p.running = true) :
    Faithful translate (p.turn translate ok) := by
  obtain ⟨message, queue, out, hqueue, htranslate, -, hturn⟩ | ⟨-, -, hturn⟩ | ⟨-, hturn⟩ :=
    turn_cases translate p ok
  · rw [hturn]
    obtain ⟨read, hall, hwritten⟩ := h.all hrunning
    have hsplit : p.sent = (read ++ [message]) ++ queue := by
      rw [hall, hqueue, List.append_assoc, List.singleton_append]
    have hmap : (read ++ [message]).map translate = (p.written ++ [out]).map some := by
      simp [hwritten, htranslate]
    exact ⟨⟨_, queue, hsplit, hmap⟩, fun _ => ⟨_, hsplit, hmap⟩⟩
  · rw [hturn]
    exact h
  · rw [hturn]
    exact ⟨h.begins, nofun⟩

theorem Faithful.step (h : Faithful translate p) (a : PipeAction α) :
    Faithful translate (p.step translate a) := by
  cases a with
  | send message =>
    cases hclosed : p.closed with
    | true =>
      rw [step_send_closed hclosed]
      exact h
    | false =>
      rw [step_send hclosed]
      -- what a loop that has ended leaves unread grows
      obtain ⟨read, rest, hsent, hwritten⟩ := h.begins
      refine ⟨⟨read, rest ++ [message], by simp [hsent], hwritten⟩, fun hrunning => ?_⟩
      obtain ⟨read, hall, hwritten⟩ := h.all hrunning
      exact ⟨read, by simp [hall], hwritten⟩
  | close => exact ⟨h.begins, h.all⟩
  | lost => exact ⟨h.begins, nofun⟩
  | turn ok =>
    cases hrunning : p.running with
    | true =>
      rw [step_turn hrunning]
      exact h.turn hrunning
    | false =>
      rw [step_turn_ended hrunning]
      exact h

/-- **Nothing comes twice, nothing out of order**, and while the loop runs nothing is missing. -/
theorem faithful_run : Faithful translate (runFrom (step translate) {} as) := by
  have h : ∀ p : Pipe α β, Faithful translate p →
      Faithful translate (runFrom (step translate) p as) := by
    induction as with
    | nil => exact fun p hp => hp
    | cons a as ih => exact fun p hp => ih _ (hp.step a)
  exact h _ Faithful.init

theorem Faithful.isPrefix (h : Faithful translate p) :
    p.written.map some <+: p.sent.map translate := by
  obtain ⟨read, rest, hsent, hwritten⟩ := h.begins
  rw [hsent, List.map_append, hwritten]
  exact List.prefix_append _ _

theorem Faithful.eq_append (h : Faithful translate p) (hrunning : p.running = true) :
    p.sent.map translate = p.written.map some ++ p.queue.map translate := by
  obtain ⟨read, hall, hwritten⟩ := h.all hrunning
  rw [hall, List.map_append, hwritten]

/-! ## When the loop ends -/

/-- What keeps the loop running: messages that can be translated, and writes that work. -/
def Live (translate : α → Option β) : PipeAction α → Prop
  | .send message => (translate message).isSome = true
  | .turn ok => ok = true
  | .close | .lost => False

/-- The loop runs, its sender has not closed, and what is on its way can be translated. -/
structure Open (translate : α → Option β) (p : Pipe α β) : Prop where
  running : p.running = true
  closed : p.closed = false
  queue : ∀ message ∈ p.queue, (translate message).isSome = true

theorem Open.step (h : Open translate p) {a : PipeAction α} (ha : Live translate a) :
    Open translate (p.step translate a) := by
  cases a with
  | send message =>
    rw [step_send h.closed]
    refine ⟨h.running, h.closed, fun m hm => ?_⟩
    rcases List.mem_append.mp hm with hm | hm
    · exact h.queue m hm
    · rw [List.mem_singleton.mp hm]
      exact ha
  | turn ok =>
    rw [step_turn h.running]
    obtain ⟨message, queue, out, hqueue, -, -, hturn⟩ | ⟨-, -, hturn⟩ | ⟨hends, -⟩ :=
      turn_cases translate p ok
    · rw [hturn]
      refine ⟨h.running, h.closed, fun m hm => h.queue m ?_⟩
      rw [hqueue]
      exact List.mem_cons_of_mem _ hm
    · rw [hturn]
      exact h
    · rcases hends with ⟨-, hclosed⟩ | ⟨m, hm, hnone | hok⟩
      · rw [h.closed] at hclosed
        cases hclosed
      · have hsome := h.queue m (List.mem_of_mem_head? hm)
        rw [hnone] at hsome
        cases hsome
      · exact (Bool.false_ne_true (hok.symm.trans ha)).elim
  | close => exact ha.elim
  | lost => exact ha.elim

/-- **A loop that nothing ends waits forever** for a sender that does not close. -/
theorem open_run (has : ∀ a ∈ as, Live translate a) (h : Open translate p) :
    Open translate (runFrom (step translate) p as) := by
  induction as generalizing p with
  | nil => exact h
  | cons a as ih =>
    obtain ⟨ha, has⟩ := List.forall_mem_cons.mp has
    exact ih has (h.step ha)

/-- A loop that has ended has ended. -/
theorem ended_step (h : p.running = false) (a : PipeAction α) :
    (p.step translate a).running = false := by
  cases a with
  | send message =>
    unfold Pipe.step
    split_ifs <;> exact h
  | close => exact h
  | lost => rfl
  | turn ok =>
    rw [step_turn_ended h]
    exact h

theorem ended_run (h : p.running = false) :
    (runFrom (step translate) p as).running = false := by
  induction as generalizing p with
  | nil => exact h
  | cons a as ih => exact ih (ended_step h a)

/-- How often the loop has its turn. -/
def turns (as : List (PipeAction α)) : ℕ :=
  as.countP fun
    | .turn _ => true
    | _ => false

/-- **After the sender has closed**, as many turns as there are messages, and one more, end the
loop, whatever else happens in between. -/
theorem closed_run (hclosed : p.closed = true) (hturns : p.queue.length < turns as) :
    (runFrom (step translate) p as).running = false := by
  induction as generalizing p with
  | nil => exact absurd hturns (Nat.not_lt_zero _)
  | cons a as ih =>
    cases hrunning : p.running with
    | false => exact ended_run hrunning
    | true =>
      cases a with
      | send message =>
        rw [runFrom_cons, step_send_closed hclosed]
        exact ih hclosed hturns
      | close => exact ih rfl hturns
      | lost => exact ended_run (p := { p with running := false }) rfl
      | turn ok =>
        have hcount : turns (.turn ok :: as) = turns as + 1 := List.countP_cons_of_pos rfl
        rw [runFrom_cons, step_turn hrunning]
        obtain ⟨message, queue, out, hqueue, -, -, hturn⟩ | ⟨-, hopen, -⟩ | ⟨-, hturn⟩ :=
          turn_cases translate p ok
        -- a turn takes one message, and nothing is sent any more
        · rw [hturn]
          refine ih hclosed ?_
          rw [hcount, hqueue, List.length_cons] at hturns
          exact Nat.lt_of_succ_lt_succ hturns
        · exact absurd (hopen.symm.trans hclosed) Bool.false_ne_true
        · rw [hturn]
          exact ended_run rfl

end Pipe

end Theory
