import Notifyr.Cost.Bill
import Notifyr.Theory.Prog

/-!
# The limiter database and redis-py pipelines

The credit balances and bill lists live in one Redis database. A client reaches it directly
or through a pipeline of `redis.asyncio`:

- `Redis`: string keys (decimal integers), list keys (bills, newest first, as `LPUSH` leaves
  them) and a write counter per key, which is what `WATCH` observes.
- `Pipeline`: the client-side state. A command issued while the pipeline is watching and not
  yet in `multi()` runs at once; any other command is queued and the call returns the
  pipeline itself.
- `pipelineHandler`: one client call. `execute` in an explicit transaction runs the queue
  atomically unless a watched key has been written since, and then raises `WatchError`; it
  always resets the pipeline.
-/

namespace Notifyr

open Theory

/-- The limiter database. -/
structure Redis where
  strings : String → Option ℤ
  lists : String → List Bill
  /-- Number of writes to a key so far. -/
  writes : String → Nat

/-- Redis commands used on the limiter database. -/
inductive Command
  | get (key : String)
  | set (key : String) (value : ℤ)
  | decrby (key : String) (amount : ℤ)
  | lpush (key : String) (bill : Bill)

/-- What a call returns. The limiter client does not decode responses, so a value read is
`bytes`; a queued command returns the pipeline. -/
inductive Reply
  | none
  | bytes (value : ℤ)
  | done
  | pipeline
  deriving DecidableEq

/-- `int(reply)`. -/
def Reply.int : Reply → Py ℤ
  | .bytes n => .ok n
  | _ => .error .typeError

/-- One command on the server. -/
def Command.exec (r : Redis) : Command → Reply × Redis
  | .get key =>
    (match r.strings key with
      | some n => .bytes n
      | none => .none, r)
  | .set key value =>
    (.done, { r with
      strings := Function.update r.strings key (some value)
      writes := Function.update r.writes key (r.writes key + 1) })
  | .decrby key amount =>
    (.done, { r with
      strings := Function.update r.strings key (some ((r.strings key).getD 0 - amount))
      writes := Function.update r.writes key (r.writes key + 1) })
  | .lpush key bill =>
    (.done, { r with
      lists := Function.update r.lists key (bill :: r.lists key)
      writes := Function.update r.writes key (r.writes key + 1) })

/-- The queue of an `EXEC`, in order. -/
def execAll (r : Redis) (cs : List Command) : Redis :=
  cs.foldl (fun r c => (c.exec r).2) r

/-- The client-side state of a `redis.asyncio` pipeline opened with `transaction=False`. -/
structure Pipeline where
  watching : Bool := false
  /-- The watched keys with the write counter seen by `WATCH`. -/
  watched : List (String × Nat) := []
  explicitTransaction : Bool := false
  commandStack : List Command := []

/-- The connection a command goes through: the client's pipeline, or the database client. -/
inductive Conn
  | pipe
  | db

/-- The client calls of the ledger code. -/
inductive PipeCall
  | command (conn : Conn) (c : Command)
  | watch (key : String)
  | unwatch
  | multi
  | execute
  | reset

/-- `Pipeline.execute`. -/
def Pipeline.execute (r : Redis) (p : Pipeline) : Py Reply × Redis × Pipeline :=
  if p.commandStack.isEmpty && !p.watching then (.ok .done, r, {})
  else if p.explicitTransaction && p.watched.any fun kv => r.writes kv.1 != kv.2 then
    (.error .watchError, r, {})
  else (.ok .done, execAll r p.commandStack, {})

/-- One client call, atomically: reply, database, pipeline. -/
def pipelineHandler : Handler PipeCall Reply PyErr Redis Pipeline
  | .command .db c, r, p => (.ok (c.exec r).1, (c.exec r).2, p)
  | .command .pipe c, r, p =>
    if p.watching && !p.explicitTransaction then (.ok (c.exec r).1, (c.exec r).2, p)
    else (.ok .pipeline, r, { p with commandStack := p.commandStack ++ [c] })
  | .watch key, r, p =>
    if p.explicitTransaction then (.error .redisError, r, p)
    else (.ok .done, r,
      { p with watching := true, watched := p.watched ++ [(key, r.writes key)] })
  | .unwatch, r, p => (.ok .done, r, { p with watching := false, watched := [] })
  | .multi, r, p =>
    if p.explicitTransaction || !p.commandStack.isEmpty then (.error .redisError, r, p)
    else (.ok .done, r, { p with explicitTransaction := true })
  | .execute, r, p => p.execute r
  | .reset, r, _ => (.ok .done, r, {})

/-- Programs of a ledger client. -/
abbrev Client := Prog PipeCall Reply PyErr

/-- Only writes advance write counters, and a key whose counter has not moved holds what it
held. -/
def WritesGrow (r r' : Redis) : Prop :=
  ∀ key, r.writes key ≤ r'.writes key ∧
    (r'.writes key = r.writes key → r'.strings key = r.strings key)

theorem WritesGrow.refl (r : Redis) : WritesGrow r r := fun _ => ⟨le_rfl, fun _ => rfl⟩

theorem WritesGrow.trans (a b c : Redis) (h₁ : WritesGrow a b) (h₂ : WritesGrow b c) :
    WritesGrow a c := by
  intro key
  obtain ⟨hle₁, heq₁⟩ := h₁ key
  obtain ⟨hle₂, heq₂⟩ := h₂ key
  refine ⟨hle₁.trans hle₂, fun h => ?_⟩
  have hcb : c.writes key = b.writes key := by omega
  have hba : b.writes key = a.writes key := by omega
  exact (heq₂ hcb).trans (heq₁ hba)

/-- Every command only advances write counters. -/
theorem writesGrow_exec (r : Redis) (c : Command) : WritesGrow r (c.exec r).2 := by
  intro key
  cases c with
  | get k => exact ⟨le_rfl, fun _ => rfl⟩
  | set k v =>
    by_cases hk : key = k
    · subst hk
      simp [Command.exec]
    · simp [Command.exec, Function.update_of_ne hk]
  | decrby k n =>
    by_cases hk : key = k
    · subst hk
      simp [Command.exec]
    · simp [Command.exec, Function.update_of_ne hk]
  | lpush k b =>
    by_cases hk : key = k
    · subst hk
      simp [Command.exec]
    · simp [Command.exec, Function.update_of_ne hk]

theorem writesGrow_execAll (r : Redis) (cs : List Command) : WritesGrow r (execAll r cs) := by
  induction cs generalizing r with
  | nil => exact WritesGrow.refl r
  | cons c rest ih => exact (writesGrow_exec r c).trans _ _ _ (ih _)

end Notifyr
