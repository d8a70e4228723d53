import Mathlib.Algebra.BigOperators.Fin
import Notifyr.Cost.CostService

/-!
# The credit ledger under interleaving

Any number of `deduct_credits` and `refund_credits` calls run on one existing credit key, and
their client calls interleave in any order.

- `LedgerCall`, `ledger`: a call and the configuration of a family of calls.
- `LedgerSound`: what a finished run of the ledger owes its callers.
- `LedgerStep`: what a single client call of a ledger program can do to the database: nothing,
  or the whole deduction at once.
- `sat_deductCredits`: every command of a deduction is a `LedgerStep`, under any interference,
  and it commits if and only if it returns.
- `sat_refundCredits`: a refund issues one queued read and raises.
- `ledger_inv`: the balance over a whole run, by the run rule.
-/

namespace Notifyr

open Theory Theory.Prog

/-- A call on the ledger. The clock of a deduction gives the month each attempt reads. -/
inductive LedgerCall
  | deduct (bill : Bill) (clock : Nat → Month) (retryLimit : Nat)
  | refund (bill : Bill) (now : Month)

namespace LedgerCall

/-- `bill['total']`. -/
def total : LedgerCall → ℤ
  | deduct bill _ _ => bill.total
  | refund bill _ => bill.total

/-- The call is to `refund_credits`. -/
def isRefund : LedgerCall → Bool
  | deduct _ _ _ => false
  | refund _ _ => true

/-- The program of a call. -/
def program (cfg : CostConfig) (creditKey : String) : LedgerCall → Client (Option ℤ)
  | deduct bill clock retryLimit => deductCredits cfg creditKey bill clock retryLimit
  | refund bill now => refundCredits cfg creditKey bill now

end LedgerCall

/-- A configuration of ledger clients. -/
abbrev LedgerConfig (n : Nat) := Config PipeCall Reply PyErr Redis Pipeline (Option ℤ) (Fin n)

/-- The calls, not yet started, on a database. -/
def ledger {n : Nat} (cfg : CostConfig) (credit : String) (db : Redis)
    (calls : Fin n → LedgerCall) : LedgerConfig n where
  shared := db
  prog i := (calls i).program cfg (redisCreditKey credit)
  loc _ := {}

/-- The configuration a schedule leads to. -/
def ledgerRun {n : Nat} (cfg : CostConfig) (credit : String) (db : Redis)
    (calls : Fin n → LedgerCall) (sched : List (Fin n)) : LedgerConfig n :=
  (ledger cfg credit db calls).run pipelineHandler sched

/-- What a finished run of the ledger owes its callers: the balance accounts for exactly the
calls that returned, no client call of a call that raised has touched a balance or a bill list,
and refunds return. -/
structure LedgerSound {n : Nat} (cfg : CostConfig) (credit : String) (db : Redis)
    (calls : Fin n → LedgerCall) (balance : ℤ) (sched : List (Fin n)) : Prop where
  balance_eq : (ledgerRun cfg credit db calls sched).shared.strings (redisCreditKey credit) =
    some (balance - ∑ i, if (ledgerRun cfg credit db calls sched).returned i
      then (calls i).total else 0)
  raised_unchanged : ∀ i, (ledgerRun cfg credit db calls sched).returned i = false →
    ∀ before after, sched = before ++ i :: after →
      (ledgerRun cfg credit db calls (before ++ [i])).shared.strings =
          (ledgerRun cfg credit db calls before).shared.strings ∧
        (ledgerRun cfg credit db calls (before ++ [i])).shared.lists =
          (ledgerRun cfg credit db calls before).shared.lists
  refund_returns : ∀ i, (calls i).isRefund = true →
    (ledgerRun cfg credit db calls sched).returned i = true

/-! ## What one client call can do -/

/-- The guarantee of a ledger program whose bill totals `total`. Its ghost says whether it has
committed: a client call leaves balances and bill lists alone, or it commits, once, and takes
the total off the balance it finds. -/
def LedgerStep (key : String) (total : ℤ) (g : Bool) (s : Redis) (g' : Bool) (s' : Redis) :
    Prop :=
  WritesGrow s s' ∧
    ((g' = g ∧ s'.strings = s.strings ∧ s'.lists = s.lists) ∨
      (g = false ∧ g' = true ∧
        ∃ b, s.strings key = some b ∧ s'.strings key = some (b - total)))

section LedgerStep

variable {key : String} {total : ℤ} {g g' : Bool} {s s' : Redis}

theorem LedgerStep.idle : LedgerStep key total g s g s :=
  ⟨WritesGrow.refl s, .inl ⟨rfl, rfl, rfl⟩⟩

theorem LedgerStep.writesGrow (h : LedgerStep key total g s g' s') : WritesGrow s s' := h.1

theorem LedgerStep.le (h : LedgerStep key total g s g' s') : g ≤ g' := by
  rcases h.2 with ⟨hg, -, -⟩ | ⟨hg, -, -⟩
  · rw [hg]
  · rw [hg]
    exact Bool.false_le _

/-- A step after which the program has still not committed changed nothing. -/
theorem LedgerStep.unchanged (h : LedgerStep key total g s false s') :
    s'.strings = s.strings ∧ s'.lists = s.lists := by
  rcases h.2 with ⟨-, hs⟩ | ⟨-, hg, -⟩
  · exact hs
  · cases hg

end LedgerStep

/-! ## The programs meet the guarantee -/

section Programs

variable {cfg : CostConfig} {key : String} {bill : Bill} {total : ℤ} {s : Redis}

/-- The judgement of this section: other clients only ever advance write counters. -/
abbrev LedgerSat {α : Type} (key : String) (total : ℤ)
    (post : Py α → Pipeline → Bool → Prop) :
    Client α → Pipeline → Bool → Redis → Prop :=
  Sat pipelineHandler WritesGrow (LedgerStep key total) post

/-- The pipeline after `WATCH key` has seen the counter `w`. -/
def Pipeline.watchingOn (key : String) (w : Nat) : Pipeline :=
  { watching := true, watched := [(key, w)] }

/-- That pipeline after `multi()`, with a queue. -/
def Pipeline.queued (key : String) (w : Nat) (cs : List Command) : Pipeline :=
  { Pipeline.watchingOn key w with explicitTransaction := true, commandStack := cs }

theorem command_watchingOn (w : Nat) (c : Command) (r : Redis) :
    pipelineHandler (.command .pipe c) r (Pipeline.watchingOn key w) =
      (.ok (c.exec r).1, (c.exec r).2, Pipeline.watchingOn key w) := rfl

/-- An `EXEC` on a queue: the watched counter decides. -/
theorem execute_queued (w : Nat) (cs : List Command) (r : Redis) :
    pipelineHandler .execute r (Pipeline.queued key w cs) =
      if r.writes key = w then (.ok .done, execAll r cs, {})
      else (.error .watchError, r, {}) := by
  by_cases h : r.writes key = w
  · simp [pipelineHandler, Pipeline.execute, Pipeline.queued, Pipeline.watchingOn, h]
  · simp [pipelineHandler, Pipeline.execute, Pipeline.queued, Pipeline.watchingOn, h]

/-- Resetting the pipeline is idle, and leaves a fresh pipeline. -/
theorem sat_tryFinally_close {α : Type} (mid : Py α → Pipeline → Bool → Prop)
    {post : Py α → Pipeline → Bool → Prop} {p : Client α} {l : Pipeline} {g : Bool}
    (hp : LedgerSat key total mid p l g s)
    (hpost : ∀ r l g, mid r l g → post r {} g) :
    LedgerSat key total post (tryFinally p closePipeline) l g s := by
  refine Sat.andThen pipelineHandler WritesGrow hp ?_
  intro r l' g' s' hr t ht
  exact ⟨g', LedgerStep.idle, hpost r l' g' hr⟩

/-- Queueing a command is idle. -/
theorem sat_queue {α : Type} {post : Py α → Pipeline → Bool → Prop} {g : Bool} (w : Nat)
    (cs : List Command) (c : Command) {f : Reply → Client α}
    (h : ∀ t, WritesGrow s t →
      LedgerSat key total post (f .pipeline) (Pipeline.queued key w (cs ++ [c])) g t) :
    LedgerSat key total post (issue (.command .pipe c) >>= f) (Pipeline.queued key w cs) g s :=
  Sat.issue_bind pipelineHandler WritesGrow fun t ht => ⟨g, LedgerStep.idle, h t ht⟩

/-- `execute()` on a queue that is the whole deduction: if nobody has written the key since
the balance `b` was read, this is the commit, otherwise it raises `WatchError`. -/
theorem sat_execute {b : ℤ} {w : Nat} {cs : List Command}
    (hseen : s.writes key = w → s.strings key = some b) (hw : w ≤ s.writes key)
    (hcs : ∀ r, (execAll r cs).strings key = some (b - total)) :
    LedgerSat key total (fun r _ g => r.isOk = g)
      (do
        let _ ← issue .execute
        return ())
      (Pipeline.queued key w cs) false s := by
  refine Sat.issue_bind pipelineHandler WritesGrow fun t ht => ?_
  rw [execute_queued]
  by_cases hkey : t.writes key = w
  · -- nobody has written the key, so the balance is still the one that was read
    obtain ⟨hle, hsame⟩ := ht key
    have hs : s.writes key = w := by omega
    have hb : t.strings key = some b := by
      rw [hsame (by omega)]
      exact hseen hs
    rw [if_pos hkey]
    exact ⟨true, ⟨writesGrow_execAll t cs, .inr ⟨rfl, rfl, b, hb, hcs t⟩⟩, rfl⟩
  · rw [if_neg hkey]
    exact ⟨false, LedgerStep.idle, rfl⟩

/-- With the credit system on, a bill is pushed unless its total is zero. -/
theorem pushBill_eq (hcfg : cfg.costFlag = true) (now : Month) :
    pushBill cfg key bill now (some .pipe) =
      if bill.total = 0 then pure ()
      else do
        let _ ← issue (.command .pipe (.lpush (billKey key now) bill))
        return () := by
  unfold pushBill
  rw [hcfg]
  rfl

/-- What is known of the store between reading the balance and executing the queue is kept by
other clients' commands. -/
theorem seen_stable {b : ℤ} {w : Nat} {t : Redis} (ht : WritesGrow s t)
    (h : (s.writes key = w → s.strings key = some b) ∧ w ≤ s.writes key) :
    (t.writes key = w → t.strings key = some b) ∧ w ≤ t.writes key := by
  obtain ⟨hle, hsame⟩ := ht key
  refine ⟨fun hw => ?_, by omega⟩
  rw [hsame (by omega)]
  exact h.1 (by omega)

/-- From `multi()` on, the deduction of a bill from a balance `b` seen under the counter
`w`. -/
theorem sat_commit {b : ℤ} {w : Nat} (hcfg : cfg.costFlag = true) (now : Month)
    (h : (s.writes key = w → s.strings key = some b) ∧ w ≤ s.writes key) :
    LedgerSat key bill.total (fun r _ g => r.isOk = g)
      (do
        let _ ← issue .multi
        let _ ← issue (.command .pipe (.set key (b - bill.total)))
        pushBill cfg key (bill.setBalance b) now (some .pipe)
        let _ ← issue .execute
        return ())
      (Pipeline.watchingOn key w) false s := by
  refine Sat.issue_bind pipelineHandler WritesGrow fun t ht => ⟨false, LedgerStep.idle, ?_⟩
  have h := seen_stable ht h
  refine sat_queue w [] _ fun u hu => ?_
  have h := seen_stable hu h
  rw [pushBill_eq hcfg, Bill.setBalance_total]
  by_cases htotal : bill.total = 0
  · rw [if_pos htotal]
    refine sat_execute h.1 h.2 fun r => ?_
    simp [execAll, Command.exec]
  · rw [if_neg htotal, Prog.bind_assoc]
    refine sat_queue w _ _ fun v hv => ?_
    have h := seen_stable hv h
    refine sat_execute h.1 h.2 fun r => ?_
    simp [execAll, Command.exec]

/-- One turn up to the end of the transaction: it commits if and only if it gets through. -/
theorem sat_deductBody (hcfg : cfg.costFlag = true) (now : Month) :
    LedgerSat key bill.total (fun r _ g => r.isOk = g) (deductBody cfg key bill now) {} false
      s := by
  refine Sat.issue_bind_ok pipelineHandler WritesGrow fun t ht =>
    ⟨.done, t, Pipeline.watchingOn key (t.writes key), false, rfl, LedgerStep.idle, ?_⟩
  refine Sat.issue_bind_ok pipelineHandler WritesGrow fun u hu => ?_
  -- the key is watched; the balance is read, and may be missing
  cases hb : u.strings key with
  | none =>
    have hget : (Command.get key).exec u = (.none, u) := by simp [Command.exec, hb]
    refine ⟨.none, u, Pipeline.watchingOn key (t.writes key), false, ?_, LedgerStep.idle, rfl⟩
    rw [command_watchingOn, hget]
  | some b =>
    have hget : (Command.get key).exec u = (.bytes b, u) := by simp [Command.exec, hb]
    refine ⟨.bytes b, u, Pipeline.watchingOn key (t.writes key), false, ?_, LedgerStep.idle,
      ?_⟩
    · rw [command_watchingOn, hget]
    · show LedgerSat key bill.total _ (if b < bill.total && !cfg.creditOverdraftAllowed then _
        else _) _ false u
      by_cases hfunds : (b < bill.total && !cfg.creditOverdraftAllowed) = true
      · rw [if_pos hfunds]
        refine Sat.issue_bind_ok pipelineHandler WritesGrow fun v _ =>
          ⟨.done, v, _, false, rfl, LedgerStep.idle, rfl⟩
      · rw [if_neg hfunds]
        exact sat_commit hcfg now ⟨fun _ => hb, (hu key).1⟩

/-- One turn of the loop leaves a fresh pipeline. It commits if and only if it says so. -/
theorem sat_deductAttempt (hcfg : cfg.costFlag = true) (now : Month) :
    LedgerSat key bill.total (fun r l g => l = {} ∧ (g = true ↔ r = .ok true))
      (deductAttempt cfg key bill now) {} false s := by
  refine sat_tryFinally_close (fun r _ g => g = true ↔ r = .ok true) ?_
    fun r l g h => ⟨rfl, h⟩
  refine sat_tryFinally_close (fun r _ g => g = true ↔ r = .ok true) ?_ fun r l g h => h
  -- only the body commits; what follows turns its outcome into `true`, `false` or an exception
  have hbody : LedgerSat key bill.total (fun r _ g => g = true ↔ r = .ok true)
      (do
        deductBody cfg key bill now
        return true) {} false s := by
    refine Sat.andThen pipelineHandler WritesGrow (sat_deductBody hcfg now) ?_
    intro r l g t hr
    cases r with
    | ok u => exact ⟨fun _ => rfl, fun _ => hr.symm⟩
    | error e =>
      have hg : g = false := hr.symm
      subst hg
      exact ⟨nofun, nofun⟩
  -- a `WatchError` becomes `False`, any other exception goes on
  refine Sat.andThen pipelineHandler WritesGrow hbody ?_
  intro r l g t hr
  cases r with
  | ok u => exact hr
  | error e =>
    have hg : g = false := by simpa using hr
    subst hg
    cases e <;> exact ⟨nofun, nofun⟩

/-- The loop of `deduct_credits` commits if and only if it returns. -/
theorem sat_deductLoop (hcfg : cfg.costFlag = true) (clock : Nat → Month) (left retry : Nat) :
    LedgerSat key bill.total (fun r _ g => r.isOk = g)
      (deductLoop cfg key bill clock left retry) {} false s := by
  induction left generalizing retry s with
  | zero => exact rfl
  | succ left ih =>
    refine Sat.andThen pipelineHandler WritesGrow (sat_deductAttempt hcfg (clock retry)) ?_
    rintro r l g t ⟨rfl, hr⟩
    cases r with
    | ok committed =>
      cases committed with
      | true =>
        have hg : g = true := hr.mpr rfl
        subst hg
        exact rfl
      | false =>
        have hg : g = false := by simpa using hr
        subst hg
        exact ih (retry + 1)
    | error e =>
      have hg : g = false := by simpa using hr
      subst hg
      exact rfl

/-- **Deductions.** Under any interference a deduction is a sequence of ledger steps, and it
commits if and only if it returns. -/
theorem sat_deductCredits (hcfg : cfg.costFlag = true) (clock : Nat → Month)
    (retryLimit : Nat) :
    LedgerSat key bill.total (fun r _ g => r.isOk = g)
      (deductCredits cfg key bill clock retryLimit) {} false s := by
  unfold deductCredits
  rw [hcfg]
  exact sat_deductLoop hcfg clock retryLimit 0

/-- **Refunds.** The pipeline is not watching, so the read is queued, the balance the program
sees is the pipeline itself, and converting it to a number raises. -/
theorem sat_refundCredits (hcfg : cfg.costFlag = true) (creditKey : String) (now : Month) :
    LedgerSat key total (fun r l g => r = .error .typeError ∧ l = {} ∧ g = false)
      (refundCredits cfg creditKey bill now) {} false s := by
  unfold refundCredits
  rw [hcfg]
  -- the queued read, then the reset of the pipeline
  intro t _
  refine ⟨false, LedgerStep.idle, ?_⟩
  intro u _
  exact ⟨false, LedgerStep.idle, rfl, rfl, rfl⟩

/-- A deduction that is run alone and returns has taken its total off the balance. -/
theorem deductCredits_alone (hcfg : cfg.costFlag = true) (clock : Nat → Month) (retryLimit : Nat)
    (h : (runAlone pipelineHandler (deductCredits cfg key bill clock retryLimit) s {}).1.isOk =
      true) :
    ∃ b, s.strings key = some b ∧
      (runAlone pipelineHandler (deductCredits cfg key bill clock retryLimit) s {}).2.1.strings
        key = some (b - bill.total) := by
  have hsat : LedgerSat key bill.total (fun r _ g => r.isOk = g)
      (deductCredits cfg key bill clock retryLimit) {} false s :=
    sat_deductCredits hcfg clock retryLimit
  obtain ⟨g, hg, hJ⟩ := Sat.runAlone pipelineHandler WritesGrow WritesGrow.refl hsat
    (J := fun g t => (g = false → t.strings key = s.strings key) ∧
      (g = true → ∃ b, s.strings key = some b ∧ t.strings key = some (b - bill.total)))
    (by
      rintro g t g' t' ⟨-, ⟨rfl, hsame, -⟩ | ⟨rfl, rfl, b, hb, hb'⟩⟩ ⟨hbefore, hafter⟩
      · rw [hsame]
        exact ⟨hbefore, hafter⟩
      · exact ⟨nofun, fun _ => ⟨b, (hbefore rfl).symm.trans hb, hb'⟩⟩)
    ⟨fun _ => rfl, nofun⟩
  exact hJ.2 (hg.symm.trans h)

/-- A program that never commits leaves the balances as they are. -/
theorem strings_of_sat {α : Type} {p : Client α}
    (hp : LedgerSat key total (fun _ l g => l = {} ∧ g = false) p {} false s) :
    (runAlone pipelineHandler p s {}).2.1.strings = s.strings := by
  obtain ⟨g, hg, hJ⟩ := Sat.runAlone pipelineHandler WritesGrow WritesGrow.refl hp
    (J := fun g t => g = false → t.strings = s.strings)
    (by
      rintro g t g' t' hstep hbefore rfl
      have hle := hstep.le
      have hg : g = false := Bool.eq_false_of_le_false hle
      rw [hstep.unchanged.1]
      exact hbefore hg)
    fun _ => rfl
  exact hJ hg.2

end Programs

/-! ## Whole runs -/

section Runs

variable {n : Nat} {cfg : CostConfig} {credit : String} {db : Redis}
  {calls : Fin n → LedgerCall} {balance : ℤ}

/-- What a ledger call has done when it ends: it committed if and only if it returned, and a
refund did not return. -/
def LedgerPost (call : LedgerCall) (r : Py (Option ℤ)) (_ : Pipeline) (g : Bool) : Prop :=
  r.isOk = g ∧ (call.isRefund = true → r.isOk = false)

theorem sat_program (hcfg : cfg.costFlag = true) (key : String) (call : LedgerCall) (s : Redis) :
    LedgerSat key call.total (LedgerPost call) (call.program cfg key) {} false s := by
  cases call with
  | deduct bill clock retryLimit =>
    refine (sat_deductCredits hcfg clock retryLimit).weaken pipelineHandler WritesGrow ?_
    intro r l g hr
    exact ⟨hr, nofun⟩
  | refund bill now =>
    refine (sat_refundCredits hcfg key now).weaken pipelineHandler WritesGrow ?_
    rintro r l g ⟨rfl, -, rfl⟩
    exact ⟨rfl, fun _ => rfl⟩

/-- The balance invariant: the initial balance less the totals of the committed calls. -/
def LedgerInv (calls : Fin n → LedgerCall) (key : String) (balance : ℤ) (s : Redis)
    (gh : Fin n → Bool) : Prop :=
  s.strings key = some (balance - ∑ i, if gh i then (calls i).total else 0)

/-- Committing one more call adds its total to the sum. -/
theorem sum_committed_update {gh : Fin n → Bool} {i : Fin n} (t : Fin n → ℤ)
    (hi : gh i = false) :
    (∑ j, if Function.update gh i true j then t j else 0) =
      t i + ∑ j, if gh j then t j else 0 := by
  have hupd : (fun j => if Function.update gh i true j then t j else 0) =
      Function.update (fun j => if gh j then t j else 0) i (t i) := by
    funext j
    by_cases hj : j = i
    · subst hj
      simp
    · simp [Function.update_of_ne hj]
  have hmem : i ∈ (Finset.univ : Finset (Fin n)) := Finset.mem_univ i
  rw [hupd, Finset.sum_update_of_mem hmem, Finset.sum_eq_add_sum_sdiff_singleton_of_mem hmem]
  simp [hi]

theorem ledgerInv_step {key : String} (i : Fin n) {s s' : Redis} {gh : Fin n → Bool}
    {g' : Bool} (hstep : LedgerStep key (calls i).total (gh i) s g' s')
    (h : LedgerInv calls key balance s gh) :
    LedgerInv calls key balance s' (Function.update gh i g') := by
  unfold LedgerInv at *
  rcases hstep.2 with ⟨hg, hs, -⟩ | ⟨hg, hg', b, hb, hb'⟩
  · rw [hg, Function.update_eq_self, hs]
    exact h
  · -- the one step that commits, on the balance the invariant gives
    have hbal : b = balance - ∑ j, if gh j then (calls j).total else 0 :=
      Option.some.inj (hb.symm.trans h)
    rw [hb', hg', sum_committed_update _ hg]
    congr 1
    omega

/-- The invariant together with the judgement of every call. -/
structure LedgerOk (calls : Fin n → LedgerCall) (key : String) (balance : ℤ)
    (c : LedgerConfig n) (gh : Fin n → Bool) : Prop where
  sat : AllSat pipelineHandler WritesGrow (fun i => LedgerStep key (calls i).total)
    (fun i => LedgerPost (calls i)) c gh
  inv : LedgerInv calls key balance c.shared gh

theorem ledgerOk_start (hcfg : cfg.costFlag = true)
    (hkey : db.strings (redisCreditKey credit) = some balance) :
    LedgerOk calls (redisCreditKey credit) balance (ledger cfg credit db calls)
      fun _ => false where
  sat i := sat_program hcfg (redisCreditKey credit) (calls i) db
  inv := by
    show db.strings (redisCreditKey credit) = _
    simp [hkey]

/-- Every schedule keeps the invariant, for ghosts that only grow. -/
theorem ledgerOk_run {key : String} {c : LedgerConfig n} {gh : Fin n → Bool}
    (h : LedgerOk calls key balance c gh) (sched : List (Fin n)) :
    ∃ gh', LedgerOk calls key balance (c.run pipelineHandler sched) gh' ∧
      ∀ i, gh i ≤ gh' i := by
  obtain ⟨gh', hsat, hinv, hle⟩ := inv_run pipelineHandler WritesGrow WritesGrow.refl
    WritesGrow.trans (fun _ _ _ _ _ h => h.writesGrow) (fun _ _ _ _ _ h => h.le)
    (J := LedgerInv calls key balance)
    (fun i _ _ _ _ hstep h => ledgerInv_step i hstep h) sched h.sat h.inv
  exact ⟨gh', ⟨hsat, hinv⟩, hle⟩

/-- The ghost of a call that has ended is whether it returned. -/
theorem LedgerOk.returned_eq {key : String} {c : LedgerConfig n} {gh : Fin n → Bool}
    (h : LedgerOk calls key balance c gh) (hfin : c.Finished) (i : Fin n) :
    c.returned i = gh i ∧ ((calls i).isRefund = true → c.returned i = false) := by
  obtain ⟨r, hr⟩ := Option.ne_none_iff_exists'.mp (hfin i)
  rw [Config.returned_eq hr]
  exact h.sat.post_of_result pipelineHandler WritesGrow hr

/-- A client call of a call that ends up raising changes nothing. -/
theorem LedgerOk.raised_step {key : String} {c : LedgerConfig n} {gh : Fin n → Bool}
    (h : LedgerOk calls key balance c gh) (i : Fin n) (after : List (Fin n))
    (hfin : (c.run pipelineHandler (i :: after)).Finished)
    (hraised : (c.run pipelineHandler (i :: after)).returned i = false) :
    (c.step pipelineHandler i).shared.strings = c.shared.strings ∧
      (c.step pipelineHandler i).shared.lists = c.shared.lists := by
  rcases allSat_step pipelineHandler WritesGrow WritesGrow.refl WritesGrow.trans
    (fun _ _ _ _ _ h => h.writesGrow) h.sat i with hsame | ⟨g', hstep, hsat⟩
  · rw [hsame]
    exact ⟨rfl, rfl⟩
  · -- ghosts only grow, so a call that raises in the end has not committed here
    obtain ⟨gh', hok, hle⟩ :=
      ledgerOk_run ⟨hsat, ledgerInv_step i hstep h.inv⟩ after
    have hg : gh' i = false := by
      rw [← (hok.returned_eq hfin i).1]
      exact hraised
    have hle : g' ≤ gh' i := by
      have := hle i
      rwa [Function.update_self] at this
    have hg' : g' = false := by
      rw [hg] at hle
      exact Bool.eq_false_of_le_false hle
    subst hg'
    exact hstep.unchanged

/-- With the credit system on and no refund among the calls, every finished run is sound. -/
theorem ledgerSound_of_deductions (hcfg : cfg.costFlag = true)
    (hkey : db.strings (redisCreditKey credit) = some balance)
    (hno : ∀ i, (calls i).isRefund = false) {sched : List (Fin n)}
    (hfin : (ledgerRun cfg credit db calls sched).Finished) :
    LedgerSound cfg credit db calls balance sched where
  balance_eq := by
    obtain ⟨gh, hok, -⟩ := ledgerOk_run (ledgerOk_start hcfg hkey) sched
    have hret : ∀ i, (ledgerRun cfg credit db calls sched).returned i = gh i :=
      fun i => (hok.returned_eq hfin i).1
    simp only [hret]
    exact hok.inv
  raised_unchanged := by
    rintro i hraised before after rfl
    obtain ⟨gh, hok, -⟩ := ledgerOk_run (ledgerOk_start hcfg hkey) before
    unfold ledgerRun at *
    rw [Config.run_append] at hfin hraised
    rw [Config.run_append]
    exact hok.raised_step i after hfin hraised
  refund_returns := by
    intro i hi
    rw [hno i] at hi
    cases hi

/-- No call can hang: every run can be continued to a finished one. -/
theorem ledger_completes (sched : List (Fin n)) :
    ∃ more, (ledgerRun cfg credit db calls (sched ++ more)).Finished := by
  obtain ⟨more, h⟩ := Config.exists_finished pipelineHandler
    (ledgerRun cfg credit db calls sched)
  refine ⟨more, ?_⟩
  unfold ledgerRun at *
  rw [Config.run_append]
  exact h

/-- With the credit system off every call returns at once. -/
theorem ledgerRun_off (hcfg : cfg.costFlag = false) (sched : List (Fin n)) :
    ledgerRun cfg credit db calls sched = ledger cfg credit db calls ∧
      ∀ i, (ledger cfg credit db calls).returned i = true := by
  have hret : ∀ i, ∃ v, ((ledger cfg credit db calls).prog i).result? = some (.ok v) := by
    intro i
    show ∃ v, ((calls i).program cfg (redisCreditKey credit)).result? = some (.ok v)
    cases calls i with
    | deduct bill clock retryLimit =>
      refine ⟨some 0, ?_⟩
      simp [LedgerCall.program, deductCredits, hcfg, Prog.pure_def, Prog.result?]
    | refund bill now =>
      refine ⟨none, ?_⟩
      simp [LedgerCall.program, refundCredits, hcfg, Prog.pure_def, Prog.result?]
  constructor
  · refine Config.run_of_finished pipelineHandler (fun i => ?_) sched
    obtain ⟨v, hv⟩ := hret i
    rw [hv]
    exact Option.some_ne_none _
  · intro i
    obtain ⟨v, hv⟩ := hret i
    exact Config.returned_eq hv

/-- **When the ledger is sound.** On an existing key, a finished run keeps what the ledger owes
exactly if the credit system is on and nobody asks for a refund, or if it is off and there was
nothing to account for. -/
theorem ledgerSound_iff (hkey : db.strings (redisCreditKey credit) = some balance)
    {sched : List (Fin n)} (hfin : (ledgerRun cfg credit db calls sched).Finished) :
    LedgerSound cfg credit db calls balance sched ↔
      (cfg.costFlag = true ∧ ∀ i, (calls i).isRefund = false) ∨
        (cfg.costFlag = false ∧ ∑ i, (calls i).total = 0) := by
  cases hcfg : cfg.costFlag with
  | true =>
    constructor
    · intro h
      refine .inl ⟨rfl, fun i => Bool.eq_false_iff.mpr fun hi => ?_⟩
      obtain ⟨gh, hok, -⟩ := ledgerOk_run (ledgerOk_start hcfg hkey) sched
      have hraised : (ledgerRun cfg credit db calls sched).returned i = false :=
        (hok.returned_eq hfin i).2 hi
      rw [h.refund_returns i hi] at hraised
      cases hraised
    · rintro (⟨-, hno⟩ | ⟨hoff, -⟩)
      · exact ledgerSound_of_deductions hcfg hkey hno hfin
      · cases hoff
  | false =>
    obtain ⟨hrun, hret⟩ : ledgerRun cfg credit db calls sched = ledger cfg credit db calls ∧
        ∀ i, (ledger cfg credit db calls).returned i = true := ledgerRun_off hcfg sched
    have hsum : (∑ i, if (ledgerRun cfg credit db calls sched).returned i
        then (calls i).total else 0) = ∑ i, (calls i).total := by
      rw [hrun]
      simp only [hret, if_true]
    constructor
    · intro h
      have hbal := h.balance_eq
      rw [hsum, hrun] at hbal
      have heq : balance = balance - ∑ i, (calls i).total :=
        Option.some.inj (hkey.symm.trans hbal)
      exact .inr ⟨rfl, by omega⟩
    · rintro (⟨hon, -⟩ | ⟨-, hzero⟩)
      · cases hon
      · refine ⟨?_, ?_, ?_⟩
        · rw [hsum, hzero, hrun, Int.sub_zero]
          exact hkey
        · intro i hraised
          rw [hrun, hret i] at hraised
          cases hraised
        · intro i _
          rw [hrun]
          exact hret i

end Runs

/-- A bill of a given total. -/
def Bill.ofTotal (total : ℤ) : Bill where
  requestId := "r1"
  issuer := "client"
  definition := none
  createdAt := "now"
  pItems := []
  rItems := []
  purchaseTotal := total
  refundTotal := 0
  total := total
  balanceBefore := 0
  balanceAfter := 0
  plan := none
  version := none

/-- A database on which every credit key holds ten credits. -/
def Redis.tenCredits : Redis where
  strings _ := some 10
  lists _ := []
  writes _ := 0

/-- One deduction of four credits, run to its end. -/
theorem ledgerSound_one_deduction :
    LedgerSound ⟨true, false⟩ "email" Redis.tenCredits
      (fun _ : Fin 1 => .deduct (Bill.ofTotal 4) (fun _ => (2024, 1)) 5) 10
      [0, 0, 0, 0, 0, 0, 0, 0] :=
  (ledgerSound_iff rfl (by decide)).mpr (.inl ⟨rfl, by decide⟩)

/-- One refund of five credits on an existing key: it ends without returning. -/
theorem ledger_refund_raises :
    Redis.tenCredits.strings (redisCreditKey "email") = some 10 ∧
      (ledgerRun ⟨true, false⟩ "email" Redis.tenCredits
        (fun _ : Fin 1 => .refund (Bill.ofTotal (-5)) (2024, 1)) [0, 0]).Finished ∧
      ¬ LedgerSound ⟨true, false⟩ "email" Redis.tenCredits
        (fun _ : Fin 1 => .refund (Bill.ofTotal (-5)) (2024, 1)) 10 [0, 0] := by
  refine ⟨rfl, by decide, fun h => ?_⟩
  have hret := h.refund_returns 0 rfl
  revert hret
  decide

end Notifyr
