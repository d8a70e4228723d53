import Notifyr.Cost.LuaLib
import Notifyr.Cost.Ledger

/-!
# Whole ledger operations on the limiter database

The ledger operations of `CostService`, each run from its beginning to its end with nothing in
between, on the database that the Redis functions also work on.

- `runClient`: a program of a ledger client on a `CreditDb`.
- `deductCreditsDb`, `refundCreditsDb`: the two operations. Python reads a balance by `int`,
  which refuses the text of a fraction.
- `deductCreditsDb_eq`, `refundCreditsDb_eq`: what they do.
-/

namespace Notifyr

open Theory Theory.Prog

/-- What a ledger client sees of the database: balances that are whole. The lists it only
pushes to, so they start empty here. -/
def CreditDb.toRedis (db : CreditDb) : Redis where
  strings k := (db.strings k).map Rat.num
  lists _ := []
  writes _ := 0

/-- The database after a ledger client has turned its view of it into `r`: what looks the same
to it has not changed. -/
def CreditDb.after (db : CreditDb) (r : Redis) : CreditDb where
  strings k := if r.strings k = db.toRedis.strings k then db.strings k
    else (r.strings k).map Int.cast
  lists k := (r.lists k).map (fun b => .bill (.bill b)) ++ db.lists k

/-- Run a program of a ledger client alone. -/
def runClient {α : Type} (p : Client α) (db : CreditDb) : Py α × CreditDb :=
  let out := runAlone pipelineHandler p db.toRedis {}
  (out.1, db.after out.2.1)

/-- `int(value)` refuses the text of a fraction. -/
def CreditDb.Fractional (db : CreditDb) (key : String) : Prop :=
  ∃ q, db.strings key = some q ∧ q.den ≠ 1

instance (db : CreditDb) (key : String) : Decidable (db.Fractional key) :=
  match h : db.strings key with
  | none => isFalse fun ⟨q, hq, _⟩ => by
      rw [h] at hq
      cases hq
  | some q => decidable_of_iff (q.den ≠ 1) ⟨fun hd => ⟨q, h, hd⟩, fun ⟨q', hq', hd⟩ => by
      rw [h] at hq'
      cases hq'
      exact hd⟩

/-- `CostService.deduct_credits`. -/
def deductCreditsDb (cfg : CostConfig) (credit : String) (bill : Bill) (now : Month)
    (retryLimit : Nat) (db : CreditDb) : Py (Option ℤ) × CreditDb :=
  if cfg.costFlag ∧ retryLimit ≠ 0 ∧ db.Fractional (redisCreditKey credit) then
    (.error .valueError, db)
  else
    runClient (deductCredits cfg (redisCreditKey credit) bill (fun _ => now) retryLimit) db

/-- `CostService.refund_credits`; it raises before it has read a balance. -/
def refundCreditsDb (cfg : CostConfig) (credit : String) (bill : Bill) (now : Month)
    (db : CreditDb) : Py (Option ℤ) × CreditDb :=
  runClient (refundCredits cfg (redisCreditKey credit) bill now) db

/-! ## What they do -/

section Effects

variable {cfg : CostConfig} {key : String} {bill : Bill} {now : Month}

/-- The commands of a deduction from the balance `b`. -/
def deductQueue (key : String) (bill : Bill) (now : Month) (b : ℤ) : List Command :=
  if bill.total = 0 then [.set key (b - bill.total)]
  else [.set key (b - bill.total), .lpush (billKey key now) (bill.setBalance b)]

/-- Running the commands that follow the read of the balance `b`. -/
theorem runAlone_commit (hcfg : cfg.costFlag = true) (r : Redis) (b : ℤ) :
    runAlone pipelineHandler
      (do
        let _ ← issue .multi
        let _ ← issue (.command .pipe (.set key (b - bill.total)))
        pushBill cfg key (bill.setBalance b) now (some .pipe)
        let _ ← issue .execute
        return () : Client Unit) r (Pipeline.watchingOn key (r.writes key)) =
      (.ok (), execAll r (deductQueue key bill now b), {}) := by
  have hexec : ∀ cs : List Command, runAlone pipelineHandler
      (do
        let _ ← issue .execute
        return () : Client Unit) r (Pipeline.queued key (r.writes key) cs) =
        (.ok (), execAll r cs, {}) := by
    intro cs
    show runAlone pipelineHandler (Prog.andThen (.ret (pipelineHandler .execute r _).1) _)
      (pipelineHandler .execute r _).2.1 (pipelineHandler .execute r _).2.2 = _
    rw [execute_queued, if_pos rfl]
    rfl
  rw [pushBill_eq hcfg, Bill.setBalance_total]
  unfold deductQueue
  by_cases htotal : bill.total = 0
  · rw [if_pos htotal, if_pos htotal]
    exact hexec [_]
  · rw [if_neg htotal, if_neg htotal]
    exact hexec [_, _]

/-- The outcome of a deduction that is run alone, by the balance it finds. -/
def deductOutcome (cfg : CostConfig) (key : String) (bill : Bill) : Option ℤ → Py (Option ℤ)
  | none => .error .typeError
  | some b =>
    if b < bill.total && !cfg.creditOverdraftAllowed then
      .error (.insufficientCreditsError b bill.total key)
    else .ok none

/-- The commands it gets through. -/
def deductCommands (cfg : CostConfig) (key : String) (bill : Bill) (now : Month) :
    Option ℤ → List Command
  | none => []
  | some b =>
    if b < bill.total && !cfg.creditOverdraftAllowed then [] else deductQueue key bill now b

variable (key bill now) in
/-- The body of one attempt. -/
theorem runAlone_deductBody (hcfg : cfg.costFlag = true) (r : Redis) :
    ∃ l, runAlone pipelineHandler (deductBody cfg key bill now) r {} =
      ((deductOutcome cfg key bill (r.strings key)).map fun _ => (),
        execAll r (deductCommands cfg key bill now (r.strings key)), l) := by
  cases hb : r.strings key with
  | none =>
    have hget : (Command.get key).exec r = (.none, r) := by simp [Command.exec, hb]
    refine ⟨Pipeline.watchingOn key (r.writes key), ?_⟩
    show runAlone pipelineHandler (Prog.andThen (.ret (.ok ((Command.get key).exec r).1)) _)
      ((Command.get key).exec r).2 (Pipeline.watchingOn key (r.writes key)) = _
    rw [hget]
    rfl
  | some b =>
    have hget : (Command.get key).exec r = (.bytes b, r) := by simp [Command.exec, hb]
    by_cases hfunds : (b < bill.total && !cfg.creditOverdraftAllowed) = true
    · refine ⟨{ watching := false, watched := [] }, ?_⟩
      show runAlone pipelineHandler (Prog.andThen (.ret (.ok ((Command.get key).exec r).1)) _)
        ((Command.get key).exec r).2 (Pipeline.watchingOn key (r.writes key)) = _
      rw [hget]
      show runAlone pipelineHandler (if b < bill.total && !cfg.creditOverdraftAllowed then _
        else _) r (Pipeline.watchingOn key (r.writes key)) = _
      rw [if_pos hfunds]
      simp only [deductOutcome, deductCommands, if_pos hfunds]
      rfl
    · refine ⟨{}, ?_⟩
      show runAlone pipelineHandler (Prog.andThen (.ret (.ok ((Command.get key).exec r).1)) _)
        ((Command.get key).exec r).2 (Pipeline.watchingOn key (r.writes key)) = _
      rw [hget]
      show runAlone pipelineHandler (if b < bill.total && !cfg.creditOverdraftAllowed then _
        else _) r (Pipeline.watchingOn key (r.writes key)) = _
      rw [if_neg hfunds]
      simp only [deductOutcome, deductCommands, if_neg hfunds]
      exact runAlone_commit hcfg r b

/-- Leaving a pipeline's block forgets the pipeline and nothing else. -/
theorem runAlone_tryFinally_close {α : Type} (p : Client α) (r : Redis) (l : Pipeline) :
    runAlone pipelineHandler (tryFinally p closePipeline) r l =
      ((runAlone pipelineHandler p r l).1, (runAlone pipelineHandler p r l).2.1, {}) :=
  runAlone_andThen pipelineHandler p _ r l

theorem deductOutcome_ne_watchError (balance : Option ℤ) :
    deductOutcome cfg key bill balance ≠ .error .watchError := by
  cases balance with
  | none => nofun
  | some b =>
    rw [deductOutcome]
    split
    · nofun
    · nofun

/-- Alone, an attempt ends as its body: nobody can make it raise `WatchError`. -/
theorem runAlone_deductAttempt (hcfg : cfg.costFlag = true) (r : Redis) :
    runAlone pipelineHandler (deductAttempt cfg key bill now) r {} =
      ((deductOutcome cfg key bill (r.strings key)).map fun _ => true,
        execAll r (deductCommands cfg key bill now (r.strings key)), {}) := by
  obtain ⟨l, hbody⟩ := runAlone_deductBody key bill now hcfg r
  rw [deductAttempt, runAlone_tryFinally_close, runAlone_tryFinally_close, Prog.tryCatch,
    runAlone_andThen]
  have hreturn : ∀ f : Unit → Client Bool, runAlone pipelineHandler
      (deductBody cfg key bill now >>= f) r {} = _ := fun f =>
    (runAlone_andThen pipelineHandler _ _ r {}).trans (by rw [hbody])
  rw [hreturn]
  cases hout : deductOutcome cfg key bill (r.strings key) with
  | ok v => rfl
  | error e =>
    have hne : e ≠ .watchError := by
      rintro rfl
      exact deductOutcome_ne_watchError _ hout
    -- the handler raises every other exception again
    cases e <;> first | rfl | exact absurd rfl hne

/-- A deduction that is run alone. -/
theorem runAlone_deductCredits (hcfg : cfg.costFlag = true) (clock : Nat → Month) (n : Nat)
    (r : Redis) :
    runAlone pipelineHandler (deductCredits cfg key bill clock (n + 1)) r {} =
      (deductOutcome cfg key bill (r.strings key),
        execAll r (deductCommands cfg key bill (clock 0) (r.strings key)), {}) := by
  have hprog : deductCredits cfg key bill clock (n + 1) =
      deductLoop cfg key bill clock (n + 1) 0 := by
    rw [deductCredits, hcfg]
    rfl
  rw [hprog]
  show runAlone pipelineHandler (Prog.andThen (deductAttempt cfg key bill (clock 0)) _) r {} = _
  rw [runAlone_andThen, runAlone_deductAttempt hcfg]
  cases hout : deductOutcome cfg key bill (r.strings key) with
  | ok v =>
    have hv : v = none := by
      revert hout
      cases r.strings key with
      | none =>
        intro h
        cases h
      | some b =>
        rw [deductOutcome]
        split
        · intro h
          cases h
        · rintro ⟨⟩
          rfl
    rw [hv]
    rfl
  | error e => rfl

theorem CreditDb.after_toRedis (db : CreditDb) : db.after db.toRedis = db := by
  show CreditDb.mk (fun k => if db.toRedis.strings k = db.toRedis.strings k then _ else _)
    (fun k => [] ++ db.lists k) = db
  simp

/-- The commands of a deduction turn up in the database. -/
theorem CreditDb.after_deductQueue {db : CreditDb} {b : ℤ} (hb : db.strings key = some (b : ℚ))
    (now : Month) :
    db.after (execAll db.toRedis (deductQueue key bill now b)) =
      if bill.total = 0 then db
      else (db.set key (b - bill.total)).lpush (billKey key now)
        (.bill (.bill (bill.setBalance b))) := by
  have hview : db.toRedis.strings key = some b := by
    show (db.strings key).map Rat.num = some b
    rw [hb]
    rfl
  unfold deductQueue
  by_cases htotal : bill.total = 0
  · rw [if_pos htotal, if_pos htotal, htotal, sub_zero]
    have hsame : (execAll db.toRedis [.set key b]).strings = db.toRedis.strings := by
      show Function.update db.toRedis.strings key (some b) = _
      rw [← hview, Function.update_eq_self]
    show CreditDb.mk (fun k => if (execAll db.toRedis [.set key b]).strings k = _ then _ else _)
      (fun k => [] ++ db.lists k) = db
    simp [hsame]
  · rw [if_neg htotal, if_neg htotal]
    have hstrings : ∀ k, (db.after (execAll db.toRedis [.set key (b - bill.total),
        .lpush (billKey key now) (bill.setBalance b)])).strings k =
        Function.update db.strings key (some ((b - bill.total : ℤ) : ℚ)) k := by
      intro k
      show (if Function.update db.toRedis.strings key (some (b - bill.total)) k = _ then _
        else (Function.update db.toRedis.strings key (some (b - bill.total)) k).map Int.cast) = _
      by_cases hk : k = key
      · subst hk
        have hne : b - bill.total ≠ b := by omega
        simp [hview, htotal]
      · simp [Function.update_of_ne hk]
    have hlists : ∀ k, (db.after (execAll db.toRedis [.set key (b - bill.total),
        .lpush (billKey key now) (bill.setBalance b)])).lists k =
        Function.update db.lists (billKey key now)
          (.bill (.bill (bill.setBalance b)) :: db.lists (billKey key now)) k := by
      intro k
      show (Function.update db.toRedis.lists (billKey key now)
        (bill.setBalance b :: db.toRedis.lists (billKey key now)) k).map _ ++ db.lists k = _
      by_cases hk : k = billKey key now
      · subst hk
        simp [CreditDb.toRedis]
      · simp [Function.update_of_ne hk, CreditDb.toRedis]
    show CreditDb.mk _ _ = CreditDb.mk _ _
    congr 1
    · funext k
      refine (hstrings k).trans ?_
      rw [Int.cast_sub]
      rfl
    · exact funext hlists

end Effects

/-- The effect of a deduction on a balance that is not a fraction. -/
theorem deduct_effect (cfg : CostConfig) (credit : String) (bill : Bill) (now : Month)
    (db : CreditDb) (hfrac : ¬ db.Fractional (redisCreditKey credit)) :
    (∃ r, (deductOutcome cfg (redisCreditKey credit) bill
          (db.toRedis.strings (redisCreditKey credit)),
        db.after (execAll db.toRedis (deductCommands cfg (redisCreditKey credit) bill now
          (db.toRedis.strings (redisCreditKey credit))))) = (r, db)) ∨
      ∃ b : ℤ, db.strings (redisCreditKey credit) = some (b : ℚ) ∧
        (bill.total ≤ b ∨ cfg.creditOverdraftAllowed = true) ∧ bill.total ≠ 0 ∧
        (deductOutcome cfg (redisCreditKey credit) bill
            (db.toRedis.strings (redisCreditKey credit)),
          db.after (execAll db.toRedis (deductCommands cfg (redisCreditKey credit) bill now
            (db.toRedis.strings (redisCreditKey credit))))) =
          (.ok none, (db.set (redisCreditKey credit) (b - bill.total)).lpush
            (billKey (redisCreditKey credit) now) (.bill (.bill (bill.setBalance b)))) := by
  cases hq : db.strings (redisCreditKey credit) with
  | none =>
    have hview : db.toRedis.strings (redisCreditKey credit) = none :=
      congrArg (Option.map Rat.num) hq
    rw [hview]
    exact .inl ⟨.error .typeError, Prod.ext rfl db.after_toRedis⟩
  | some q =>
    have hden : q.den = 1 := by
      by_contra hne
      exact hfrac ⟨q, hq, hne⟩
    have hcast : ((q.num : ℤ) : ℚ) = q := Rat.coe_int_num_of_den_eq_one hden
    have hview : db.toRedis.strings (redisCreditKey credit) = some q.num :=
      congrArg (Option.map Rat.num) hq
    rw [hview, deductOutcome, deductCommands]
    by_cases hfunds : (q.num < bill.total && !cfg.creditOverdraftAllowed) = true
    · rw [if_pos hfunds, if_pos hfunds]
      exact .inl ⟨_, Prod.ext rfl db.after_toRedis⟩
    · rw [if_neg hfunds, if_neg hfunds, CreditDb.after_deductQueue (hcast.symm ▸ hq)]
      by_cases htotal : bill.total = 0
      · rw [if_pos htotal]
        exact .inl ⟨_, rfl⟩
      · rw [if_neg htotal]
        refine .inr ⟨q.num, congrArg some hcast.symm, ?_, htotal, rfl⟩
        by_contra hno
        rw [not_or, not_le] at hno
        exact hfunds (by simp [hno.1, hno.2])

/-- **Deductions on the database.** Either nothing has changed, or the balance was whole, there
was enough of it or the rules allow an overdraft, and the new balance and the bill are there. -/
theorem deductCreditsDb_cases (cfg : CostConfig) (credit : String) (bill : Bill) (now : Month)
    (retryLimit : Nat) (db : CreditDb) :
    (∃ r, deductCreditsDb cfg credit bill now retryLimit db = (r, db)) ∨
      ∃ b : ℤ, db.strings (redisCreditKey credit) = some (b : ℚ) ∧
        (bill.total ≤ b ∨ cfg.creditOverdraftAllowed = true) ∧ bill.total ≠ 0 ∧
        deductCreditsDb cfg credit bill now retryLimit db =
          (.ok none, (db.set (redisCreditKey credit) (b - bill.total)).lpush
            (billKey (redisCreditKey credit) now) (.bill (.bill (bill.setBalance b)))) := by
  cases hcfg : cfg.costFlag with
  | false =>
    have hprog : deductCredits cfg (redisCreditKey credit) bill (fun _ => now) retryLimit =
        pure (some 0) := by
      rw [deductCredits, hcfg]
      rfl
    refine .inl ⟨.ok (some 0), ?_⟩
    rw [deductCreditsDb, if_neg (by simp [hcfg]), hprog]
    exact Prod.ext rfl db.after_toRedis
  | true =>
    cases retryLimit with
    | zero =>
      have hprog : deductCredits cfg (redisCreditKey credit) bill (fun _ => now) 0 =
          raise .creditDeductionFailedError := by
        rw [deductCredits, hcfg]
        rfl
      refine .inl ⟨.error .creditDeductionFailedError, ?_⟩
      rw [deductCreditsDb, if_neg (by simp), hprog]
      exact Prod.ext rfl db.after_toRedis
    | succ n =>
      by_cases hfrac : db.Fractional (redisCreditKey credit)
      · refine .inl ⟨.error .valueError, ?_⟩
        rw [deductCreditsDb, if_pos ⟨hcfg, by omega, hfrac⟩]
      · rw [deductCreditsDb, if_neg fun h => hfrac h.2.2, runClient,
          runAlone_deductCredits hcfg]
        exact deduct_effect cfg credit bill now db hfrac

/-- **Refunds on the database.** They change nothing. -/
theorem refundCreditsDb_eq (cfg : CostConfig) (credit : String) (bill : Bill) (now : Month)
    (db : CreditDb) : (refundCreditsDb cfg credit bill now db).2 = db := by
  cases hcfg : cfg.costFlag with
  | false =>
    have hprog : refundCredits cfg (redisCreditKey credit) bill now = pure none := by
      rw [refundCredits, hcfg]
      rfl
    rw [refundCreditsDb, hprog]
    exact db.after_toRedis
  | true =>
    have hprog : refundCredits cfg (redisCreditKey credit) bill now = do
        tryFinally (refundBody cfg (redisCreditKey credit) bill now) closePipeline
        return none := by
      rw [refundCredits, hcfg]
      rfl
    -- the queued read, then the reset of the pipeline
    rw [refundCreditsDb, hprog]
    exact db.after_toRedis

end Notifyr
