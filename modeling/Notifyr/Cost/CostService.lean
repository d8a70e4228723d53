import Notifyr.Cost.Pipeline

/-!
# The credit operations of the cost service

`CostService.deduct_credits`, `refund_credits` and what they call
(`app/services/cost_service.py`, `app/services/database/redis_service.py`), as programs
issuing client calls one at a time, so that other clients' commands may fall between any two.
-/

namespace Notifyr

open Theory Theory.Prog

/-- Configuration the ledger code reads. -/
structure CostConfig where
  /-- `configService.COST_FLAG`. -/
  costFlag : Bool
  /-- `rules.get('credit_overdraft_allowed', False)`. -/
  creditOverdraftAllowed : Bool

/-- The year and month `bill_key` reads off the clock. -/
abbrev Month := Nat × Nat

/-- `REDIS_CREDIT_KEY_BUILDER`. -/
def redisCreditKey (credit : String) : String := s!"notifyr/credit:{credit}"

/-- `CostService.bill_key`. -/
def billKey (credit : String) (now : Month) : String := s!"{credit}@bill[{now.1}-{now.2}]"

/-- `RedisService.check_db`: a connection given by keyword is kept, otherwise the database
client is put under the keyword `redis`. A connection passed by position then fills the same
parameter a second time. -/
def checkDb (positional keyword : Option Conn) : Py Conn :=
  match positional with
  | some _ => .error .typeError
  | none => .ok (keyword.getD .db)

/-- `RedisService.retrieve`. Replies of the limiter database are never `str`, so the JSON
branch is not taken. -/
def retrieve (key : String) (redis : Option Conn) : Client Reply := do
  let conn ← liftExcept (checkDb none redis)
  issue (.command conn (.get key))

/-- `RedisService.decrement`. -/
def decrement (name : String) (amount : ℤ) (positional redis : Option Conn) :
    Client Reply := do
  let conn ← liftExcept (checkDb positional redis)
  issue (.command conn (.decrby name amount))

/-- `RedisService.push`. -/
def push (name : String) (element : Bill) (redis : Option Conn) : Client Reply := do
  let conn ← liftExcept (checkDb none redis)
  issue (.command conn (.lpush name element))

/-- `CostService.get_credit_balance` on a key already built. -/
def getCreditBalance (creditKey : String) (redis : Option Conn) : Client (Option ℤ) := do
  let credit ← retrieve creditKey redis
  if credit ≠ .none then
    let credit ← liftExcept credit.int
    return some credit
  else
    return none

/-- `CostService.set_balance` on a balance that may be `None`. -/
def setBalance (bill : Bill) : Option ℤ → Py Bill
  | some balance => .ok (bill.setBalance balance)
  | none => .error .typeError

/-- `CostService.push_bill`. -/
def pushBill (cfg : CostConfig) (credit : String) (bill : Bill) (now : Month)
    (redis : Option Conn) : Client Unit :=
  if !cfg.costFlag then pure ()
  else if bill.total = 0 then pure ()
  else do
    let _ ← push (billKey credit now) bill redis
    return ()

/-- Leaving a pipeline's block. -/
def closePipeline : Client Unit := do
  let _ ← issue .reset
  return ()

/-- The body of `CostService.refund_credits`; the pipeline is never put in `WATCH` mode, and
`decrement` gets it by position. -/
def refundBody (cfg : CostConfig) (creditKey : String) (bill : Bill) (now : Month) :
    Client Unit := do
  let refundCost := bill.total
  -- no `watch` before it: the read is only queued
  let balance ← getCreditBalance creditKey (some .pipe)
  let _ ← issue .multi
  -- the pipeline goes to the parameter the decorator fills as well
  let _ ← decrement creditKey refundCost (some .pipe) none
  let bill ← liftExcept (setBalance bill balance)
  pushBill cfg creditKey bill now (some .pipe)
  let _ ← issue .execute
  return ()

/-- `CostService.refund_credits` on a key already built; it returns `None`. -/
def refundCredits (cfg : CostConfig) (creditKey : String) (bill : Bill) (now : Month) :
    Client (Option ℤ) :=
  if !cfg.costFlag then pure none
  else do
    tryFinally (refundBody cfg creditKey bill now) closePipeline
    return none

/-- One attempt of `CostService.deduct_credits`. The `None` check of the source stands after
`int()` has already raised on `None`. -/
def deductBody (cfg : CostConfig) (creditKey : String) (bill : Bill) (now : Month) :
    Client Unit := do
  let _ ← issue (.watch creditKey)
  let reply ← issue (.command .pipe (.get creditKey))
  let currentBalance ← liftExcept reply.int
  let billTotal := bill.total
  if currentBalance < billTotal && !cfg.creditOverdraftAllowed then
    -- not enough credits
    let _ ← issue .unwatch
    raise (.insufficientCreditsError currentBalance billTotal creditKey)
  else
    let newBalance := currentBalance - billTotal
    let _ ← issue .multi
    let _ ← issue (.command .pipe (.set creditKey newBalance))
    pushBill cfg creditKey (bill.setBalance currentBalance) now (some .pipe)
    let _ ← issue .execute
    return ()

/-- One turn of the `while` loop: whether the transaction was executed. A `WatchError` is the
only exception that is caught. The pipeline is reset by the `finally` and again when its block
is left. -/
def deductAttempt (cfg : CostConfig) (creditKey : String) (bill : Bill) (now : Month) :
    Client Bool :=
  tryFinally
    (tryFinally
      (tryCatch
        (do
          deductBody cfg creditKey bill now
          return true)
        fun
          | .watchError => return false
          | e => raise e)
      closePipeline)
    closePipeline

/-- The loop of `deduct_credits` with `left` attempts left; the clock is read at each
attempt. -/
def deductLoop (cfg : CostConfig) (creditKey : String) (bill : Bill) (clock : Nat → Month) :
    Nat → Nat → Client (Option ℤ)
  | 0, _ => raise .creditDeductionFailedError
  | left + 1, retry => do
    let committed ← deductAttempt cfg creditKey bill (clock retry)
    if committed then return none else deductLoop cfg creditKey bill clock left (retry + 1)

/-- `CostService.deduct_credits` on a key already built: `None` when the deduction went
through, `0` when the credit system is switched off. -/
def deductCredits (cfg : CostConfig) (creditKey : String) (bill : Bill)
    (clock : Nat → Month) (retryLimit : Nat := 5) : Client (Option ℤ) :=
  if !cfg.costFlag then pure (some 0)
  else deductLoop cfg creditKey bill clock retryLimit 0

end Notifyr
