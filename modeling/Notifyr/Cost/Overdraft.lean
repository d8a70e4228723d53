import Mathlib.Data.Rat.Floor
import Mathlib.Tactic.Linarith
import Notifyr.Cost.CreditOps
import Notifyr.Manager.Celery
import Notifyr.Theory.Runs

/-!
# Admission and overdraft

A task request first passes `TaskCostPermission` (`app/decorators/permissions.py`), which reads
the balance of its credit key, and then has its bill deducted.

- `CostRules`, `permission`: the rules of the cost file and the check.
- `TaskRequest`, `requestStep`: a request from its check to its deduction.
- `permission_eq`, `usageCheck_ok_iff`: the check as two tests, and what the second lets through.
- `requestStep_cases`: what a request does to the balance.
- `overdraft_spec`: the balance over any run of requests.
-/

namespace Notifyr

open Theory

/-- The overdraft rules of the cost file; a rule that is missing has its default. -/
structure CostRules where
  autoBlockOnZeroCredit : Option Bool
  overdraftRatioAllowed : Option ℚ
  creditOverdraftAllowed : Option Bool
  retryAllowed : Option Bool

/-- `CostService.OVERDRAFT_ALLOWED`. -/
def overdraftAllowed : ℚ := 0.15

namespace CostRules

/-- `rules.get('auto_block_on_zero_credit', True)`. -/
def autoBlock (rules : CostRules) : Bool := rules.autoBlockOnZeroCredit.getD true

/-- `rules.get('overdraft_ratio_allowed', self.OVERDRAFT_ALLOWED)`. -/
def ratio (rules : CostRules) : ℚ := rules.overdraftRatioAllowed.getD overdraftAllowed

/-- `rules.get('credit_overdraft_allowed', False)`. -/
def overdraft (rules : CostRules) : Bool := rules.creditOverdraftAllowed.getD false

/-- `rules.get('retry_allowed', False)`. -/
def retry (rules : CostRules) : Bool := rules.retryAllowed.getD false

end CostRules

/-- What the check reads of `SimpleTaskCostDefinition`. -/
structure TaskDefinition where
  creditKey : String
  apiUsageCost : Option ℤ
  allowedTaskOption : Option (List String)

/-- `definition.get('__api_usage_cost__', 0)`. -/
def TaskDefinition.apiCost (d : TaskDefinition) : ℤ := d.apiUsageCost.getD 0

/-- The overdraft rules and `plan_credits`. -/
structure CostPlan where
  costFlag : Bool
  rules : CostRules
  planCredits : Dict String ℤ

/-- What deductions read of it. -/
def CostPlan.config (plan : CostPlan) : CostConfig where
  costFlag := plan.costFlag
  creditOverdraftAllowed := plan.rules.overdraft

/-- `CostService.is_current_credit_overdraft_allowed`. -/
def isCurrentCreditOverdraftAllowed (plan : CostPlan) (currentCredits : ℤ) (creditKey : String) :
    Py Bool :=
  if plan.rules.autoBlock then .ok true
  else do
    let planCredit ← getItem plan.planCredits creditKey
    if planCredit = 0 then .error .zeroDivisionError
    else .ok (decide ((-1 * currentCredits : ℚ) / planCredit < plan.rules.ratio))

/-- A request for a task: its definition, its scheduler's task type, whether it asks for
retries, and the bill that is deducted once it is admitted. -/
structure TaskRequest where
  definition : TaskDefinition
  scheduler : Option TaskType
  retry : Bool
  bill : Bill
  now : Month
  retryLimit : Nat

/-- `TaskCostPermission.permission` on the balance it has read. -/
def permission (plan : CostPlan) (req : TaskRequest) (balance : Option ℤ) : Py Bool :=
  match balance with
  | none => .error (.httpException 502 "Credit information unavailable")
  | some currentCredits => do
    if currentCredits ≤ 0 then
      -- rejected where the overdraft is said to be allowed
      if ← isCurrentCreditOverdraftAllowed plan currentCredits req.definition.creditKey then
        throw (.httpException 402 "Insufficient credits")
    if currentCredits < req.definition.apiCost then
      throw (.httpException 402 "Insufficient credits for API usage")
    if let some taskType := req.scheduler then
      if taskType.value ∉ req.definition.allowedTaskOption.getD [] then
        throw (.httpException 400
          s!"Task type '{taskType.format}' not allowed for this pricing plan")
    if req.retry && !plan.rules.retry then
      throw (.httpException 403 "Retry not allowed by pricing policy")
    return true

/-- `CostService.get_credit_balance`. -/
def getCreditBalanceDb (credit : String) (db : CreditDb) : Py (Option ℤ) :=
  if db.Fractional (redisCreditKey credit) then .error .valueError
  else (runClient (getCreditBalance (redisCreditKey credit) none) db).1

/-- A request: its check, and its deduction if it is admitted. -/
def requestStep (plan : CostPlan) (db : CreditDb) (req : TaskRequest) : CreditDb :=
  match getCreditBalanceDb req.definition.creditKey db >>= permission plan req with
  | .ok true =>
    (deductCreditsDb plan.config req.definition.creditKey req.bill req.now req.retryLimit db).2
  | _ => db

/-! ## Admission -/

section Admission

variable {plan : CostPlan} {req : TaskRequest} {b : ℤ}

/-- The plan offers the request's task type and retries. -/
def TaskRequest.Offered (req : TaskRequest) (plan : CostPlan) : Prop :=
  (∀ taskType ∈ req.scheduler,
      taskType.value ∈ req.definition.allowedTaskOption.getD []) ∧
    (req.retry = true → plan.rules.retry = true)

/-- The first test of the check. -/
def overdraftCheck (plan : CostPlan) (creditKey : String) (b : ℤ) : Py Unit :=
  if b ≤ 0 then do
    if ← isCurrentCreditOverdraftAllowed plan b creditKey then
      throw (.httpException 402 "Insufficient credits")
  else .ok ()

/-- The tests of the check after the first. -/
def usageCheck (plan : CostPlan) (req : TaskRequest) (b : ℤ) : Py Bool := do
  if b < req.definition.apiCost then
    throw (.httpException 402 "Insufficient credits for API usage")
  if let some taskType := req.scheduler then
    if taskType.value ∉ req.definition.allowedTaskOption.getD [] then
      throw (.httpException 400
        s!"Task type '{taskType.format}' not allowed for this pricing plan")
  if req.retry && !plan.rules.retry then
    throw (.httpException 403 "Retry not allowed by pricing policy")
  return true

theorem permission_eq (plan : CostPlan) (req : TaskRequest) (b : ℤ) :
    permission plan req (some b) =
      overdraftCheck plan req.definition.creditKey b >>= fun _ => usageCheck plan req b := by
  unfold permission overdraftCheck usageCheck
  by_cases hb : b ≤ 0
  · simp only [if_pos hb]
    cases isCurrentCreditOverdraftAllowed plan b req.definition.creditKey with
    | error e => rfl
    | ok blocked =>
      cases blocked with
      | true => rfl
      | false => rfl
  · simp only [if_neg hb]
    rfl

theorem usageCheck_of_lt (h : b < req.definition.apiCost) :
    usageCheck plan req b =
      .error (.httpException 402 "Insufficient credits for API usage") := by
  unfold usageCheck
  rw [if_pos h]
  rfl

/-- The last two tests. -/
theorem offered_check :
    (do
      if let some taskType := req.scheduler then
        if taskType.value ∉ req.definition.allowedTaskOption.getD [] then
          throw (.httpException 400
            s!"Task type '{taskType.format}' not allowed for this pricing plan")
      if req.retry && !plan.rules.retry then
        throw (.httpException 403 "Retry not allowed by pricing policy")
      return true : Py Bool) = .ok true ↔ req.Offered plan := by
  have hretry : (do
      if req.retry && !plan.rules.retry then
        throw (.httpException 403 "Retry not allowed by pricing policy")
      return true : Py Bool) = .ok true ↔ (req.retry = true → plan.rules.retry = true) := by
    cases req.retry with
    | false => exact iff_of_true rfl nofun
    | true =>
      cases plan.rules.retry with
      | false => exact iff_of_false nofun fun h => nomatch h rfl
      | true => exact iff_of_true rfl fun _ => rfl
  unfold TaskRequest.Offered
  cases req.scheduler with
  | none => simpa using hretry
  | some taskType =>
    by_cases htask : taskType.value ∈ req.definition.allowedTaskOption.getD []
    · simpa [htask] using hretry
    · refine iff_of_false ?_ fun h => htask (h.1 taskType rfl)
      simp only [htask, not_false_eq_true, if_true]
      nofun

theorem usageCheck_ok_iff :
    usageCheck plan req b = .ok true ↔ req.definition.apiCost ≤ b ∧ req.Offered plan := by
  by_cases h : b < req.definition.apiCost
  · rw [usageCheck_of_lt h]
    exact iff_of_false nofun fun hok => absurd hok.1 (not_le.mpr h)
  · have hcheck : usageCheck plan req b = .ok true ↔ req.Offered plan := by
      unfold usageCheck
      rw [if_neg h]
      exact offered_check
    rw [hcheck]
    exact ⟨fun ho => ⟨not_lt.mp h, ho⟩, fun ho => ho.2⟩

theorem overdraftCheck_of_pos (hb : 0 < b) (creditKey : String) :
    overdraftCheck plan creditKey b = .ok () := by
  rw [overdraftCheck, if_neg (not_le.mpr hb)]

theorem overdraftCheck_of_block (hblock : plan.rules.autoBlock = true) (hb : b ≤ 0)
    (creditKey : String) :
    overdraftCheck plan creditKey b = .error (.httpException 402 "Insufficient credits") := by
  rw [overdraftCheck, if_pos hb, isCurrentCreditOverdraftAllowed, if_pos hblock]
  rfl

/-- Where the plan has credit, the ratio can be computed. -/
theorem isCurrentCreditOverdraftAllowed_ok {creditKey : String} {p : ℤ}
    (hp : plan.planCredits.get? creditKey = some p) (hzero : p ≠ 0) :
    ∃ allowed, isCurrentCreditOverdraftAllowed plan b creditKey = .ok allowed := by
  unfold isCurrentCreditOverdraftAllowed
  split
  · exact ⟨true, rfl⟩
  · refine ⟨decide ((-1 * b : ℚ) / p < plan.rules.ratio), ?_⟩
    have hitem : getItem plan.planCredits creditKey = .ok p := by
      rw [getItem, hp]
    rw [hitem]
    exact if_neg hzero

/-- There, the first test passes or answers 402. -/
theorem overdraftCheck_cases {creditKey : String} {p : ℤ}
    (hp : plan.planCredits.get? creditKey = some p) (hzero : p ≠ 0) :
    overdraftCheck plan creditKey b = .ok () ∨
      overdraftCheck plan creditKey b =
        .error (.httpException 402 "Insufficient credits") := by
  unfold overdraftCheck
  split
  · obtain ⟨allowed, hallowed⟩ := isCurrentCreditOverdraftAllowed_ok (b := b) hp hzero
    rw [hallowed]
    cases allowed with
    | true => exact .inr rfl
    | false => exact .inl rfl
  · exact .inl rfl

/-- A request is admitted if the balance is positive and covers the API usage cost, and the plan
offers what it asks for. -/
theorem permission_of_pos (hb : 0 < b) (hcost : req.definition.apiCost ≤ b)
    (ho : req.Offered plan) : permission plan req (some b) = .ok true := by
  rw [permission_eq, overdraftCheck_of_pos hb]
  exact usageCheck_ok_iff.mpr ⟨hcost, ho⟩

/-- Only a balance that covers the API usage cost is admitted. -/
theorem apiCost_le_of_permission (h : permission plan req (some b) = .ok true) :
    req.definition.apiCost ≤ b := by
  rw [permission_eq] at h
  obtain ⟨u, -, husage⟩ := bind_ok h
  exact (usageCheck_ok_iff.mp husage).1

/-- Automatic blocking rejects a balance that is not positive. -/
theorem permission_of_block (hblock : plan.rules.autoBlock = true) (hb : b ≤ 0) :
    permission plan req (some b) = .error (.httpException 402 "Insufficient credits") := by
  rw [permission_eq, overdraftCheck_of_block hblock hb]
  rfl

/-- A balance that does not cover the API usage cost is rejected with 402. -/
theorem permission_of_lt {p : ℤ} (hp : plan.planCredits.get? req.definition.creditKey = some p)
    (hzero : p ≠ 0) (hcost : b < req.definition.apiCost) :
    ∃ detail, permission plan req (some b) = .error (.httpException 402 detail) := by
  rw [permission_eq]
  rcases overdraftCheck_cases (b := b) hp hzero with h | h
  · rw [h]
    exact ⟨_, usageCheck_of_lt hcost⟩
  · rw [h]
    exact ⟨_, rfl⟩

end Admission

/-! ## Runs of requests -/

section Runs

variable {plan : CostPlan} {req : TaskRequest}

/-- What the check reads of a whole balance. -/
theorem getCreditBalanceDb_of_whole {credit : String} {db : CreditDb} {b : ℤ}
    (hb : db.strings (redisCreditKey credit) = some (b : ℚ)) :
    getCreditBalanceDb credit db = .ok (some b) := by
  have hfrac : ¬ db.Fractional (redisCreditKey credit) := by
    rintro ⟨q, hq, hden⟩
    rw [hb] at hq
    cases hq
    exact hden (Rat.den_intCast b)
  have hget : (Command.get (redisCreditKey credit)).exec db.toRedis = (.bytes b, db.toRedis) := by
    have hview : db.toRedis.strings (redisCreditKey credit) = some b := by
      show (db.strings _).map Rat.num = some b
      rw [hb]
      rfl
    simp [Command.exec, hview]
  rw [getCreditBalanceDb, if_neg hfrac]
  show (runAlone pipelineHandler (Prog.andThen (.ret (.ok
    ((Command.get (redisCreditKey credit)).exec db.toRedis).1)) _)
    ((Command.get (redisCreditKey credit)).exec db.toRedis).2 {}).1 = _
  rw [hget]
  rfl

/-- What a request does: nothing, or it takes its total off a balance that covers the API usage
cost, and the total unless the rules allow an overdraft. -/
theorem requestStep_cases (plan : CostPlan) (db : CreditDb) (req : TaskRequest) :
    requestStep plan db req = db ∨
      ∃ b : ℤ, db.strings (redisCreditKey req.definition.creditKey) = some (b : ℚ) ∧
        (req.bill.total ≤ b ∨ plan.rules.overdraft = true) ∧ req.definition.apiCost ≤ b ∧
        (requestStep plan db req).strings =
          Function.update db.strings (redisCreditKey req.definition.creditKey)
            (some (b - req.bill.total)) := by
  unfold requestStep
  split
  · rename_i hok
    rcases deductCreditsDb_cases plan.config req.definition.creditKey req.bill req.now
      req.retryLimit db with ⟨r, hsame⟩ | ⟨b, hb, hfunds, -, hdone⟩
    · rw [hsame]
      exact .inl rfl
    · rw [getCreditBalanceDb_of_whole hb] at hok
      have hadmitted : permission plan req (some b) = .ok true := hok
      rw [hdone]
      exact .inr ⟨b, hb, hfunds, apiCost_le_of_permission hadmitted, rfl⟩
  · exact .inl rfl

/-- A balance that is known and at least `c`. -/
def CreditDb.AtLeast (key : String) (c : ℚ) (db : CreditDb) : Prop :=
  ∀ q ∈ db.strings key, c ≤ q

/-- A deduction keeps the balances above `c` that it would not take below it. -/
theorem atLeast_step {key : String} {c : ℚ} {db : CreditDb} (h : db.AtLeast key c)
    (hreq : ∀ b : ℤ, c ≤ b → (req.bill.total ≤ b ∨ plan.rules.overdraft = true) →
      req.definition.apiCost ≤ b → c ≤ b - req.bill.total) :
    (requestStep plan db req).AtLeast key c := by
  rcases requestStep_cases plan db req with hsame | ⟨b, hb, hfunds, hcost, hstrings⟩
  · rw [hsame]
    exact h
  · intro q hq
    rw [hstrings] at hq
    by_cases hkey : key = redisCreditKey req.definition.creditKey
    · subst hkey
      rw [Function.update_self] at hq
      cases hq
      exact hreq b (h _ hb) hfunds hcost
    · rw [Function.update_of_ne hkey] at hq
      exact h q hq

/-- A run of such requests keeps it. -/
theorem atLeast_run {key : String} {c : ℚ} {db : CreditDb} (h : db.AtLeast key c)
    {reqs : List TaskRequest}
    (hreqs : ∀ req ∈ reqs, ∀ b : ℤ, c ≤ b →
      (req.bill.total ≤ b ∨ plan.rules.overdraft = true) → req.definition.apiCost ≤ b →
        c ≤ b - req.bill.total) :
    (runFrom (requestStep plan) db reqs).AtLeast key c := by
  induction reqs generalizing db with
  | nil => exact h
  | cons req rest ih =>
    refine ih (atLeast_step h (hreqs req List.mem_cons_self)) fun r hr => ?_
    exact hreqs r (List.mem_cons_of_mem req hr)

end Runs

/-- What the credit rules guarantee of a run of requests, each checked and then deducted. -/
structure OverdraftSound (plan : CostPlan) (db : CreditDb) (reqs : List TaskRequest) : Prop where
  /-- Without overdraft a balance that is not negative stays so. -/
  nonneg : plan.rules.overdraft = false → ∀ key, db.AtLeast key 0 →
    ∀ before after, reqs = before ++ after →
      (runFrom (requestStep plan) db before).AtLeast key 0
  /-- A positive balance that covers the API usage cost is admitted. -/
  admits : ∀ req ∈ reqs, ∀ b : ℤ, 0 < b → req.definition.apiCost ≤ b → req.Offered plan →
    permission plan req (some b) = .ok true
  /-- Automatic blocking rejects a balance that is not positive. -/
  blocks : plan.rules.autoBlock = true → ∀ req ∈ reqs, ∀ b : ℤ, b ≤ 0 →
    permission plan req (some b) = .error (.httpException 402 "Insufficient credits")
  /-- A balance that does not cover the API usage cost is rejected, whatever its deficit. -/
  rejects : ∀ req ∈ reqs, ∀ b : ℤ, b < req.definition.apiCost →
    permission plan req (some b) ≠ .ok true ∧
      ∀ p, plan.planCredits.get? req.definition.creditKey = some p → p ≠ 0 →
        ∃ detail, permission plan req (some b) = .error (.httpException 402 detail)
  /-- No deduction takes a balance below the API usage cost less the bill. -/
  floor : ∀ key (c : ℚ), (∀ req ∈ reqs, c ≤ req.definition.apiCost - req.bill.total) →
    db.AtLeast key c → ∀ before after, reqs = before ++ after →
      (runFrom (requestStep plan) db before).AtLeast key c
  /-- With API usage costs that are not negative this is above the allowed deficit less the
  greatest bill. -/
  bound : ∀ key (p cost : ℤ), 0 ≤ plan.rules.ratio * p →
    (∀ req ∈ reqs, 0 ≤ req.definition.apiCost ∧ req.bill.total ≤ cost) →
    db.AtLeast key (-plan.rules.ratio * p - cost) → ∀ before after, reqs = before ++ after →
      (runFrom (requestStep plan) db before).AtLeast key (-plan.rules.ratio * p - cost)

/-- **Admission and overdraft**, for every plan, database and run of requests. -/
theorem overdraft_spec (plan : CostPlan) (db : CreditDb) (reqs : List TaskRequest) :
    OverdraftSound plan db reqs := by
  have hfloor : ∀ key (c : ℚ), (∀ req ∈ reqs, c ≤ req.definition.apiCost - req.bill.total) →
      db.AtLeast key c → ∀ before after, reqs = before ++ after →
        (runFrom (requestStep plan) db before).AtLeast key c := by
    rintro key c hreqs hdb before after rfl
    refine atLeast_run hdb fun req hreq b _ _ hcost => ?_
    have hcast : (req.definition.apiCost : ℚ) ≤ b := by exact_mod_cast hcost
    have hc := hreqs req (List.mem_append_left _ hreq)
    linarith
  refine ⟨?_, fun req _ b hb hcost ho => permission_of_pos hb hcost ho,
    fun hblock req _ b hb => permission_of_block hblock hb, ?_, hfloor, ?_⟩
  · rintro hno key hdb before after rfl
    refine atLeast_run hdb fun req _ b _ hfunds _ => ?_
    rcases hfunds with hfunds | hallowed
    · have hcast : (req.bill.total : ℚ) ≤ b := by exact_mod_cast hfunds
      linarith
    · rw [hno] at hallowed
      cases hallowed
  · intro req _ b hcost
    refine ⟨fun h => ?_, fun p hp hzero => permission_of_lt hp hzero hcost⟩
    have hle := apiCost_le_of_permission h
    omega
  · intro key p cost hratio hreqs hdb
    refine hfloor key _ (fun req hreq => ?_) hdb
    obtain ⟨hcost, hbill⟩ := hreqs req hreq
    have hcost' : (0 : ℚ) ≤ req.definition.apiCost := by exact_mod_cast hcost
    have hbill' : (req.bill.total : ℚ) ≤ cost := by exact_mod_cast hbill
    linarith

/-- The admission by the ratio: with overdraft allowed and automatic blocking off, a request for
what the plan offers is admitted on a positive balance and on a deficit within the ratio. -/
def AdmitsByRatio (plan : CostPlan) : Prop :=
  plan.rules.overdraft = true → plan.rules.autoBlock = false →
    ∀ (req : TaskRequest) (b p : ℤ), req.Offered plan →
      plan.planCredits.get? req.definition.creditKey = some p → 0 < p →
      (0 < b ∨ (-1 * b : ℚ) / p < plan.rules.ratio) → permission plan req (some b) = .ok true

/-- A plan of a hundred credits with an overdraft of 15 percent and no automatic blocking. -/
def samplePlan : CostPlan where
  costFlag := true
  rules := ⟨some false, none, some true, none⟩
  planCredits := .ofEntries [("email", 100)]

/-- A request for a task of the given API usage cost. -/
def sampleRequest (apiUsageCost : ℤ) : TaskRequest where
  definition := ⟨"email", some apiUsageCost, none⟩
  scheduler := none
  retry := false
  bill := Bill.ofTotal 1
  now := (2024, 1)
  retryLimit := 20

/-- A balance of three does not admit a request whose API usage costs five, and a deficit of one
in a hundred admits none. -/
theorem not_admitsByRatio :
    permission samplePlan (sampleRequest 5) (some 3) =
        .error (.httpException 402 "Insufficient credits for API usage") ∧
      permission samplePlan (sampleRequest 0) (some (-1)) =
        .error (.httpException 402 "Insufficient credits") ∧
      ¬ AdmitsByRatio samplePlan := by
  have hthree : permission samplePlan (sampleRequest 5) (some 3) =
      .error (.httpException 402 "Insufficient credits for API usage") := by decide +kernel
  refine ⟨hthree, by decide +kernel, fun h => ?_⟩
  have hok := h rfl rfl (sampleRequest 5) 3 100 ⟨nofun, nofun⟩ rfl (by decide) (.inl (by decide))
  rw [hthree] at hok
  cases hok

end Notifyr
