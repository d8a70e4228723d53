import Mathlib.Data.Nat.Find
import Notifyr.Theory.Retry

/-!
# Delivering a payload again

`WebhookAdapterInterface.retry` (`app/interface/webhook_adapter.py`), which wraps `deliver` and
`deliver_async`.

- `Outcome`: how a delivery ends.
- `s`, `a`: the two wrappers, with the attempts they make; `retry` takes one of them.
- `RetryRight`: the delivery is called until it should not be again, and the last answer returned.
- `retryRight_iff`: for which outcomes this is so.
-/

namespace Notifyr

open Theory

namespace WebhookRetry

/-- `_retry_statuses` of `WebhookProfileModel`. -/
def retryStatuses : List Int := [408, 429, 500, 502, 503, 504]

/-- How a delivery ends: with a status and a body, with one of the two errors that `retry` knows of,
or with another exception. -/
inductive Outcome (β ε : Type)
  | response (code : Int) (body : β)
  | deliveryError
  | nonRetryableError
  | raised (e : ε)

/-- What a wrapper returns: a pair, or `None`. -/
inductive Returned (β : Type)
  | pair (code : Option Int) (body : Option β)
  | nothing
  deriving DecidableEq

/-- The variable of a wrapper, and how often it has called the delivery. -/
structure RetryLoop where
  attempt : ℕ
  calls : ℕ

/-- How a wrapper ends. -/
structure RetryResult (β ε : Type) where
  attempt : ℕ
  calls : ℕ
  value : Except ε (Returned β)

variable {β ε : Type}

/-- The test of the loop, and its body. -/
def retryRound (maxAttempt : ℕ) (loop : RetryLoop) (outcome : Outcome β ε) :
    RetryLoop ⊕ RetryResult β ε :=
  if loop.attempt ≤ maxAttempt then
    let calls := loop.calls + 1
    match outcome with
    | .response code body =>
      -- the attempt is counted, and its answer returned all the same
      let attempt := if code ∈ retryStatuses then loop.attempt + 1 else loop.attempt
      .inr ⟨attempt, calls, .ok (.pair (some code) (some body))⟩
    | .deliveryError => .inl ⟨loop.attempt + 1, calls⟩
    | .nonRetryableError => .inr ⟨loop.attempt, calls, .ok (.pair none none)⟩
    | .raised e => .inr ⟨loop.attempt, calls, .error e⟩
  else .inr ⟨loop.attempt, loop.calls, .ok .nothing⟩

/-- The wrapper of `deliver`, after a number of rounds; `outcome` is how each call ends. -/
def s (maxAttempt : ℕ) (outcome : ℕ → Outcome β ε) : ℕ → RetryLoop ⊕ RetryResult β ε :=
  attempts (retryRound maxAttempt) outcome ⟨0, 0⟩

/-- The wrapper of `deliver_async`. -/
def a (maxAttempt : ℕ) (outcome : ℕ → Outcome β ε) : ℕ → RetryLoop ⊕ RetryResult β ε :=
  attempts (retryRound maxAttempt) outcome ⟨0, 0⟩

/-- `retry`. -/
def retry (isCoroutineFunction : Bool) (maxAttempt : ℕ) (outcome : ℕ → Outcome β ε) :
    ℕ → RetryLoop ⊕ RetryResult β ε :=
  if isCoroutineFunction then a maxAttempt outcome else s maxAttempt outcome

/-! ## What a wrapper owes -/

/-- The delivery should be called again. -/
def Outcome.Retryable : Outcome β ε → Prop
  | response code _ => code ∈ retryStatuses
  | deliveryError => True
  | nonRetryableError | raised _ => False

/-- The answer of an attempt; an error has neither a status nor a body. -/
def Outcome.answer : Outcome β ε → Except ε (Returned β)
  | response code body => .ok (.pair (some code) (some body))
  | deliveryError | nonRetryableError => .ok (.pair none none)
  | raised e => .error e

/-- The attempt is the last one to be made. -/
structure LastAttempt (maxAttempt : ℕ) (outcome : ℕ → Outcome β ε) (k : ℕ) : Prop where
  le : k ≤ maxAttempt
  before : ∀ j < k, (outcome j).Retryable
  last : k = maxAttempt ∨ ¬ (outcome k).Retryable

/-- The wrapper ends, has called the delivery up to the last attempt, and returns its answer. -/
def RetryRight (isCoroutineFunction : Bool) (maxAttempt : ℕ) (outcome : ℕ → Outcome β ε) : Prop :=
  ∃ n result, retry isCoroutineFunction maxAttempt outcome n = .inr result ∧
    ∃ k, LastAttempt maxAttempt outcome k ∧ result.calls = k + 1 ∧
      result.value = (outcome k).answer

/-! ## The loop -/

/-- Before each round, as many calls as attempts were made. -/
structure RetryInv (k : ℕ) (loop : RetryLoop) : Prop where
  attempt : loop.attempt = k
  calls : loop.calls = k

/-- The loop goes on after a `DeliveryError`. -/
def GoesOn (maxAttempt k : ℕ) (o : Outcome β ε) : Prop := k ≤ maxAttempt ∧ o = .deliveryError

variable {maxAttempt k : ℕ} {loop : RetryLoop} {outcome : ℕ → Outcome β ε}

theorem retryRound_goesOn (k : ℕ) (loop : RetryLoop) (o : Outcome β ε) (hloop : RetryInv k loop)
    (h : GoesOn maxAttempt k o) :
    ∃ loop', retryRound maxAttempt loop o = .inl loop' ∧ RetryInv (k + 1) loop' := by
  obtain ⟨hle, rfl⟩ := h
  refine ⟨⟨loop.attempt + 1, loop.calls + 1⟩, ?_, ?_, ?_⟩
  · exact if_pos (by rw [hloop.attempt]; exact hle)
  · rw [hloop.attempt]
  · rw [hloop.calls]

/-- Any other call within the bound is the last, and its answer is returned. -/
theorem retryRound_answer (hloop : RetryInv k loop) (hle : k ≤ maxAttempt) {o : Outcome β ε}
    (h : o ≠ .deliveryError) :
    ∃ result, retryRound maxAttempt loop o = .inr result ∧ result.calls = k + 1 ∧
      result.value = o.answer := by
  have hattempt : loop.attempt ≤ maxAttempt := hloop.attempt ▸ hle
  have hcalls : loop.calls + 1 = k + 1 := by rw [hloop.calls]
  unfold retryRound
  rw [if_pos hattempt]
  cases o with
  | response code body => exact ⟨_, rfl, hcalls, rfl⟩
  | deliveryError => exact (h rfl).elim
  | nonRetryableError => exact ⟨_, rfl, hcalls, rfl⟩
  | raised e => exact ⟨_, rfl, hcalls, rfl⟩

/-- Beyond the bound `None` is returned. -/
theorem retryRound_beyond (hloop : RetryInv k loop) (h : maxAttempt < k) (o : Outcome β ε) :
    retryRound maxAttempt loop o = .inr ⟨k, k, .ok .nothing⟩ := by
  unfold retryRound
  rw [if_neg (by rw [hloop.attempt]; omega), hloop.attempt, hloop.calls]

theorem retry_eq (isCoroutineFunction : Bool) :
    retry isCoroutineFunction maxAttempt outcome =
      attempts (retryRound maxAttempt) outcome ⟨0, 0⟩ := by
  cases isCoroutineFunction with
  | true => rfl
  | false => rfl

/-- After deliveries that all raised `DeliveryError`, the loop stands before the next one. -/
theorem retry_running (isCoroutineFunction : Bool) (hle : k ≤ maxAttempt + 1)
    (h : ∀ j < k, outcome j = .deliveryError) :
    ∃ loop, retry isCoroutineFunction maxAttempt outcome k = .inl loop ∧ RetryInv k loop := by
  rw [retry_eq]
  refine attempts_running ⟨rfl, rfl⟩ retryRound_goesOn fun j hj => ?_
  exact ⟨by omega, h j hj⟩

/-- The first outcome that is no `DeliveryError` ends the loop. -/
theorem retry_answer (isCoroutineFunction : Bool) (hle : k ≤ maxAttempt)
    (hbefore : ∀ j < k, outcome j = .deliveryError) (h : outcome k ≠ .deliveryError) :
    ∃ result, retry isCoroutineFunction maxAttempt outcome (k + 1) = .inr result ∧
      result.calls = k + 1 ∧ result.value = (outcome k).answer := by
  obtain ⟨loop, hrun, hloop⟩ := retry_running isCoroutineFunction (Nat.le_succ_of_le hle) hbefore
  obtain ⟨result, hround, hresult⟩ := retryRound_answer hloop hle h
  rw [retry_eq] at hrun ⊢
  exact ⟨result, (attempts_succ_of_inl hrun).trans hround, hresult⟩

/-- Where there is no such outcome, `None` is returned. -/
theorem retry_exhausted (isCoroutineFunction : Bool)
    (h : ∀ j < maxAttempt + 1, outcome j = .deliveryError) :
    retry isCoroutineFunction maxAttempt outcome (maxAttempt + 2) =
      .inr ⟨maxAttempt + 1, maxAttempt + 1, .ok .nothing⟩ := by
  obtain ⟨loop, hrun, hloop⟩ := retry_running isCoroutineFunction le_rfl h
  rw [retry_eq] at hrun ⊢
  exact (attempts_succ_of_inl hrun).trans (retryRound_beyond hloop (Nat.lt_succ_self _) _)

theorem retry_unique {isCoroutineFunction : Bool} {n n' : ℕ} {r r' : RetryResult β ε}
    (h : retry isCoroutineFunction maxAttempt outcome n = .inr r)
    (h' : retry isCoroutineFunction maxAttempt outcome n' = .inr r') : r = r' := by
  rw [retry_eq] at h h'
  exact attempts_unique h h'

/-! ## When a wrapper is right -/

/-- The first outcome that is no `DeliveryError` is the last attempt to be made. -/
def RetryGuard (maxAttempt : ℕ) (outcome : ℕ → Outcome β ε) : Prop :=
  ∃ k ≤ maxAttempt, (∀ j < k, outcome j = .deliveryError) ∧ outcome k ≠ .deliveryError ∧
    (k = maxAttempt ∨ ∀ code body, outcome k = .response code body → code ∉ retryStatuses)

/-- The first outcome that is no `DeliveryError`, or none within the bound. -/
theorem firstAnswer (maxAttempt : ℕ) (outcome : ℕ → Outcome β ε) :
    (∀ j < maxAttempt + 1, outcome j = .deliveryError) ∨
      ∃ k ≤ maxAttempt, (∀ j < k, outcome j = .deliveryError) ∧ outcome k ≠ .deliveryError := by
  by_cases h : ∃ k, k ≤ maxAttempt ∧ outcome k ≠ .deliveryError
  · classical
    obtain ⟨hle, hne⟩ := Nat.find_spec h
    refine .inr ⟨Nat.find h, hle, fun j hj => ?_, hne⟩
    by_contra hj'
    exact Nat.find_min h hj ⟨by omega, hj'⟩
  · refine .inl fun j hj => ?_
    by_contra hj'
    exact h ⟨j, by omega, hj'⟩

/-- **A wrapper is right** exactly if some outcome within the bound is no `DeliveryError`, and the
first such one is no response with a status for which the delivery should be called again, or is
that of the last attempt. Both wrappers are alike in this. -/
theorem retryRight_iff (isCoroutineFunction : Bool) (maxAttempt : ℕ)
    (outcome : ℕ → Outcome β ε) :
    RetryRight isCoroutineFunction maxAttempt outcome ↔ RetryGuard maxAttempt outcome := by
  constructor
  · rintro ⟨n, result, hrun, k, hlast, hcalls, hvalue⟩
    rcases firstAnswer maxAttempt outcome with hall | ⟨k', hle, hbefore, hne⟩
    · obtain rfl := retry_unique hrun (retry_exhausted isCoroutineFunction hall)
      rw [hall k (Nat.lt_succ_of_le hlast.le)] at hvalue
      cases hvalue
    · obtain ⟨result', hrun', hcalls', -⟩ := retry_answer isCoroutineFunction hle hbefore hne
      obtain rfl := retry_unique hrun hrun'
      obtain rfl : k = k' := by omega
      refine ⟨k, hle, hbefore, hne, hlast.last.imp_right fun hnot code body hresponse => ?_⟩
      rw [hresponse] at hnot
      exact hnot
  · rintro ⟨k, hle, hbefore, hne, hstatus⟩
    obtain ⟨result, hrun, hcalls, hvalue⟩ := retry_answer isCoroutineFunction hle hbefore hne
    refine ⟨k + 1, result, hrun, k, ⟨hle, fun j hj => ?_, hstatus.imp_right fun h => ?_⟩,
      hcalls, hvalue⟩
    · rw [hbefore j hj]
      trivial
    · cases houtcome : outcome k with
      | response code body => exact h code body houtcome
      | deliveryError => exact (hne houtcome).elim
      | nonRetryableError => exact id
      | raised e => exact id

/-- A status 503 is returned at once, and after errors only there is no pair. -/
theorem not_retryRight_unavailable :
    ¬ RetryRight false 3 (fun _ => (.response 503 () : Outcome Unit Empty)) ∧
    ¬ RetryRight true 3 (fun _ => (.deliveryError : Outcome Unit Empty)) := by
  constructor
  · rintro ⟨n, result, hrun, k, hlast, hcalls, -⟩
    obtain ⟨result', hrun', hcalls', -⟩ : ∃ result',
        retry false 3 (fun _ => (.response 503 () : Outcome Unit Empty)) 1 = .inr result' ∧
          result'.calls = 1 ∧ _ :=
      retry_answer false (Nat.zero_le 3) (by simp) (by simp)
    obtain rfl := retry_unique hrun hrun'
    rcases hlast.last with hmax | hnot
    · omega
    · exact hnot (show (503 : Int) ∈ retryStatuses by decide)
  · rintro ⟨n, result, hrun, k, -, -, hvalue⟩
    obtain rfl := retry_unique hrun (retry_exhausted true fun _ _ => rfl)
    cases hvalue

end WebhookRetry

end Notifyr
