import Mathlib.Data.Nat.Find
import Mathlib.Data.Sum.Basic

/-!
# Loops that make attempts

A loop each round of which makes one attempt. What the attempts meet is given beforehand, one
outcome for each; a round ends the loop with a result, or leaves a state to go on from.

- `attempts`: the loop after a number of rounds.
- `attempts_result_iff`: where a result comes from.
- `attempts_running`, `attempts_ends`: the induction rules. Where an outcome tells whether a round
  ends the loop, the loop goes on as long as the outcomes say so, and a result is that of the
  first outcome which does not.
-/

namespace Theory

section Retry

variable {σ ω ρ : Type} (next : σ → ω → σ ⊕ ρ) (outcome : ℕ → ω) (start : σ)

/-- The loop after a number of rounds: the state to go on from, or the result. -/
def attempts : ℕ → σ ⊕ ρ
  | 0 => .inl start
  | n + 1 =>
    match attempts n with
    | .inl s => next s (outcome n)
    | .inr r => .inr r

variable {next outcome start} {n m k : ℕ} {s : σ} {r r' : ρ}

theorem attempts_succ_of_inl (h : attempts next outcome start n = .inl s) :
    attempts next outcome start (n + 1) = next s (outcome n) := by
  rw [attempts, h]

/-- A loop that has ended stays as it is. -/
theorem attempts_mono (h : attempts next outcome start n = .inr r) (hle : n ≤ m) :
    attempts next outcome start m = .inr r := by
  induction m, hle using Nat.le_induction with
  | base => exact h
  | succ m hle ih => rw [attempts, ih]

theorem attempts_unique (h : attempts next outcome start n = .inr r)
    (h' : attempts next outcome start m = .inr r') : r = r' := by
  have hn := attempts_mono h (le_max_left n m)
  have hm := attempts_mono h' (le_max_right n m)
  exact Sum.inr.inj (hn.symm.trans hm)

/-- A result is that of one of the rounds. -/
theorem attempts_result_iff :
    attempts next outcome start n = .inr r ↔
      ∃ k < n, ∃ s, attempts next outcome start k = .inl s ∧ next s (outcome k) = .inr r := by
  constructor
  · intro h
    induction n with
    | zero => cases h
    | succ n ih =>
      cases hn : attempts next outcome start n with
      | inl s => exact ⟨n, Nat.lt_succ_self n, s, hn, (attempts_succ_of_inl hn).symm.trans h⟩
      | inr r' =>
        rw [attempts, hn] at h
        obtain ⟨k, hk, hround⟩ := ih (hn.trans h)
        exact ⟨k, Nat.lt_succ_of_lt hk, hround⟩
  · rintro ⟨k, hk, s, hrun, hend⟩
    exact attempts_mono ((attempts_succ_of_inl hrun).trans hend) hk

variable {I : ℕ → σ → Prop} {GoesOn : ℕ → ω → Prop}

/-- **A loop goes on** as long as the outcomes say so. -/
theorem attempts_running (hstart : I 0 start)
    (hgo : ∀ k s o, I k s → GoesOn k o → ∃ s', next s o = .inl s' ∧ I (k + 1) s') :
    (∀ j < n, GoesOn j (outcome j)) →
      ∃ s, attempts next outcome start n = .inl s ∧ I n s := by
  induction n with
  | zero => exact fun _ => ⟨start, rfl, hstart⟩
  | succ n ih =>
    intro h
    obtain ⟨s, hrun, hs⟩ := ih fun j hj => h j (Nat.lt_succ_of_lt hj)
    obtain ⟨s', hnext, hs'⟩ := hgo n s _ hs (h n (Nat.lt_succ_self n))
    exact ⟨s', (attempts_succ_of_inl hrun).trans hnext, hs'⟩

/-- **A loop ends** with the first outcome that does not say it goes on. -/
theorem attempts_ends (hstart : I 0 start)
    (hgo : ∀ k s o, I k s → GoesOn k o → ∃ s', next s o = .inl s' ∧ I (k + 1) s')
    (hend : ∀ k s o, I k s → ¬ GoesOn k o → ∃ r, next s o = .inr r) :
    attempts next outcome start n = .inr r ↔
      ∃ k < n, (∀ j < k, GoesOn j (outcome j)) ∧ ¬ GoesOn k (outcome k) ∧
        ∃ s, attempts next outcome start k = .inl s ∧ I k s ∧ next s (outcome k) = .inr r := by
  constructor
  · intro h
    have hsome : ∃ j, ¬ GoesOn j (outcome j) := by
      by_contra hall
      obtain ⟨s, hrun, -⟩ : ∃ s, attempts next outcome start n = .inl s ∧ I n s :=
        attempts_running hstart hgo fun j _ => not_not.1 fun hj => hall ⟨j, hj⟩
      cases hrun.symm.trans h
    classical
    have hbefore : ∀ j < Nat.find hsome, GoesOn j (outcome j) :=
      fun j hj => not_not.1 (Nat.find_min hsome hj)
    obtain ⟨s, hrun, hs⟩ := attempts_running hstart hgo hbefore
    obtain ⟨r', hr'⟩ := hend _ s _ hs (Nat.find_spec hsome)
    have hend' := (attempts_succ_of_inl hrun).trans hr'
    obtain rfl := attempts_unique hend' h
    refine ⟨Nat.find hsome, ?_, hbefore, Nat.find_spec hsome, s, hrun, hs, hr'⟩
    by_contra hle
    exact Sum.inl_ne_inr (hrun.symm.trans (attempts_mono h (not_lt.1 hle)))
  · rintro ⟨k, hk, -, -, s, hrun, -, hround⟩
    exact attempts_result_iff.2 ⟨k, hk, s, hrun, hround⟩

end Retry

end Theory
