import Mathlib.Logic.Basic

/-!
# Computations with transactions

Computations that read and change a state and may raise. What one has changed before it raises
stays changed, unless it runs inside a transaction.

- `Txn`: the computations; `lift`, `update` and `transaction` make them.
- `wp`: what must hold of a state for a computation to end as wanted. There is one condition for
  a value and one for an exception.
- `wp_bind`, `wp_lift`, `wp_update`, `wp_transaction`: one rule for each way a computation is
  made, to be read from left to right.
-/

namespace Theory

/-- A computation on states `σ` that returns `α` or raises `ε`. -/
def Txn (ε σ α : Type) : Type := σ → Except ε α × σ

namespace Txn

variable {ε σ α β : Type}

/-- Continue with the value; an exception ends the computation. -/
def bind (m : Txn ε σ α) (f : α → Txn ε σ β) : Txn ε σ β := fun s =>
  match m s with
  | (.ok a, s') => f a s'
  | (.error e, s') => (.error e, s')

instance : Monad (Txn ε σ) where
  pure a := fun s => (.ok a, s)
  bind := bind

/-- A pure computation. -/
def lift (r : Except ε α) : Txn ε σ α := fun s => (r, s)

/-- The state as it is. -/
def get : Txn ε σ σ := fun s => (.ok s, s)

/-- A change of the state, which may raise instead. -/
def update (f : σ → Except ε σ) : Txn ε σ Unit := fun s =>
  match f s with
  | .ok s' => (.ok (), s')
  | .error e => (.error e, s)

/-- A change of the state that returns a value, or raises instead. -/
def updateGet (f : σ → Except ε (α × σ)) : Txn ε σ α := fun s =>
  match f s with
  | .ok (a, s') => (.ok a, s')
  | .error e => (.error e, s)

/-- If the computation raises, what it did is undone as far as `undo` does it, from the state
before and the state then. -/
def transaction (undo : σ → σ → σ) (m : Txn ε σ α) : Txn ε σ α := fun s =>
  match m s with
  | (.ok a, s') => (.ok a, s')
  | (.error e, s') => (.error e, undo s s')

/-- The computation ends in `Q`, if it returns, and in `E`, if it raises. -/
def wp (m : Txn ε σ α) (Q : α → σ → Prop) (E : σ → Prop) (s : σ) : Prop :=
  match m s with
  | (.ok a, s') => Q a s'
  | (.error _, s') => E s'

variable {m : Txn ε σ α} {f : α → Txn ε σ β} {Q Q' : α → σ → Prop} {R : β → σ → Prop}
  {E E' : σ → Prop} {s : σ}

theorem wp_pure {a : α} : wp (pure a : Txn ε σ α) Q E s ↔ Q a s := Iff.rfl

theorem wp_bind : wp (m >>= f) R E s ↔ wp m (fun a => wp (f a) R E) E s := by
  show (match Txn.bind m f s with | (.ok b, s') => R b s' | (.error _, s') => E s') ↔ _
  unfold Txn.bind wp
  rcases m s with ⟨_ | _, s'⟩
  · rfl
  · rfl

theorem wp_get {Q : σ → σ → Prop} : wp (get : Txn ε σ σ) Q E s ↔ Q s s := Iff.rfl

theorem wp_lift {r : Except ε α} :
    wp (lift r) Q E s ↔ (∀ a, r = .ok a → Q a s) ∧ (∀ e, r = .error e → E s) := by
  cases r with
  | ok a =>
    exact ⟨fun h => ⟨fun a' ha => Except.ok.inj ha ▸ h, nofun⟩, fun h => h.1 a rfl⟩
  | error e => exact ⟨fun h => ⟨nofun, fun _ _ => h⟩, fun h => h.2 e rfl⟩

theorem wp_update {g : σ → Except ε σ} {Q : Unit → σ → Prop} :
    wp (update g) Q E s ↔ (∀ s', g s = .ok s' → Q () s') ∧ (∀ e, g s = .error e → E s) := by
  unfold wp update
  cases g s with
  | ok s' =>
    exact ⟨fun h => ⟨fun t ht => Except.ok.inj ht ▸ h, nofun⟩, fun h => h.1 s' rfl⟩
  | error e => exact ⟨fun h => ⟨nofun, fun _ _ => h⟩, fun h => h.2 e rfl⟩

theorem wp_updateGet {g : σ → Except ε (α × σ)} :
    wp (updateGet g) Q E s ↔
      (∀ a s', g s = .ok (a, s') → Q a s') ∧ (∀ e, g s = .error e → E s) := by
  unfold wp updateGet
  rcases g s with e | ⟨a, s'⟩
  · exact ⟨fun h => ⟨nofun, fun _ _ => h⟩, fun h => h.2 e rfl⟩
  · refine ⟨fun h => ⟨fun b t ht => ?_, nofun⟩, fun h => h.1 a s' rfl⟩
    cases ht
    exact h

theorem wp_transaction {undo : σ → σ → σ} :
    wp (transaction undo m) Q E s ↔ wp m Q (fun s' => E (undo s s')) s := by
  unfold wp transaction
  rcases m s with ⟨_ | _, s'⟩
  · rfl
  · rfl

/-- What holds however the computation ends holds of the state it leaves. -/
theorem of_wp {P : σ → Prop} (h : wp m (fun _ => P) P s) : P (m s).2 := by
  unfold wp at h
  rcases hm : m s with ⟨_ | _, s'⟩
  · rw [hm] at h
    exact h
  · rw [hm] at h
    exact h

/-- A value that is returned is as wanted. -/
theorem ok_of_wp {a : α} (h : wp m Q E s) (hm : (m s).1 = .ok a) : Q a (m s).2 := by
  unfold wp at h
  rcases hs : m s with ⟨_ | b, s'⟩
  · rw [hs] at hm
    cases hm
  · rw [hs] at hm h
    cases hm
    exact h

/-- A computation that raises, and what comes after it. -/
theorem run_bind_error {e : ε} {s' : σ} (h : m s = (.error e, s')) :
    (m >>= f) s = (.error e, s') := by
  show bind m f s = _
  unfold bind
  rw [h]

/-- A computation that returns, and what comes after it. -/
theorem run_bind_ok {a : α} {s' : σ} (h : m s = (.ok a, s')) : (m >>= f) s = f a s' := by
  show bind m f s = _
  unfold bind
  rw [h]

-- from here on only the rules open a condition
attribute [irreducible] wp

end Txn

end Theory
