import Mathlib.Order.Lattice

/-!
# Key-value stores with deadlines

A store with a clock, whose entries may carry a deadline. An entry is there until its deadline;
one without a deadline is there until it is erased or overwritten.

- `TimedStore`: the store; `put`, `erase` and `advance` are its steps.
- `lookup?`, `get?`: the entry that is there for a key, and its value.
- `lookup?_put_self`, `lookup?_put_ne`, …: what each step does to what is there.
- `Keeps`: everything that is there is related to its key. Each step keeps it, `put` for what it
  puts; `Keeps.erase_imp` is the rule for a relation that changes at an erased key.
-/

namespace Theory

/-- A value with its deadline, if it has one. -/
structure Timed (ν τ : Type) where
  value : ν
  deadline : Option τ
  deriving DecidableEq

/-- A store and its clock. -/
structure TimedStore (κ ν τ : Type) where
  now : τ
  entries : κ → Option (Timed ν τ)

namespace TimedStore

variable {κ ν τ : Type} [DecidableEq κ] [LinearOrder τ]

/-- An instant is before a deadline; every instant is before none. -/
def Before (t : τ) : Option τ → Prop
  | none => True
  | some d => t < d

instance (t : τ) : (deadline : Option τ) → Decidable (Before t deadline)
  | none => isTrue trivial
  | some d => inferInstanceAs (Decidable (t < d))

/-- The store without entries. -/
def empty (now : τ) : TimedStore κ ν τ := ⟨now, fun _ => none⟩

/-- The entry that is there for a key. -/
def lookup? (s : TimedStore κ ν τ) (k : κ) : Option (Timed ν τ) :=
  (s.entries k).filter fun e => Before s.now e.deadline

/-- Its value. -/
def get? (s : TimedStore κ ν τ) (k : κ) : Option ν := (s.lookup? k).map (·.value)

/-- Put an entry, in the place of the one that was there. -/
def put (s : TimedStore κ ν τ) (k : κ) (e : Timed ν τ) : TimedStore κ ν τ :=
  { s with entries := fun k' => if k' = k then some e else s.entries k' }

/-- Erase the entry of a key. -/
def erase (s : TimedStore κ ν τ) (k : κ) : TimedStore κ ν τ :=
  { s with entries := fun k' => if k' = k then none else s.entries k' }

/-- The clock goes on to an instant; it does not go back. -/
def advance (s : TimedStore κ ν τ) (t : τ) : TimedStore κ ν τ := { s with now := max s.now t }

variable {s : TimedStore κ ν τ} {k k' : κ} {e : Timed ν τ}

/-! ## What is there after a step -/

omit [DecidableEq κ] in
theorem lookup?_eq_some_iff :
    s.lookup? k = some e ↔ s.entries k = some e ∧ Before s.now e.deadline := by
  unfold lookup?
  rw [Option.filter_eq_some_iff, decide_eq_true_eq]

omit [DecidableEq κ] in
theorem get?_eq_some_iff {v : ν} : s.get? k = some v ↔ ∃ e, s.lookup? k = some e ∧ e.value = v :=
  Option.map_eq_some_iff

omit [DecidableEq κ] in
theorem get?_eq_none_iff : s.get? k = none ↔ s.lookup? k = none := Option.map_eq_none_iff

theorem lookup?_put_self (h : Before s.now e.deadline) : (s.put k e).lookup? k = some e :=
  lookup?_eq_some_iff.mpr ⟨if_pos rfl, h⟩

@[simp] theorem lookup?_put_ne (h : k' ≠ k) : (s.put k e).lookup? k' = s.lookup? k' :=
  congrArg (Option.filter fun e : Timed ν τ => Before s.now e.deadline) (if_neg h)

@[simp] theorem lookup?_erase_self : (s.erase k).lookup? k = none := by simp [lookup?, erase]

@[simp] theorem lookup?_erase_ne (h : k' ≠ k) : (s.erase k).lookup? k' = s.lookup? k' :=
  congrArg (Option.filter fun e : Timed ν τ => Before s.now e.deadline) (if_neg h)

/-- An entry that a put leaves there is the new one, or was there under another key. -/
theorem lookup?_put {e' : Timed ν τ} (h : (s.put k e).lookup? k' = some e') :
    (k' = k ∧ e' = e) ∨ (k' ≠ k ∧ s.lookup? k' = some e') := by
  by_cases hk : k' = k
  · subst hk
    obtain ⟨hentry, -⟩ := lookup?_eq_some_iff.mp h
    exact .inl ⟨rfl, (Option.some.inj (hentry.symm.trans (if_pos rfl)))⟩
  · exact .inr ⟨hk, by rwa [lookup?_put_ne hk] at h⟩

/-- An entry that an erasure leaves there was there under another key. -/
theorem lookup?_erase {e' : Timed ν τ} (h : (s.erase k).lookup? k' = some e') :
    k' ≠ k ∧ s.lookup? k' = some e' := by
  by_cases hk : k' = k
  · subst hk
    rw [lookup?_erase_self] at h
    cases h
  · exact ⟨hk, by rwa [lookup?_erase_ne hk] at h⟩

omit [DecidableEq κ] in
/-- Time only takes entries away. -/
theorem lookup?_advance {t : τ} (h : (s.advance t).lookup? k = some e) :
    s.lookup? k = some e := by
  obtain ⟨hentry, hbefore⟩ := lookup?_eq_some_iff.mp h
  refine lookup?_eq_some_iff.mpr ⟨hentry, ?_⟩
  cases hd : e.deadline with
  | none => trivial
  | some d =>
    rw [hd] at hbefore
    exact lt_of_le_of_lt (le_max_left s.now t) hbefore

/-! ## What is there and its key -/

/-- Every value that is there is related to its key. -/
def Keeps (R : κ → ν → Prop) (s : TimedStore κ ν τ) : Prop :=
  ∀ k e, s.lookup? k = some e → R k e.value

variable {R R' : κ → ν → Prop}

omit [DecidableEq κ] in
theorem keeps_empty (now : τ) : Keeps R (empty now : TimedStore κ ν τ) := by
  intro k e h
  cases h

theorem Keeps.put (h : Keeps R s) (he : R k e.value) : Keeps R (s.put k e) := by
  intro k' e' hlookup
  rcases lookup?_put hlookup with ⟨rfl, rfl⟩ | ⟨-, hold⟩
  · exact he
  · exact h k' e' hold

omit [DecidableEq κ] in
theorem Keeps.advance (h : Keeps R s) (t : τ) : Keeps R (s.advance t) :=
  fun k e hlookup => h k e (lookup?_advance hlookup)

/-- The relation may change at the erased key. -/
theorem Keeps.erase_imp (h : Keeps R s) (himp : ∀ k' v, k' ≠ k → R k' v → R' k' v) :
    Keeps R' (s.erase k) := by
  intro k' e' hlookup
  obtain ⟨hne, hold⟩ := lookup?_erase hlookup
  exact himp k' e'.value hne (h k' e' hold)

theorem Keeps.erase (h : Keeps R s) : Keeps R (s.erase k) := h.erase_imp fun _ _ _ hR => hR

end TimedStore

end Theory
