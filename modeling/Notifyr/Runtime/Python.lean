import Notifyr.Theory.Dict

/-!
# The Python runtime

The exceptions the modelled functions can raise, built-in ones and the repository's own, and
the subscription of a dictionary. An exception of `fastapi` carries its status code and detail,
since callers turn on them.
-/

namespace Notifyr

/-- The exceptions of the modelled code. -/
inductive PyErr
  | typeError
  | keyError
  | indexError
  | attributeError
  | valueError
  | zeroDivisionError
  | overflowError
  | unboundLocalError
  | unicodeDecodeError
  /-- `tortoise.exceptions.IntegrityError`. -/
  | integrityError
  /-- `asyncpg.exceptions.RaiseError`: a trigger raised. -/
  | raiseError
  /-- `redis.exceptions.RedisError` and its subclass `WatchError`. -/
  | redisError
  | watchError
  /-- The errors of `app/classes/cost_definition.py`. -/
  | invalidPurchaseRequestError
  | insufficientCreditsError (currentBalance purchaseCost : Int) (credit : String)
  | creditDeductionFailedError
  | costLessThanZeroError (total : Int)
  | costMoreThanZeroError (total : Int)
  /-- The errors of `app/errors/security_error.py`. -/
  | authzIdMisMatchError
  | clientTokenHeaderNotProvidedError
  | couldNotCreateAuthTokenError
  | couldNotCreateRefreshTokenError
  /-- `fastapi.HTTPException`. -/
  | httpException (status : Nat) (detail : String)
  /-- The same with a dictionary for a detail. -/
  | httpDetail (status : Nat) (message : String) (description : Option String)
  deriving DecidableEq, Repr

/-- A pure Python computation. -/
abbrev Py := Except PyErr

/-- A sequence that ends well: the first part ended well, and so did the rest. -/
theorem bind_ok {ε α β : Type} {x : Except ε α} {f : α → Except ε β} {b : β}
    (h : x >>= f = .ok b) : ∃ a, x = .ok a ∧ f a = .ok b := by
  cases x with
  | error e => cases h
  | ok a => exact ⟨a, rfl, h⟩

theorem bind_ok_iff {ε α β : Type} {x : Except ε α} {f : α → Except ε β} {b : β} :
    x >>= f = .ok b ↔ ∃ a, x = .ok a ∧ f a = .ok b := by
  refine ⟨bind_ok, ?_⟩
  rintro ⟨a, rfl, h⟩
  exact h

theorem map_ok {ε α β : Type} {x : Except ε α} {f : α → β} {b : β} (h : x.map f = .ok b) :
    ∃ a, x = .ok a ∧ f a = b := by
  cases x with
  | error e => cases h
  | ok a => exact ⟨a, rfl, Except.ok.inj h⟩

/-- What a loop that makes a list puts into it. -/
theorem mem_mapM_ok_iff {ε α β : Type} {f : α → Except ε β} {l : List α} {l' : List β}
    (h : l.mapM f = .ok l') {b : β} : b ∈ l' ↔ ∃ a ∈ l, f a = .ok b := by
  induction l generalizing l' with
  | nil =>
    cases h
    exact iff_of_false List.not_mem_nil nofun
  | cons a l ih =>
    rw [List.mapM_cons] at h
    obtain ⟨b', hb', h⟩ := bind_ok h
    obtain ⟨rest, hrest, h⟩ := bind_ok h
    cases h
    rw [List.mem_cons, List.exists_mem_cons_iff, ih hrest, hb', Except.ok.injEq, eq_comm]

/-- The list that a loop makes, position by position. -/
theorem getElem?_mapM_ok {ε α β : Type} {f : α → Except ε β} {l : List α} {l' : List β}
    (h : l.mapM f = .ok l') {i : ℕ} {b : β} (hb : l'[i]? = some b) :
    ∃ a, l[i]? = some a ∧ f a = .ok b := by
  induction l generalizing l' i with
  | nil =>
    cases h
    cases hb
  | cons a l ih =>
    rw [List.mapM_cons] at h
    obtain ⟨b', hb', h⟩ := bind_ok h
    obtain ⟨rest, hrest, h⟩ := bind_ok h
    cases h
    cases i with
    | zero =>
      cases hb
      exact ⟨a, rfl, hb'⟩
    | succ i => exact ih hrest hb

/-- A loop and a loop that undoes each of its steps. -/
theorem mapM_mapM_ok {ε ε' α β : Type} {f : α → Except ε β} {g : β → Except ε' α} {l : List α}
    (h : ∀ a ∈ l, ∃ b, f a = .ok b ∧ g b = .ok a) :
    ∃ bs, l.mapM f = .ok bs ∧ bs.mapM g = .ok l := by
  induction l with
  | nil => exact ⟨[], rfl, rfl⟩
  | cons a l ih =>
    obtain ⟨b, hf, hg⟩ := h a List.mem_cons_self
    obtain ⟨bs, hfs, hgs⟩ := ih fun a' ha' => h a' (List.mem_cons_of_mem _ ha')
    refine ⟨b :: bs, ?_, ?_⟩
    · rw [List.mapM_cons, hf, hfs]
      rfl
    · rw [List.mapM_cons, hg, hgs]
      rfl

/-- A loop that comes to its end has made something of each member. -/
theorem exists_ok_of_mapM {ε α β : Type} {f : α → Except ε β} {l : List α} {bs : List β}
    (h : l.mapM f = .ok bs) {a : α} (ha : a ∈ l) : ∃ b ∈ bs, f a = .ok b := by
  induction l generalizing bs with
  | nil => cases ha
  | cons a' l ih =>
    rw [List.mapM_cons] at h
    obtain ⟨b, hb, h⟩ := bind_ok h
    obtain ⟨rest, hrest, h⟩ := bind_ok h
    cases h
    rcases List.mem_cons.mp ha with rfl | hmem
    · exact ⟨b, List.mem_cons_self, hb⟩
    · obtain ⟨b', hb', hf⟩ := ih hrest hmem
      exact ⟨b', List.mem_cons_of_mem _ hb', hf⟩

/-- A loop whose steps all end well, with a value that is known. -/
theorem mapM_eq_ok_map {ε α β : Type} {f : α → Except ε β} {g : α → β} {l : List α}
    (h : ∀ a ∈ l, f a = .ok (g a)) : l.mapM f = .ok (l.map g) := by
  induction l with
  | nil => rfl
  | cons a l ih =>
    rw [List.mapM_cons, h a List.mem_cons_self, ih fun a' ha' => h a' (List.mem_cons_of_mem _ ha')]
    rfl

/-- `d[k]`. -/
def getItem {κ ν : Type} [DecidableEq κ] (d : Theory.Dict κ ν) (k : κ) : Py ν :=
  match d.get? k with
  | some v => .ok v
  | none => .error .keyError

/-- The order in which the interpreter enumerates a set; a set is kept as a list here. -/
structure SetOrder where
  enum : ∀ {α : Type}, List α → List α
  perm : ∀ {α : Type} (l : List α), (enum l).Perm l

@[simp] theorem SetOrder.mem_enum (o : SetOrder) {α : Type} (l : List α) (x : α) :
    x ∈ o.enum l ↔ x ∈ l := (o.perm l).mem_iff

end Notifyr
