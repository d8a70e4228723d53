import Mathlib.Algebra.Order.Ring.Rat
import Notifyr.Runtime.Python
import Notifyr.Theory.TimedStore

/-!
# The Redis service

`store`, `retrieve`, `delete`, `delete_all` and `scan` of `RedisService`
(`app/services/database/redis_service.py`) on the cache database.

- `PyVal`: Python values, as far as the cache code tells them apart.
- `jsonValue`: what `json.loads` gives back of what `json.dumps` made of a value; `Plain`: the
  values that come back as they were.
- `RedisText`: what the database holds for a key.
- `store`, `retrieve`, `delete`, `deleteAll`: the methods.
-/

namespace Notifyr

open Theory

/-- A Python value. `μ` are the instances of model classes, `other` whatever has no kind of its
own here, by its text. -/
inductive PyVal (μ : Type)
  | none
  | bool (b : Bool)
  | int (n : Int)
  | float (q : ℚ)
  | str (s : String)
  | uuid (s : String)
  | list (items : List (PyVal μ))
  | tuple (items : List (PyVal μ))
  | dict (entries : List (String × PyVal μ))
  | model (m : μ)
  | other (s : String)

/-- A Python number. -/
inductive PyNum
  | int (n : Int)
  | float (q : ℚ)
  deriving DecidableEq

/-- Its value. -/
def PyNum.toRat : PyNum → ℚ
  | .int n => n
  | .float q => q

variable {μ : Type}

/-! ## JSON -/

mutual

/-- `json.loads(json.dumps(v))`. A tuple comes back as a list; an object of a class that JSON
does not know is refused. -/
def jsonValue : PyVal μ → Py (PyVal μ)
  | .list items => do return .list (← jsonItems items)
  | .tuple items => do return .list (← jsonItems items)
  | .dict entries => do return .dict (← jsonEntries entries)
  | .model _ | .uuid _ | .other _ => .error .typeError
  | v => .ok v

/-- The same for the items of a list. -/
def jsonItems : List (PyVal μ) → Py (List (PyVal μ))
  | [] => .ok []
  | v :: rest => do return (← jsonValue v) :: (← jsonItems rest)

/-- The same for the entries of a dictionary. -/
def jsonEntries : List (String × PyVal μ) → Py (List (String × PyVal μ))
  | [] => .ok []
  | (k, v) :: rest => do return (k, ← jsonValue v) :: (← jsonEntries rest)

end

mutual

/-- Nothing but what JSON has: no tuple, no object of another class. -/
def PyVal.Plain : PyVal μ → Prop
  | .list items => PlainItems items
  | .dict entries => PlainEntries entries
  | .tuple _ | .model _ | .uuid _ | .other _ => False
  | _ => True

/-- The same for the items of a list. -/
def PlainItems : List (PyVal μ) → Prop
  | [] => True
  | v :: rest => v.Plain ∧ PlainItems rest

/-- The same for the entries of a dictionary. -/
def PlainEntries : List (String × PyVal μ) → Prop
  | [] => True
  | (_, v) :: rest => v.Plain ∧ PlainEntries rest

end

mutual

/-- A plain value comes back as it was. -/
theorem jsonValue_of_plain : ∀ {v : PyVal μ}, v.Plain → jsonValue v = .ok v
  | .list items, h => by
    rw [jsonValue, jsonItems_of_plain (by simpa only [PyVal.Plain] using h)]
    rfl
  | .dict entries, h => by
    rw [jsonValue, jsonEntries_of_plain (by simpa only [PyVal.Plain] using h)]
    rfl
  | .tuple _, h | .model _, h | .uuid _, h | .other _, h => by simp only [PyVal.Plain] at h
  | .none, _ | .bool _, _ | .int _, _ | .float _, _ | .str _, _ => by rw [jsonValue] <;> simp

theorem jsonItems_of_plain : ∀ {items : List (PyVal μ)}, PlainItems items →
    jsonItems items = .ok items
  | [], _ => by rw [jsonItems]
  | v :: rest, h => by
    rw [PlainItems] at h
    rw [jsonItems, jsonValue_of_plain h.1, jsonItems_of_plain h.2]
    rfl

theorem jsonEntries_of_plain : ∀ {entries : List (String × PyVal μ)}, PlainEntries entries →
    jsonEntries entries = .ok entries
  | [], _ => by rw [jsonEntries]
  | (k, v) :: rest, h => by
    rw [PlainEntries] at h
    rw [jsonEntries, jsonValue_of_plain h.1, jsonEntries_of_plain h.2]
    rfl

end

/-! ## The database -/

/-- The text Redis holds for a key, by the way it was made. -/
inductive RedisText (μ : Type)
  /-- What `json.dumps` made of a value; `v` is what `json.loads` gives back. -/
  | dumped (v : PyVal μ)
  /-- A number, as its digits. -/
  | number (n : PyNum)
  /-- A string, as it is. -/
  | plain (s : String)

/-- The cache database. -/
abbrev CacheDb (μ : Type) := TimedStore String (RedisText μ) ℚ

/-- What the service sends for a value: JSON for a dictionary or a list. The client takes
numbers and strings beside it, and raises `DataError` for anything else, booleans and `None`
among it. -/
def toText : PyVal μ → Py (RedisText μ)
  | .dict entries => do return .dumped (.dict (← jsonEntries entries))
  | .list items => do return .dumped (.list (← jsonItems items))
  | .int n => .ok (.number (.int n))
  | .float q => .ok (.number (.float q))
  | .str s => .ok (.plain s)
  | _ => .error .redisError

/-- The seconds of `ex=…`: none if not positive; the client takes whole numbers only, and raises
`DataError` for a `float`. -/
def exSeconds (expiry : PyNum) : Py (Option ℚ) :=
  if expiry.toRat ≤ 0 then .ok none
  else
    match expiry with
    | .int n => .ok (some n)
    | .float _ => .error .redisError

/-- `json.loads` on what Redis holds. `loads` is `json.loads` on a text that neither `json.dumps`
nor a number made; where there is no JSON in it, that raises `JSONDecodeError`. -/
def RedisText.load (loads : String → Option (PyVal μ)) : RedisText μ → Py (PyVal μ)
  | .dumped v => .ok v
  | .number (.int n) => .ok (.int n)
  | .number (.float q) => .ok (.float q)
  | .plain s =>
    match loads s with
    | some v => .ok v
    | none => .error .valueError

namespace RedisService

/-- `store`. -/
def store (redis : CacheDb μ) (key : String) (value : PyVal μ) (expiry : PyNum) (nx : Bool) :
    Py (CacheDb μ) := do
  let text ← toText value
  let ex ← exSeconds expiry
  if nx ∧ (redis.get? key).isSome then return redis
  return redis.put key ⟨text, ex.map (redis.now + ·)⟩

/-- `retrieve`. -/
def retrieve (loads : String → Option (PyVal μ)) (redis : CacheDb μ) (key : String) :
    Py (PyVal μ) :=
  match redis.get? key with
  | some text => text.load loads
  | none => .ok .none

/-- `delete`. -/
def delete (redis : CacheDb μ) (key : String) : CacheDb μ := redis.erase key

/-- `scan`. The call of the asyncio client is a coroutine; it is not awaited, and has no two
parts to unpack. -/
def scan (_redis : CacheDb μ) (_pattern : String) : Py (List String) := .error .typeError

/-- `delete_all`. -/
def deleteAll (redis : CacheDb μ) (pre : String) (simplePrefix : Bool) : Py (CacheDb μ) := do
  let pattern := if simplePrefix then pre ++ "*" else pre
  let keys ← scan redis pattern
  return keys.foldl delete redis

/-! ## What the methods do -/

theorem exSeconds_of_pos {expiry : PyNum} {ex : Option ℚ} (h : exSeconds expiry = .ok ex)
    (hpos : 0 < expiry.toRat) : ex = some expiry.toRat := by
  unfold exSeconds at h
  rw [if_neg (not_le.mpr hpos)] at h
  cases expiry with
  | int n =>
    cases h
    rfl
  | float q => cases h

theorem store_of_ok {redis : CacheDb μ} {key : String} {value : PyVal μ} {expiry : PyNum}
    {nx : Bool} {text : RedisText μ} {ex : Option ℚ} (htext : toText value = .ok text)
    (hex : exSeconds expiry = .ok ex) :
    store redis key value expiry nx =
      .ok (if nx ∧ (redis.get? key).isSome then redis
        else redis.put key ⟨text, ex.map (redis.now + ·)⟩) := by
  unfold store
  rw [htext, hex]
  exact (apply_ite Except.ok _ _ _).symm

/-- What `store` leaves: the database as it was, where `nx` keeps an entry, or the new entry. -/
theorem store_ok {redis redis' : CacheDb μ} {key : String} {value : PyVal μ} {expiry : PyNum}
    {nx : Bool} (h : store redis key value expiry nx = .ok redis') :
    ∃ text ex, toText value = .ok text ∧ exSeconds expiry = .ok ex ∧
      ((redis' = redis ∧ (redis.get? key).isSome) ∨
        redis' = redis.put key ⟨text, ex.map (redis.now + ·)⟩) := by
  obtain ⟨text, htext, h⟩ := bind_ok h
  obtain ⟨ex, hex, h⟩ := bind_ok h
  refine ⟨text, ex, htext, hex, ?_⟩
  split at h
  · rename_i hnx
    cases h
    exact .inl ⟨rfl, hnx.2⟩
  · cases h
    exact .inr rfl

/-- `delete_all` deletes nothing: it always raises. -/
theorem deleteAll_error (redis : CacheDb μ) (pre : String) (simplePrefix : Bool) :
    deleteAll redis pre simplePrefix = .error .typeError := rfl

end RedisService

end Notifyr
