import Notifyr.Services.RedisService
import Notifyr.Utils.KeyBuilder

/-!
# Cache types

`generate_cache_type` (`app/depends/orm_cache.py`) and the classes it makes.

- `ExpiryArg`, `TypeArg`, `CacheArgs`: the arguments; `CacheType` is a class it returns, with the
  closures of its `KeyBuilder`.
- `dbGet`, `store`, `get`, `invalid`, `invalidAll`, `cache`: `DB_Get` and the methods.
- `get_eq`, `store_ok`, `cache_eq`: what the methods come to, one lemma for each.
- The types the module ends with, under their names.
-/

namespace Notifyr

open Theory

variable {δ μ : Type}

/-- An argument for an expiry. -/
inductive ExpiryArg (μ : Type)
  | number (n : PyNum)
  /-- A text, with what `timeparse` reads in it. -/
  | text (parsed : Option PyNum)
  /-- A `timedelta`, with its `total_seconds()`. -/
  | timedelta (seconds : ℚ)
  | callable (f : PyVal μ → Py PyNum)
  | none

/-- What the cache code uses of a model class. -/
structure ModelClass (μ : Type) where
  /-- `to_json`, where the instances have it. -/
  toJson : Option (μ → Py (List (String × PyVal μ)))
  /-- The fields of `_meta.fields_map` with their values. -/
  fields : μ → List (String × PyVal μ)
  /-- `type_(**obj)`. -/
  construct : List (String × PyVal μ) → Py μ

/-- `type_`, as `Store` and `Get` tell it apart. -/
inductive TypeArg (μ : Type)
  | model (cls : ModelClass μ)
  | typedDict
  | other

/-- The arguments of `generate_cache_type`. `db_get` is called with arguments that belong to the
key; `when` is absent also where it is not callable. -/
structure CacheArgs (δ μ : Type) where
  type_ : TypeArg μ
  dbGet : δ → List String → Py (PyVal μ)
  index : Int := 0
  prefix_ : StrOrList := .str "orm-cache"
  sep : StrOrList := .str "/"
  expiry : ExpiryArg μ := .number (.int 0)
  nx : Bool := false
  when : Option (PyVal μ → Py Bool) := none
  useToJson : Bool := true

/-- A class that `generate_cache_type` returns. -/
structure CacheType (δ μ : Type) extends CacheArgs δ μ where
  keys : Keys
  built : keyBuilder prefix_ sep = .ok keys

/-- `generate_cache_type`. -/
def generateCacheType (args : CacheArgs δ μ) : Py (CacheType δ μ) :=
  match h : keyBuilder args.prefix_ args.sep with
  | .ok keys => .ok { args with keys, built := h }
  | .error e => .error e

/-- `v == None`. -/
def PyVal.isNone : PyVal μ → Bool
  | .none => true
  | _ => false

theorem PyVal.eq_none_of_isNone {v : PyVal μ} (h : v.isNone = true) : v = .none := by
  cases v with
  | none => rfl
  | _ => cases h

/-- `isprimitive_type`; a tuple is none. -/
def PyVal.isPrimitive : PyVal μ → Bool
  | .none | .bool _ | .int _ | .float _ | .str _ | .list _ | .dict _ => true
  | .uuid _ | .tuple _ | .model _ | .other _ => false

/-- `Set_Expiry`. -/
def setExpiry : ExpiryArg μ → PyNum
  | .number n => if n.toRat ≤ 0 then .int 0 else n
  | .text (some n) => n
  | .text none => .int 0
  | .timedelta seconds => .float seconds
  | .callable _ => .int 0
  | .none => .int 0

/-- `result[index]`, where `result` has it. -/
def unpack (index : Int) : PyVal μ → PyVal μ
  | .tuple items => if 0 ≤ index then items.getD index.toNat (.tuple items) else .tuple items
  | .list items => if 0 ≤ index then items.getD index.toNat (.list items) else .list items
  | result => result

/-- A field of a model instance in the dictionary that `Store` makes. -/
def storedField (field : String × PyVal μ) : Option (String × PyVal μ) :=
  let attr := match field.2 with
    | .uuid s => .str s
    | attr => attr
  if attr.isPrimitive then some (field.1, attr) else none

namespace CacheType

/-- `DB_Get`. -/
def dbObject (T : CacheType δ μ) (db : δ) (key : List String) : Py (PyVal μ) := do
  let result ← T.dbGet db key
  return unpack T.index result

/-- `temp` in `Store`. An object without `_meta` has no fields. -/
def temp (T : CacheType δ μ) (obj : PyVal μ) : Py (PyVal μ) :=
  match T.type_ with
  | .model cls =>
    match obj, cls.toJson, T.useToJson with
    | .model m, some toJson, true => do return .dict (← toJson m)
    | .model m, _, _ => .ok (.dict ((cls.fields m).filterMap storedField))
    | _, _, _ => .error .attributeError
  | .typedDict =>
    match obj with
    | .dict entries => .ok (.dict entries)
    | _ => .error .typeError
  | .other => .ok obj

/-- The object that `Store` stores: the one it is given, or that of the database. -/
def resolve (T : CacheType δ μ) (db : δ) (key : List String) (obj : PyVal μ) : Py (PyVal μ) :=
  if obj.isNone then T.dbObject db key else .ok obj

/-- `Store`. -/
def store (T : CacheType δ μ) (db : δ) (redis : CacheDb μ) (key : StrOrList) (obj : PyVal μ)
    (exp : ExpiryArg μ) : Py (CacheDb μ) := do
  let text ← T.keys.builder key
  let obj ← T.resolve db key.parts obj
  let temp ← T.temp obj
  RedisService.store redis text temp (setExpiry exp) T.nx

/-- The end of `Get`, on what is in the cache. -/
def restore (T : CacheType δ μ) (obj : PyVal μ) : Py (PyVal μ) :=
  if obj.isNone then .ok .none
  else
    match T.type_ with
    | .model cls =>
      match obj with
      | .dict entries => do return .model (← cls.construct entries)
      | _ => .error .typeError
    | _ => .ok obj

/-- `Get`. -/
def get (T : CacheType δ μ) (loads : String → Option (PyVal μ)) (redis : CacheDb μ)
    (key : StrOrList) : Py (PyVal μ) := do
  let text ← T.keys.builder key
  let obj ← RedisService.retrieve loads redis text
  T.restore obj

/-- `Invalid`. -/
def invalid (T : CacheType δ μ) (redis : CacheDb μ) (key : StrOrList) : Py (CacheDb μ) := do
  let text ← T.keys.builder key
  return RedisService.delete redis text

/-- `InvalidAll`. -/
def invalidAll (T : CacheType δ μ) (redis : CacheDb μ) (mask : Option (List String)) :
    Py (CacheDb μ) :=
  match T.prefix_ with
  | .str p => RedisService.deleteAll redis p true
  | .list l => do
    let p ← T.keys.builder (.list (mask.getD (List.replicate l.length "*")))
    RedisService.deleteAll redis p false

/-- `When`. -/
def whenHolds (T : CacheType δ μ) (cond : PyVal μ) : Py Bool :=
  match T.when with
  | none => .ok true
  | some when => when cond

/-- `Cache`. -/
def cache (T : CacheType δ μ) (loads : String → Option (PyVal μ)) (db : δ) (redis : CacheDb μ)
    (key : StrOrList) (whenCond : PyVal μ) (expiry : ExpiryArg μ) : Py (PyVal μ × CacheDb μ) := do
  if !(← T.whenHolds whenCond) then return (← T.dbObject db key.parts, redis)
  let obj ← T.get loads redis key
  if !obj.isNone then return (obj, redis)
  let obj ← T.dbObject db key.parts
  if obj.isNone then return (.none, redis)
  match expiry with
  | .callable f =>
    let n ← f obj
    -- a bare `return`, and a sum that is not assigned
    if n.toRat ≤ 0 then return (.none, redis)
    return (obj, ← T.store db redis key obj (.number n))
  | expiry => return (obj, ← T.store db redis key obj expiry)

/-! ## What the methods come to -/

/-- The text that `Store` leaves for an object. -/
def textOf (T : CacheType δ μ) (obj : PyVal μ) : Py (RedisText μ) := do
  let temp ← T.temp obj
  toText temp

/-- What `Get` makes of a text. -/
def readBack (T : CacheType δ μ) (loads : String → Option (PyVal μ)) (text : RedisText μ) :
    Py (PyVal μ) := do
  let obj ← text.load loads
  T.restore obj

variable {T : CacheType δ μ} {loads : String → Option (PyVal μ)} {db : δ} {redis redis' : CacheDb μ}
  {key : StrOrList} {k : String} {obj : PyVal μ} {exp : ExpiryArg μ}

theorem get_eq (hk : T.keys.builder key = .ok k) :
    T.get loads redis key =
      match redis.get? k with
      | some text => T.readBack loads text
      | none => .ok .none := by
  unfold get
  rw [hk]
  show (RedisService.retrieve loads redis k >>= fun obj => T.restore obj) = _
  unfold RedisService.retrieve
  cases redis.get? k with
  | some text => rfl
  | none => rfl

/-- What is read depends on the entry of the key alone. -/
theorem get_congr (hk : T.keys.builder key = .ok k) (h : redis'.lookup? k = redis.lookup? k) :
    T.get loads redis' key = T.get loads redis key := by
  rw [get_eq hk, get_eq hk]
  unfold TimedStore.get?
  rw [h]

theorem load_error {text : RedisText μ} {e : PyErr} (h : text.load loads = .error e) :
    e = .valueError := by
  cases text with
  | dumped v => cases h
  | number n => cases n <;> cases h
  | plain s =>
    unfold RedisText.load at h
    cases hs : loads s with
    | some v =>
      simp only [hs] at h
      cases h
    | none =>
      simp only [hs] at h
      cases h
      rfl

/-- Where nothing is constructed, `Get` raises for a key or a text that is malformed. -/
theorem get_error {e : PyErr} (hT : T.type_ = .other) (h : T.get loads redis key = .error e) :
    e = .valueError := by
  have hrestore : ∀ v, T.restore v = .ok v := fun v => by
    unfold restore
    rw [hT]
    cases hv : v.isNone with
    | false => rfl
    | true => exact congrArg Except.ok (PyVal.eq_none_of_isNone hv).symm
  cases hk : T.keys.builder key with
  | error e' =>
    unfold get at h
    rw [hk] at h
    cases h
    unfold Keys.builder at hk
    split at hk
    · cases hk
      rfl
    · cases hk
  | ok k =>
    rw [get_eq hk] at h
    cases hlookup : redis.get? k with
    | none =>
      rw [hlookup] at h
      cases h
    | some text =>
      rw [hlookup] at h
      have h : (text.load loads >>= fun v => T.restore v) = .error e := h
      cases hload : text.load loads with
      | error e' =>
        rw [hload] at h
        cases h
        exact load_error hload
      | ok v =>
        rw [hload] at h
        cases (hrestore v).symm.trans h

/-- What a `Store` that returns has done. -/
theorem store_ok (h : T.store db redis key obj exp = .ok redis') :
    ∃ k obj' text ex, T.keys.builder key = .ok k ∧ T.resolve db key.parts obj = .ok obj' ∧
      T.textOf obj' = .ok text ∧ exSeconds (setExpiry exp) = .ok ex ∧
      ((redis' = redis ∧ (redis.get? k).isSome) ∨
        redis' = redis.put k ⟨text, ex.map (redis.now + ·)⟩) := by
  obtain ⟨k, hk, h⟩ := bind_ok h
  obtain ⟨obj', hobj, h⟩ := bind_ok h
  obtain ⟨temp, htemp, h⟩ := bind_ok h
  obtain ⟨text, ex, htext, hex, hput⟩ := RedisService.store_ok h
  have htextOf : T.textOf obj' = .ok text := by
    unfold textOf
    rw [htemp]
    exact htext
  exact ⟨k, obj', text, ex, hk, hobj, htextOf, hex, hput⟩

variable (db redis) in
/-- When `Store` returns. -/
theorem exists_store_ok {text : RedisText μ} {ex : Option ℚ} (hk : T.keys.builder key = .ok k)
    (hobj : obj.isNone = false) (htext : T.textOf obj = .ok text)
    (hex : exSeconds (setExpiry exp) = .ok ex) :
    ∃ redis', T.store db redis key obj exp = .ok redis' := by
  obtain ⟨temp, htemp, htext⟩ := bind_ok htext
  unfold store resolve
  rw [hk, hobj]
  show ∃ redis', (T.temp obj >>= fun temp => _) = Except.ok redis'
  rw [htemp]
  exact ⟨_, RedisService.store_of_ok htext hex⟩

variable (db redis) in
/-- Without `nx`, `Store` leaves a new entry. -/
theorem store_of_not_nx {text : RedisText μ} {ex : Option ℚ} (hnx : T.nx = false)
    (hk : T.keys.builder key = .ok k) (hobj : obj.isNone = false) (htext : T.textOf obj = .ok text)
    (hex : exSeconds (setExpiry exp) = .ok ex) :
    T.store db redis key obj exp = .ok (redis.put k ⟨text, ex.map (redis.now + ·)⟩) := by
  obtain ⟨temp, htemp, htext⟩ := bind_ok htext
  unfold store resolve
  rw [hk, hobj]
  show (T.temp obj >>= fun temp => _) = _
  rw [htemp]
  refine (RedisService.store_of_ok htext hex).trans (congrArg Except.ok (if_neg ?_))
  rw [hnx]
  exact fun h => Bool.false_ne_true h.1

/-- `InvalidAll` always raises. -/
theorem exists_invalidAll_error (T : CacheType δ μ) (redis : CacheDb μ)
    (mask : Option (List String)) : ∃ e, T.invalidAll redis mask = .error e := by
  unfold invalidAll
  split
  · exact ⟨_, rfl⟩
  · rename_i l _
    cases T.keys.builder (.list (mask.getD (List.replicate l.length "*"))) with
    | error e => exact ⟨e, rfl⟩
    | ok p => exact ⟨_, rfl⟩

/-- The expiry that `Cache` passes to `Store`. -/
def passed : ExpiryArg μ → PyVal μ → Py (ExpiryArg μ)
  | .callable f, obj => do return .number (← f obj)
  | expiry, _ => .ok expiry

/-- The seconds an object is meant to be kept: for good, if there are none. -/
def lifetime : ExpiryArg μ → PyVal μ → Option ℚ
  | .number n, _ => if n.toRat ≤ 0 then none else some n.toRat
  | .text parsed, _ => (parsed.map PyNum.toRat).filter (0 < ·)
  | .timedelta seconds, _ => if seconds ≤ 0 then none else some seconds
  | .callable f, obj => (f obj).toOption.map PyNum.toRat
  | .none, _ => none

theorem passed_of_not_callable (h : ∀ f, exp ≠ .callable f) : passed exp obj = .ok exp := by
  cases exp with
  | callable f => exact absurd rfl (h f)
  | number n | text p | timedelta q | none => rfl

/-- Only a callable can give a lifetime that is over. -/
theorem lifetime_pos (h : ∀ f, exp ≠ .callable f) (l : ℚ) (hl : lifetime exp obj = some l) :
    0 < l := by
  cases exp with
  | callable f => exact absurd rfl (h f)
  | number n =>
    rw [lifetime, Option.ite_none_left_eq_some] at hl
    obtain ⟨hn, hl⟩ := hl
    cases hl
    exact not_le.mp hn
  | text parsed =>
    rw [lifetime, Option.filter_eq_some_iff] at hl
    exact of_decide_eq_true hl.2
  | timedelta seconds =>
    rw [lifetime, Option.ite_none_left_eq_some] at hl
    obtain ⟨hs, hl⟩ := hl
    cases hl
    exact not_le.mp hs
  | none => cases hl

/-- `When` says no. -/
theorem cache_of_not_when {cond : PyVal μ} (hw : T.whenHolds cond = .ok false) :
    T.cache loads db redis key cond exp =
      (T.dbObject db key.parts >>= fun obj => .ok (obj, redis)) := by
  unfold cache
  rw [hw]
  rfl

/-- The object is in the cache. -/
theorem cache_of_hit {cond : PyVal μ} (hw : T.whenHolds cond = .ok true)
    (hget : T.get loads redis key = .ok obj) (hobj : obj.isNone = false) :
    T.cache loads db redis key cond exp = .ok (obj, redis) := by
  unfold cache
  rw [hw, hget]
  show (if (!obj.isNone) = true then _ else _ : Py _) = _
  rw [hobj]
  rfl

/-- The object is not in the cache, and the database has none, or raises. -/
theorem cache_of_miss_none {cond : PyVal μ} (hw : T.whenHolds cond = .ok true)
    (hget : T.get loads redis key = .ok .none)
    (hobj : ∀ obj, T.dbObject db key.parts = .ok obj → obj = .none) :
    T.cache loads db redis key cond exp =
      (T.dbObject db key.parts >>= fun obj => .ok (obj, redis)) := by
  unfold cache
  rw [hw, hget]
  cases hdb : T.dbObject db key.parts with
  | error e => rfl
  | ok obj =>
    cases hobj obj hdb
    rfl

/-- The object is not in the cache, and the database has one: it is stored. -/
theorem cache_of_miss {cond : PyVal μ} {exp' : ExpiryArg μ} (hw : T.whenHolds cond = .ok true)
    (hget : T.get loads redis key = .ok .none) (hdb : T.dbObject db key.parts = .ok obj)
    (hobj : obj.isNone = false) (hexp : passed exp obj = .ok exp')
    (hlife : ∀ l, lifetime exp obj = some l → 0 < l) :
    T.cache loads db redis key cond exp =
      (T.store db redis key obj exp' >>= fun redis' => .ok (obj, redis')) := by
  unfold cache
  rw [hw, hget]
  show (T.dbObject db key.parts >>= fun obj => _) = _
  rw [hdb]
  show (if obj.isNone = true then _ else _ : Py _) = _
  rw [hobj]
  cases exp with
  | callable f =>
    obtain ⟨n, hn, hexp⟩ := bind_ok hexp
    cases hexp
    have hpos : 0 < n.toRat := hlife n.toRat (by rw [lifetime, hn]; rfl)
    show (f obj >>= fun n => _) = _
    rw [hn]
    show (if n.toRat ≤ 0 then _ else _ : Py _) = _
    rw [if_neg (not_le.mpr hpos)]
    rfl
  | number n | text p | timedelta q | none =>
    cases hexp
    rfl

/-- The same without an expiry function and without `nx`, with the entry that is left. -/
theorem cache_of_stored {cond : PyVal μ} {text : RedisText μ} {ex : Option ℚ}
    (hexp : ∀ f, exp ≠ .callable f) (hw : T.whenHolds cond = .ok true) (hnx : T.nx = false)
    (hk : T.keys.builder key = .ok k) (hget : T.get loads redis key = .ok .none)
    (hdb : T.dbObject db key.parts = .ok obj) (hobj : obj.isNone = false)
    (htext : T.textOf obj = .ok text) (hex : exSeconds (setExpiry exp) = .ok ex) :
    T.cache loads db redis key cond exp =
      .ok (obj, redis.put k ⟨text, ex.map (redis.now + ·)⟩) := by
  rw [cache_of_miss hw hget hdb hobj (passed_of_not_callable hexp) (lifetime_pos hexp),
    store_of_not_nx db redis hnx hk hobj htext hex]
  rfl

/-- What `Get` raises, `Cache` raises. -/
theorem cache_of_get_error {cond : PyVal μ} {e : PyErr} (hw : T.whenHolds cond = .ok true)
    (hget : T.get loads redis key = .error e) :
    T.cache loads db redis key cond exp = .error e := by
  unfold cache
  rw [hw, hget]
  rfl

/-- The expiry function raises on the object. -/
theorem cache_of_expiry_error {cond : PyVal μ} {f : PyVal μ → Py PyNum} {e : PyErr}
    (hw : T.whenHolds cond = .ok true) (hget : T.get loads redis key = .ok .none)
    (hdb : T.dbObject db key.parts = .ok obj) (hobj : obj.isNone = false)
    (hf : f obj = .error e) :
    T.cache loads db redis key cond (.callable f) = .error e := by
  unfold cache
  rw [hw, hget]
  show (T.dbObject db key.parts >>= fun obj => _) = _
  rw [hdb]
  show (if obj.isNone = true then _ else _ : Py _) = _
  rw [hobj]
  show (f obj >>= fun n => _) = _
  rw [hf]
  rfl

/-- A `Cache` that returns without an expiry function: the object was in the cache, or it is that
of the database, and stored if it is one. -/
theorem cache_ok {cond : PyVal μ} (hexp : ∀ f, exp ≠ .callable f)
    (hw : T.whenHolds cond = .ok true)
    (h : T.cache loads db redis key cond exp = .ok (obj, redis')) :
    (T.get loads redis key = .ok obj ∧ obj.isNone = false ∧ redis' = redis) ∨
    (T.get loads redis key = .ok .none ∧ T.dbObject db key.parts = .ok obj ∧
      ((obj = .none ∧ redis' = redis) ∨
        (obj.isNone = false ∧ T.store db redis key obj exp = .ok redis'))) := by
  cases hget : T.get loads redis key with
  | error e =>
    rw [cache_of_get_error hw hget] at h
    cases h
  | ok cached =>
    cases hcached : cached.isNone with
    | false =>
      rw [cache_of_hit hw hget hcached] at h
      cases h
      exact .inl ⟨rfl, hcached, rfl⟩
    | true =>
      cases PyVal.eq_none_of_isNone hcached
      refine .inr ⟨rfl, ?_⟩
      cases hdb : T.dbObject db key.parts with
      | error e =>
        have hnone : ∀ obj, T.dbObject db key.parts = .ok obj → obj = .none := fun obj hobj => by
          cases hdb.symm.trans hobj
        rw [cache_of_miss_none hw hget hnone, hdb] at h
        cases h
      | ok obj' =>
        cases hobj : obj'.isNone with
        | true =>
          cases PyVal.eq_none_of_isNone hobj
          have hnone : ∀ obj, T.dbObject db key.parts = .ok obj → obj = .none := fun obj hobj =>
            (Except.ok.inj (hdb.symm.trans hobj)).symm
          rw [cache_of_miss_none hw hget hnone, hdb] at h
          cases h
          exact ⟨rfl, .inl ⟨rfl, rfl⟩⟩
        | false =>
          rw [cache_of_miss hw hget hdb hobj (passed_of_not_callable hexp)
            (lifetime_pos hexp)] at h
          obtain ⟨redis'', hstore, h⟩ := bind_ok h
          cases h
          exact ⟨rfl, .inr ⟨hobj, hstore⟩⟩

/-- What a `Cache` that returns has done to the cache: nothing, or one entry under its key. -/
theorem cache_redis {cond : PyVal μ} (h : T.cache loads db redis key cond exp = .ok (obj, redis')) :
    redis' = redis ∨ ∃ k e, T.keys.builder key = .ok k ∧ redis' = redis.put k e := by
  have hstored : ∀ {obj' : PyVal μ} {exp' : ExpiryArg μ},
      (T.store db redis key obj' exp' >>= fun redis' => .ok (obj', redis')) = .ok (obj, redis') →
        redis' = redis ∨ ∃ k e, T.keys.builder key = .ok k ∧ redis' = redis.put k e := by
    intro obj' exp' h
    obtain ⟨redis'', hstore, h⟩ := bind_ok h
    cases h
    obtain ⟨k, -, text, ex, hk, -, -, -, hput⟩ := store_ok hstore
    rcases hput with ⟨rfl, -⟩ | hput
    · exact .inl rfl
    · exact .inr ⟨k, _, hk, hput⟩
  obtain ⟨w, -, h⟩ := bind_ok h
  cases w with
  | false =>
    obtain ⟨obj', -, h⟩ := bind_ok h
    cases h
    exact .inl rfl
  | true =>
    obtain ⟨obj', -, h⟩ := bind_ok h
    cases hobj : obj'.isNone with
    | false =>
      simp only [hobj] at h
      cases h
      exact .inl rfl
    | true =>
      simp only [hobj] at h
      obtain ⟨obj'', -, h⟩ := bind_ok h
      split at h
      · cases h
        exact .inl rfl
      · cases exp with
        | callable f =>
          obtain ⟨n, -, h⟩ := bind_ok h
          split at h
          · cases h
            exact .inl rfl
          · exact hstored h
        | number n | text p | timedelta q | none => exact hstored h

/-- `Cache` leaves the other keys as they were. -/
theorem cache_lookup?_ne {cond : PyVal μ} {k' : String}
    (h : T.cache loads db redis key cond exp = .ok (obj, redis'))
    (hne : ∀ k, T.keys.builder key = .ok k → k' ≠ k) : redis'.lookup? k' = redis.lookup? k' := by
  rcases cache_redis h with rfl | ⟨k, e, hk, rfl⟩
  · rfl
  · exact TimedStore.lookup?_put_ne (hne k hk)

/-- What `Store` is passed keeps to the lifetime. -/
theorem deadline_of_passed {exp' : ExpiryArg μ} {ex : Option ℚ} {l : ℚ}
    (hexp : passed exp obj = .ok exp') (hex : exSeconds (setExpiry exp') = .ok ex)
    (hl : lifetime exp obj = some l) (hpos : 0 < l) : ex = some l := by
  cases exp with
  | callable f =>
    obtain ⟨n, hn, hexp⟩ := bind_ok hexp
    cases hexp
    rw [lifetime, hn] at hl
    cases hl
    rw [setExpiry, if_neg (not_le.mpr hpos)] at hex
    exact RedisService.exSeconds_of_pos hex hpos
  | number n =>
    cases hexp
    by_cases hn : n.toRat ≤ 0
    · rw [lifetime, if_pos hn] at hl
      cases hl
    · rw [lifetime, if_neg hn] at hl
      cases hl
      rw [setExpiry, if_neg hn] at hex
      exact RedisService.exSeconds_of_pos hex hpos
  | text parsed =>
    cases hexp
    cases parsed with
    | none => cases hl
    | some n =>
      rw [lifetime, Option.map_some, Option.filter_eq_some_iff] at hl
      obtain ⟨hn, -⟩ := hl
      cases hn
      exact @RedisService.exSeconds_of_pos n ex hex hpos
  | timedelta seconds =>
    cases hexp
    by_cases hs : seconds ≤ 0
    · rw [lifetime, if_pos hs] at hl
      cases hl
    · rw [lifetime, if_neg hs] at hl
      cases hl
      exact @RedisService.exSeconds_of_pos (.float l) ex hex hpos
  | none => cases hl

end CacheType

/-! ## The types of the module -/

/-- A value that is compared with a number. -/
def asNumber : PyVal μ → Py PyNum
  | .int n => .ok (.int n)
  | .float q => .ok (.float q)
  | .bool b => .ok (.int (if b then 1 else 0))
  | _ => .error .typeError

/-- `o[1]`; `Cache` compares it with a number. -/
def itemOne : PyVal μ → Py PyNum
  | .list (_ :: v :: _) | .tuple (_ :: v :: _) => asNumber v
  | .list _ | .tuple _ => .error .indexError
  | .str s => if s.length < 2 then .error .indexError else .error .typeError
  | .dict _ => .error .keyError
  | _ => .error .typeError

/-- `ClientORMCache`. -/
def clientORMCache (clientORM : ModelClass μ) (getClient : δ → List String → Py (PyVal μ)) :
    CacheType δ μ where
  type_ := .model clientORM
  dbGet := getClient
  prefix_ := .list ["orm-group", "client"]
  keys := ⟨["orm-group", "client"], ["/", "/"]⟩
  built := rfl

/-- `BlacklistORMCache`. -/
def blacklistORMCache (isBlacklisted : δ → List String → Py (PyVal μ)) : CacheType δ μ where
  type_ := .other
  dbGet := isBlacklisted
  prefix_ := .list ["orm-blacklist", "client"]
  expiry := .callable itemOne
  keys := ⟨["orm-blacklist", "client"], ["/", "/"]⟩
  built := rfl

/-- `ChallengeORMCache`; `timeLeft` is `o.expired_at_auth.timestamp() - time.time()`. -/
def challengeORMCache (challengeORM : ModelClass μ) (getChallenge : δ → List String → Py (PyVal μ))
    (timeLeft : PyVal μ → Py ℚ) : CacheType δ μ where
  type_ := .model challengeORM
  dbGet := getChallenge
  prefix_ := .str "orm-challenge"
  expiry := .callable fun o => do return .float (← timeLeft o)
  keys := ⟨["orm-challenge"], ["/"]⟩
  built := rfl

/-- `LinkORMCache`. -/
def linkORMCache (linkORM : ModelClass μ) (getLink : δ → List String → Py (PyVal μ)) :
    CacheType δ μ where
  type_ := .model linkORM
  dbGet := getLink
  prefix_ := .str "orm-link"
  keys := ⟨["orm-link"], ["/"]⟩
  built := rfl

/-- `ContactORMCache`. -/
def contactORMCache (contactORM : ModelClass μ) (getContact : δ → List String → Py (PyVal μ)) :
    CacheType δ μ where
  type_ := .model contactORM
  dbGet := getContact
  prefix_ := .str "orm-contact"
  keys := ⟨["orm-contact"], ["/"]⟩
  built := rfl

/-- `ContactSummaryORMCache`. -/
def contactSummaryORMCache (readContact : δ → List String → Py (PyVal μ)) : CacheType δ μ where
  type_ := .typedDict
  dbGet := readContact
  prefix_ := .str "orm-contact-summary"
  useToJson := false
  keys := ⟨["orm-contact-summary"], ["/"]⟩
  built := rfl

/-- `PolicyORMCache`. -/
def policyORMCache (policyORM : ModelClass μ) (getPolicy : δ → List String → Py (PyVal μ)) :
    CacheType δ μ where
  type_ := .model policyORM
  dbGet := getPolicy
  prefix_ := .str "orm-policy"
  keys := ⟨["orm-policy"], ["/"]⟩
  built := rfl

/-- `AuthPermissionCache`; its `TypedDict` is that of `typing_extensions`. -/
def authPermissionCache (getCombinedPolicies : δ → List String → Py (PyVal μ)) :
    CacheType δ μ where
  type_ := .other
  dbGet := getCombinedPolicies
  prefix_ := .list ["auth-group", "client"]
  useToJson := false
  keys := ⟨["auth-group", "client"], ["/", "/"]⟩
  built := rfl

end Notifyr
