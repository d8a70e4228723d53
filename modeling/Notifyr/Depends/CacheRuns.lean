import Notifyr.Depends.OrmCache
import Notifyr.Theory.Runs

/-!
# Runs over cache types

A family of cache types over one database and one cache, and what their methods promise along a
run of calls, database writes and clock advances.

- `CacheWorld`, `CacheOp`, `cacheStep`: the system.
- `CacheRight`: what is asked of one step. `Cache` answers what the database has; nothing is kept
  beyond its lifetime; `InvalidAll` removes what it denotes and nothing of another type.
- `Coherent`: what is in the cache reads back as what the database has, or not at all.
- `CacheMeets`: the steps on which the code is right; `step_right` is the step lemma.
- `caches_right`: every run from an empty cache whose steps meet the condition is right.
-/

namespace Notifyr

open Theory

/-- The database and the cache; the clock is that of the cache. -/
structure CacheWorld (δ μ : Type) where
  db : δ
  redis : CacheDb μ

/-- One step. A call without an expiry has the one its type was made with. A write of the
database comes with its invalidation: of single keys, or of a mask. -/
inductive CacheOp (ι δ μ : Type)
  | cache (i : ι) (key : StrOrList) (whenCond : PyVal μ) (expiry : ExpiryArg μ)
  | store (i : ι) (key : StrOrList) (obj : PyVal μ) (exp : ExpiryArg μ)
  | invalid (i : ι) (key : StrOrList)
  | invalidAll (i : ι) (mask : Option (List String))
  | write (f : δ → δ) (keys : List (ι × StrOrList))
  | writeAll (f : δ → δ) (i : ι) (mask : Option (List String))
  | advance (t : ℚ)

section

variable {ι δ μ : Type} (T : ι → CacheType δ μ) (loads : String → Option (PyVal μ))

/-- `Invalid` on one key after another; an exception ends it. -/
def invalidEach (redis : CacheDb μ) : List (ι × StrOrList) → CacheDb μ
  | [] => redis
  | (i, key) :: rest =>
    match (T i).invalid redis key with
    | .ok redis => invalidEach redis rest
    | .error _ => redis

/-- The step function. A call that raises leaves the cache as it was. -/
def cacheStep (w : CacheWorld δ μ) : CacheOp ι δ μ → CacheWorld δ μ
  | .cache i key whenCond expiry =>
    match (T i).cache loads w.db w.redis key whenCond expiry with
    | .ok (_, redis) => { w with redis }
    | .error _ => w
  | .store i key obj exp =>
    match (T i).store w.db w.redis key obj exp with
    | .ok redis => { w with redis }
    | .error _ => w
  | .invalid i key => { w with redis := invalidEach T w.redis [(i, key)] }
  | .invalidAll i mask =>
    match (T i).invalidAll w.redis mask with
    | .ok redis => { w with redis }
    | .error _ => w
  | .write f keys => { db := f w.db, redis := invalidEach T w.redis keys }
  | .writeAll f i mask =>
    match (T i).invalidAll w.redis mask with
    | .ok redis => { db := f w.db, redis }
    | .error _ => { w with db := f w.db }
  | .advance t => { w with redis := w.redis.advance t }

variable {T loads} in
theorem cacheStep_cache {w : CacheWorld δ μ} {i : ι} {key : StrOrList} {cond obj : PyVal μ}
    {exp : ExpiryArg μ} {redis : CacheDb μ}
    (h : (T i).cache loads w.db w.redis key cond exp = .ok (obj, redis)) :
    cacheStep T loads w (.cache i key cond exp) = { w with redis } := by
  simp only [cacheStep, h]

variable {T loads} in
theorem cacheStep_cache_error {w : CacheWorld δ μ} {i : ι} {key : StrOrList} {cond : PyVal μ}
    {exp : ExpiryArg μ} {e : PyErr}
    (h : (T i).cache loads w.db w.redis key cond exp = .error e) :
    cacheStep T loads w (.cache i key cond exp) = w := by
  simp only [cacheStep, h]

/-- `InvalidAll` leaves everything as it was. -/
theorem cacheStep_invalidAll (w : CacheWorld δ μ) (i : ι) (mask : Option (List String)) :
    cacheStep T loads w (.invalidAll i mask) = w := by
  obtain ⟨e, he⟩ := (T i).exists_invalidAll_error w.redis mask
  simp only [cacheStep, he]

theorem cacheStep_writeAll (w : CacheWorld δ μ) (f : δ → δ) (i : ι)
    (mask : Option (List String)) :
    cacheStep T loads w (.writeAll f i mask) = { w with db := f w.db } := by
  obtain ⟨e, he⟩ := (T i).exists_invalidAll_error w.redis mask
  simp only [cacheStep, he]

/-! ## What is asked of a step -/

/-- The keys a mask denotes: part by part, `*` stands for any. Without a mask, every key. -/
def Denotes : Option (List String) → List String → Prop
  | none, _ => True
  | some mask, key => List.Forall₂ (fun m k => m = "*" ∨ m = k) mask key

/-- A deadline that does not lie beyond the lifetime. -/
def InTime (now : ℚ) (life deadline : Option ℚ) : Prop :=
  ∀ l, life = some l → ∃ d, deadline = some d ∧ d ≤ now + l

/-- Under the key, `redis'` has nothing that outlives an object stored now, except what was
there. -/
def KeepsTime (t : CacheType δ μ) (redis redis' : CacheDb μ) (key : StrOrList)
    (exp : ExpiryArg μ) (obj : PyVal μ) : Prop :=
  ∀ k e, t.keys.builder key = .ok k → redis'.lookup? k = some e →
    redis.lookup? k = some e ∨ InTime redis.now (CacheType.lifetime exp obj) e.deadline

/-- `redis'` has no key of type `i` that the mask denotes, and of the other types what `redis`
has. -/
def Removes (i : ι) (mask : Option (List String)) (redis redis' : CacheDb μ) : Prop :=
  (∀ key k, Denotes mask key → (T i).keys.builder (.list key) = .ok k →
    redis'.lookup? k = none) ∧
  ∀ j key k, j ≠ i → (T j).keys.builder (.list key) = .ok k → redis'.lookup? k = redis.lookup? k

/-- What is asked of a step. -/
def CacheRight (w : CacheWorld δ μ) (op : CacheOp ι δ μ) : Prop :=
  let redis' := (cacheStep T loads w op).redis
  match op with
  | .cache i key whenCond expiry =>
    ((T i).cache loads w.db w.redis key whenCond expiry).map Prod.fst =
        (T i).dbObject w.db key.parts ∧
      ∀ obj, (T i).dbObject w.db key.parts = .ok obj →
        KeepsTime (T i) w.redis redis' key expiry obj
  | .store i key obj exp =>
    ∀ obj', (T i).resolve w.db key.parts obj = .ok obj' →
      KeepsTime (T i) w.redis redis' key exp obj'
  | .invalidAll i mask | .writeAll _ i mask => Removes T i mask w.redis redis'
  | .invalid _ _ | .write _ _ | .advance _ => True

/-! ## When a step is right -/

/-- A text that `Get` reads as the object, or as nothing. -/
def Reads (t : CacheType δ μ) (text : RedisText μ) (obj : PyVal μ) : Prop :=
  t.readBack loads text = .ok obj ∨ t.readBack loads text = .ok .none

/-- An object that the cache takes and gives back. The expiry comes to a whole number of
seconds, or to none; what is left in Redis reads as the object. -/
def Cacheable (t : CacheType δ μ) (obj : PyVal μ) (exp : ExpiryArg μ) : Prop :=
  (∀ l, CacheType.lifetime exp obj = some l → 0 < l) ∧
  ∃ exp' text ex, CacheType.passed exp obj = .ok exp' ∧ exSeconds (setExpiry exp') = .ok ex ∧
    t.textOf obj = .ok text ∧ Reads loads t text obj

/-- The steps on which the code is right. -/
def CacheMeets (w : CacheWorld δ μ) : CacheOp ι δ μ → Prop
  | .cache i key whenCond expiry =>
    (T i).whenHolds whenCond = .ok false ∨
    ((T i).whenHolds whenCond = .ok true ∧
      key.parts.length = (T i).keys.prefixes.length ∧
      ((T i).get loads w.redis key = .ok .none → ∀ obj, (T i).dbObject w.db key.parts = .ok obj →
        obj.isNone = false → Cacheable loads (T i) obj expiry))
  | .store i key obj exp =>
    ((T i).store w.db w.redis key obj exp).toOption.isSome →
      (∀ f, exp ≠ .callable f) ∧
      ∀ obj', (T i).resolve w.db key.parts obj = .ok obj' →
        (T i).dbObject w.db key.parts = .ok obj' ∧
        ∀ text, (T i).textOf obj' = .ok text → Reads loads (T i) text obj'
  | .invalid _ _ => True
  | .invalidAll i mask =>
    ∀ key k, Denotes mask key → (T i).keys.builder (.list key) = .ok k → w.redis.lookup? k = none
  | .write f keys =>
    (∀ u ∈ keys, u.2.parts.length = (T u.1).keys.prefixes.length) ∧
    ∀ i key, (T i).dbObject (f w.db) key ≠ (T i).dbObject w.db key →
      ∃ u ∈ keys, u.1 = i ∧ u.2.parts = key
  | .writeAll f i mask =>
    (∀ key k, Denotes mask key → (T i).keys.builder (.list key) = .ok k →
      w.redis.lookup? k = none) ∧
    ∀ j key, (T j).dbObject (f w.db) key ≠ (T j).dbObject w.db key → j = i ∧ Denotes mask key
  | .advance _ => True

/-! ## The invariant -/

/-- The keys a step may leave an object under. -/
def CacheOp.used : CacheOp ι δ μ → List (ι × List String)
  | .cache i key _ _ | .store i key _ _ => [(i, key.parts)]
  | _ => []

/-- No two of the keys are one text. -/
def Separated (K : List (ι × List String)) : Prop :=
  ∀ u ∈ K, ∀ v ∈ K, ∀ k, (T u.1).keys.builder (.list u.2) = .ok k →
    (T v.1).keys.builder (.list v.2) = .ok k → u = v

/-- The text reads as what the database has for each of the keys that is it. -/
def Fresh (K : List (ι × List String)) (db : δ) (k : String) (text : RedisText μ) : Prop :=
  ∀ u ∈ K, (T u.1).keys.builder (.list u.2) = .ok k →
    ∃ obj, (T u.1).dbObject db u.2 = .ok obj ∧ Reads loads (T u.1) text obj

/-- What is in the cache is fresh. -/
def Coherent (K : List (ι × List String)) (w : CacheWorld δ μ) : Prop :=
  w.redis.Keeps (Fresh T loads K w.db)

variable {T loads} {K : List (ι × List String)} {w : CacheWorld δ μ} {i : ι} {key : StrOrList}

theorem Coherent.store {obj obj' : PyVal μ} {exp : ExpiryArg μ} {redis' : CacheDb μ}
    (hcoh : Coherent T loads K w) (hsep : Separated T K) (hkey : (i, key.parts) ∈ K)
    (hstore : (T i).store w.db w.redis key obj exp = .ok redis')
    (hobj : (T i).resolve w.db key.parts obj = .ok obj')
    (hdb : (T i).dbObject w.db key.parts = .ok obj')
    (hreads : ∀ text, (T i).textOf obj' = .ok text → Reads loads (T i) text obj') :
    Coherent T loads K { w with redis := redis' } := by
  obtain ⟨k, obj'', text, ex, hk, hobj'', htext, -, hput⟩ := CacheType.store_ok hstore
  cases Except.ok.inj (hobj''.symm.trans hobj)
  rcases hput with ⟨rfl, -⟩ | rfl
  · exact hcoh
  · refine TimedStore.Keeps.put hcoh fun u hu hbuilder => ?_
    -- the key is nobody else's
    cases hsep u hu _ hkey k hbuilder hk
    exact ⟨obj', hdb, hreads text htext⟩

theorem KeepsTime.store {t : CacheType δ μ} {db : δ} {redis redis' : CacheDb μ}
    {obj obj' : PyVal μ} {exp exp' : ExpiryArg μ}
    (hstore : t.store db redis key obj exp' = .ok redis')
    (hpassed : CacheType.passed exp obj' = .ok exp')
    (hlife : ∀ l, CacheType.lifetime exp obj' = some l → 0 < l) :
    KeepsTime t redis redis' key exp obj' := by
  intro k e hk hlookup
  obtain ⟨k', -, text, ex, hk', -, -, hex, hput⟩ := CacheType.store_ok hstore
  cases Except.ok.inj (hk'.symm.trans hk)
  rcases hput with ⟨rfl, -⟩ | rfl
  · exact .inl hlookup
  · rcases TimedStore.lookup?_put hlookup with ⟨-, rfl⟩ | ⟨hne, -⟩
    · refine .inr fun l hl => ?_
      cases CacheType.deadline_of_passed hpassed hex hl (hlife l hl)
      exact ⟨redis.now + l, rfl, le_refl _⟩
    · exact absurd rfl hne

/-- What was not touched keeps its time. -/
theorem KeepsTime.refl (t : CacheType δ μ) (redis : CacheDb μ) (key : StrOrList)
    (exp : ExpiryArg μ) (obj : PyVal μ) : KeepsTime t redis redis key exp obj :=
  fun _ _ _ h => .inl h

/-! ## The step lemma -/

/-- A `Cache` that answers what the database has and leaves the cache alone. -/
theorem cacheRight_of_unchanged {cond : PyVal μ} {exp : ExpiryArg μ}
    (h : (T i).cache loads w.db w.redis key cond exp =
      ((T i).dbObject w.db key.parts >>= fun obj => .ok (obj, w.redis))) :
    CacheRight T loads w (.cache i key cond exp) ∧
      cacheStep T loads w (.cache i key cond exp) = w := by
  cases hdb : (T i).dbObject w.db key.parts with
  | error e =>
    rw [hdb] at h
    refine ⟨⟨by rw [h, hdb]; rfl, fun obj hobj => ?_⟩, cacheStep_cache_error h⟩
    rw [hdb] at hobj
    cases hobj
  | ok obj =>
    rw [hdb] at h
    have hstep : cacheStep T loads w (.cache i key cond exp) = w := cacheStep_cache h
    refine ⟨⟨by rw [h, hdb]; rfl, fun obj _ => ?_⟩, hstep⟩
    rw [hstep]
    exact KeepsTime.refl _ _ _ _ _

theorem builder_of_length {keys : Keys} {key : StrOrList}
    (h : key.parts.length = keys.prefixes.length) : ∃ k, keys.builder key = .ok k :=
  ⟨_, if_neg (not_not.mpr h)⟩

theorem cache_step (hcoh : Coherent T loads K w) (hsep : Separated T K) {cond : PyVal μ}
    {exp : ExpiryArg μ} (hkey : (i, key.parts) ∈ K)
    (hmeets : CacheMeets T loads w (.cache i key cond exp)) :
    CacheRight T loads w (.cache i key cond exp) ∧
      Coherent T loads K (cacheStep T loads w (.cache i key cond exp)) := by
  have hunchanged : (T i).cache loads w.db w.redis key cond exp =
      ((T i).dbObject w.db key.parts >>= fun obj => .ok (obj, w.redis)) →
      CacheRight T loads w (.cache i key cond exp) ∧
        Coherent T loads K (cacheStep T loads w (.cache i key cond exp)) := fun h => by
    obtain ⟨hright, hstep⟩ := cacheRight_of_unchanged h
    exact ⟨hright, hstep.symm ▸ hcoh⟩
  rcases hmeets with hw | ⟨hw, hlen, hmiss⟩
  · exact hunchanged (CacheType.cache_of_not_when hw)
  obtain ⟨k, hk⟩ := builder_of_length hlen
  -- a hit reads as the object of the database, or as a miss
  have hget : (∃ obj, obj.isNone = false ∧ (T i).dbObject w.db key.parts = .ok obj ∧
      (T i).get loads w.redis key = .ok obj) ∨ (T i).get loads w.redis key = .ok .none := by
    rw [CacheType.get_eq hk]
    cases hlookup : w.redis.get? k with
    | none => exact .inr rfl
    | some text =>
      obtain ⟨e, he, rfl⟩ := TimedStore.get?_eq_some_iff.mp hlookup
      obtain ⟨obj, hobj, hreads | hreads⟩ := hcoh k e he (i, key.parts) hkey hk
      · cases hnone : obj.isNone with
        | false => exact .inl ⟨obj, hnone, hobj, hreads⟩
        | true =>
          cases PyVal.eq_none_of_isNone hnone
          exact .inr hreads
      · exact .inr hreads
  rcases hget with ⟨obj, hnone, hobj, hget⟩ | hget
  · refine hunchanged ((CacheType.cache_of_hit hw hget hnone).trans ?_)
    rw [hobj]
    rfl
  · by_cases hex : ∃ obj, (T i).dbObject w.db key.parts = .ok obj ∧ obj.isNone = false
    · obtain ⟨obj, hobj, hnone⟩ := hex
      obtain ⟨hlife, exp', text, ex, hpassed, hex, htext, hreads⟩ := hmiss hget obj hobj hnone
      obtain ⟨redis', hstore⟩ := CacheType.exists_store_ok w.db w.redis hk hnone htext hex
      have hcache := CacheType.cache_of_miss hw hget hobj hnone hpassed hlife
      rw [hstore] at hcache
      have hstep := cacheStep_cache hcache
      have hresolve : (T i).resolve w.db key.parts obj = .ok obj := by
        unfold CacheType.resolve
        rw [hnone]
        rfl
      refine ⟨⟨by rw [hcache, hobj]; rfl, fun obj' hobj' => ?_⟩, ?_⟩
      · cases Except.ok.inj (hobj.symm.trans hobj')
        rw [hstep]
        exact KeepsTime.store hstore hpassed hlife
      · rw [hstep]
        refine hcoh.store hsep hkey hstore hresolve hobj fun text' htext' => ?_
        cases Except.ok.inj (htext.symm.trans htext')
        exact hreads
    · refine hunchanged (CacheType.cache_of_miss_none hw hget fun obj hobj => ?_)
      cases hnone : obj.isNone with
      | false => exact absurd ⟨obj, hobj, hnone⟩ hex
      | true => exact PyVal.eq_none_of_isNone hnone

theorem store_step (hcoh : Coherent T loads K w) (hsep : Separated T K) {obj : PyVal μ}
    {exp : ExpiryArg μ} (hkey : (i, key.parts) ∈ K)
    (hmeets : CacheMeets T loads w (.store i key obj exp)) :
    CacheRight T loads w (.store i key obj exp) ∧
      Coherent T loads K (cacheStep T loads w (.store i key obj exp)) := by
  cases hstore : (T i).store w.db w.redis key obj exp with
  | error e =>
    have hstep : cacheStep T loads w (.store i key obj exp) = w := by
      simp only [cacheStep, hstore]
    refine ⟨fun obj' _ => ?_, hstep.symm ▸ hcoh⟩
    rw [hstep]
    exact KeepsTime.refl _ _ _ _ _
  | ok redis' =>
    have hstep : cacheStep T loads w (.store i key obj exp) = { w with redis := redis' } := by
      simp only [cacheStep, hstore]
    obtain ⟨hexp, hmeets⟩ := hmeets (by rw [hstore]; rfl)
    refine ⟨fun obj' hobj' => ?_, ?_⟩
    · rw [hstep]
      exact KeepsTime.store hstore (CacheType.passed_of_not_callable hexp)
        (CacheType.lifetime_pos hexp)
    · rw [hstep]
      obtain ⟨-, obj', -, -, -, hobj', -⟩ := CacheType.store_ok hstore
      obtain ⟨hdb, hreads⟩ := hmeets obj' hobj'
      exact hcoh.store hsep hkey hstore hobj' hdb hreads

/-- Invalidations leave only what was there. -/
theorem lookup?_invalidEach {redis : CacheDb μ} {keys : List (ι × StrOrList)} {k : String}
    {e : Timed (RedisText μ) ℚ} (h : (invalidEach T redis keys).lookup? k = some e) :
    redis.lookup? k = some e := by
  induction keys generalizing redis with
  | nil => exact h
  | cons u rest ih =>
    obtain ⟨i, key⟩ := u
    rw [invalidEach] at h
    cases hk : (T i).keys.builder key with
    | error e =>
      simp only [CacheType.invalid, hk] at h
      exact h
    | ok k' =>
      simp only [CacheType.invalid, hk] at h
      exact (TimedStore.lookup?_erase (ih h)).2

/-- Keys that are well formed are all invalidated. -/
theorem lookup?_invalidEach_none {redis : CacheDb μ} {keys : List (ι × StrOrList)} {k : String}
    (hlen : ∀ u ∈ keys, u.2.parts.length = (T u.1).keys.prefixes.length) {u : ι × StrOrList}
    (hu : u ∈ keys) (hk : (T u.1).keys.builder u.2 = .ok k) :
    (invalidEach T redis keys).lookup? k = none := by
  induction keys generalizing redis with
  | nil => cases hu
  | cons v rest ih =>
    obtain ⟨j, key'⟩ := v
    obtain ⟨k', hk'⟩ := builder_of_length (hlen (j, key') List.mem_cons_self)
    rw [invalidEach]
    simp only [CacheType.invalid, hk']
    rcases List.mem_cons.mp hu with rfl | hu
    · cases Except.ok.inj (hk'.symm.trans hk)
      rw [Option.eq_none_iff_forall_not_mem]
      intro e he
      exact (TimedStore.lookup?_erase (lookup?_invalidEach he)).1 rfl
    · exact ih (fun v hv => hlen v (List.mem_cons_of_mem _ hv)) hu

/-- A write keeps the cache fresh for the keys it does not change, if it removes the others. -/
theorem Coherent.write {f : δ → δ} {redis' : CacheDb μ} (hcoh : Coherent T loads K w)
    (hsub : ∀ k e, redis'.lookup? k = some e → w.redis.lookup? k = some e)
    (hgone : ∀ (u : ι × List String) k, (T u.1).dbObject (f w.db) u.2 ≠ (T u.1).dbObject w.db u.2 →
      (T u.1).keys.builder (.list u.2) = .ok k → redis'.lookup? k = none) :
    Coherent T loads K { db := f w.db, redis := redis' } := by
  intro k e hlookup u hu hk
  by_cases hsame : (T u.1).dbObject (f w.db) u.2 = (T u.1).dbObject w.db u.2
  · obtain ⟨obj, hobj, hreads⟩ := hcoh k e (hsub k e hlookup) u hu hk
    exact ⟨obj, hsame.trans hobj, hreads⟩
  · rw [hgone u k hsame hk] at hlookup
    cases hlookup

/-- **The step lemma.** -/
theorem step_right (hcoh : Coherent T loads K w) (hsep : Separated T K) {op : CacheOp ι δ μ}
    (hused : ∀ u ∈ op.used, u ∈ K) (hmeets : CacheMeets T loads w op) :
    CacheRight T loads w op ∧ Coherent T loads K (cacheStep T loads w op) := by
  cases op with
  | cache i key cond exp => exact cache_step hcoh hsep (hused _ List.mem_cons_self) hmeets
  | store i key obj exp => exact store_step hcoh hsep (hused _ List.mem_cons_self) hmeets
  | invalid i key =>
    exact ⟨trivial, fun k e hlookup => hcoh k e (lookup?_invalidEach hlookup)⟩
  | invalidAll i mask =>
    have hstep := cacheStep_invalidAll T loads w i mask
    refine ⟨?_, hstep.symm ▸ hcoh⟩
    show Removes T i mask w.redis (cacheStep T loads w (.invalidAll i mask)).redis
    rw [hstep]
    exact ⟨hmeets, fun j key k _ _ => rfl⟩
  | write f keys =>
    obtain ⟨hlen, hcover⟩ := hmeets
    refine ⟨trivial, hcoh.write (fun k e => lookup?_invalidEach) ?_⟩
    rintro ⟨j, key⟩ k hne hk
    obtain ⟨v, hv, rfl, rfl⟩ := hcover j key hne
    exact lookup?_invalidEach_none hlen hv hk
  | writeAll f i mask =>
    obtain ⟨hgone, hcover⟩ := hmeets
    have hstep := cacheStep_writeAll T loads w f i mask
    constructor
    · show Removes T i mask w.redis (cacheStep T loads w (.writeAll f i mask)).redis
      rw [hstep]
      exact ⟨hgone, fun j key k _ _ => rfl⟩
    · rw [hstep]
      refine hcoh.write (fun k e h => h) ?_
      rintro ⟨j, key⟩ k hne hk
      obtain ⟨rfl, hdenotes⟩ := hcover j key hne
      exact hgone key k hdenotes hk
  | advance t => exact ⟨trivial, TimedStore.Keeps.advance hcoh t⟩

/-- Every run from an empty cache whose steps meet the condition is right at every step, as long
as no two keys it uses are one text. -/
theorem caches_right (T : ι → CacheType δ μ) (loads : String → Option (PyVal μ)) (now : ℚ) (db : δ)
    (ops : List (CacheOp ι δ μ)) (hsep : Separated T (ops.flatMap CacheOp.used))
    (hmeets : Always (cacheStep T loads) (CacheMeets T loads) ⟨db, .empty now⟩ ops) :
    Always (cacheStep T loads) (CacheRight T loads) ⟨db, .empty now⟩ ops := by
  have hempty : Coherent T loads (ops.flatMap CacheOp.used) ⟨db, .empty now⟩ :=
    TimedStore.keeps_empty now
  refine (always_of_inv (fun w op hcoh hop => ?_) hempty hmeets.with_mem).1
  have hused : ∀ u ∈ op.used, u ∈ ops.flatMap CacheOp.used :=
    fun u hu => List.mem_flatMap.mpr ⟨op, hop.2, hu⟩
  exact step_right hcoh hsep hused hop.1

end

/-! ## The keys of the repository -/

/-- The cache types that `orm_cache.py` makes. -/
inductive OrmCacheName
  | client | blacklist | challenge | link | contact | contactSummary | policy | authPermission
  deriving DecidableEq

/-- What they are made from: the model classes, and the functions that read the database. -/
structure OrmSources (δ μ : Type) where
  cls : OrmCacheName → ModelClass μ
  dbGet : OrmCacheName → δ → List String → Py (PyVal μ)
  timeLeft : PyVal μ → Py ℚ

/-- The cache types. -/
def ormCaches {δ μ : Type} (src : OrmSources δ μ) : OrmCacheName → CacheType δ μ
  | .client => clientORMCache (src.cls .client) (src.dbGet .client)
  | .blacklist => blacklistORMCache (src.dbGet .blacklist)
  | .challenge => challengeORMCache (src.cls .challenge) (src.dbGet .challenge) src.timeLeft
  | .link => linkORMCache (src.cls .link) (src.dbGet .link)
  | .contact => contactORMCache (src.cls .contact) (src.dbGet .contact)
  | .contactSummary => contactSummaryORMCache (src.dbGet .contactSummary)
  | .policy => policyORMCache (src.cls .policy) (src.dbGet .policy)
  | .authPermission => authPermissionCache (src.dbGet .authPermission)

/-- The prefixes of a type. -/
def OrmCacheName.prefixes : OrmCacheName → List String
  | .client => ["orm-group", "client"]
  | .blacklist => ["orm-blacklist", "client"]
  | .challenge => ["orm-challenge"]
  | .link => ["orm-link"]
  | .contact => ["orm-contact"]
  | .contactSummary => ["orm-contact-summary"]
  | .policy => ["orm-policy"]
  | .authPermission => ["auth-group", "client"]

/-- The closures of its `KeyBuilder`. -/
def OrmCacheName.keys (n : OrmCacheName) : Keys :=
  ⟨n.prefixes, List.replicate n.prefixes.length (String.singleton '/')⟩

theorem ormCaches_keys {δ μ : Type} (src : OrmSources δ μ) (n : OrmCacheName) :
    (ormCaches src n).keys = n.keys := by
  cases n <;> rfl

theorem prefixes_free (n : OrmCacheName) : n.prefixes ≠ [] ∧ ∀ s ∈ n.prefixes, '/' ∉ s.toList := by
  cases n <;> simp [OrmCacheName.prefixes]

/-- Keys of two types are two texts, also where the name of one type begins with that of the
other, and whatever the parts are. -/
theorem text_ne {n m : OrmCacheName} (hne : n ≠ m) {key key' : StrOrList} {k k' : String}
    (h : n.keys.builder key = .ok k) (h' : m.keys.builder key' = .ok k') : k ≠ k' := by
  rintro rfl
  have hhead : ∀ (n : OrmCacheName) {key : StrOrList}, n.keys.builder key = .ok k →
      n.prefixes.head?.map String.toList = some (k.toList.takeWhile (· ≠ '/')) := by
    intro n key h
    have hfree := (prefixes_free n).2
    unfold OrmCacheName.keys at h
    cases hp : n.prefixes with
    | nil => exact absurd hp (prefixes_free n).1
    | cons p ps =>
      rw [hp] at h hfree
      rw [builder_head '/' (hfree p List.mem_cons_self) h]
      rfl
  have heads := (hhead n h).trans (hhead m h').symm
  cases n <;> cases m <;> first | exact hne rfl | simp [OrmCacheName.prefixes] at heads

/-- No two keys of the repository are one text, as long as their parts have no `/`. -/
theorem ormCaches_separated {δ μ : Type} (src : OrmSources δ μ)
    {K : List (OrmCacheName × List String)} (hK : ∀ u ∈ K, ∀ s ∈ u.2, '/' ∉ s.toList) :
    Separated (ormCaches src) K := by
  rintro ⟨n, key⟩ hu ⟨m, key'⟩ hv k hk hk'
  rw [ormCaches_keys] at hk hk'
  by_cases hnm : n = m
  · subst hnm
    have hfree : ∀ u ∈ K, ∀ s ∈ n.prefixes ++ u.2, '/' ∉ s.toList := fun u hu s hs =>
      (List.mem_append.mp hs).elim ((prefixes_free n).2 s) (hK u hu s)
    obtain ⟨-, hparts⟩ := builder_inj '/' (.list key) (.list key') (hfree _ hu) (hfree _ hv)
      (prefixes_free n).1 (prefixes_free n).1 hk hk'
    exact congrArg (Prod.mk n) hparts
  · exact absurd rfl (text_ne hnm hk hk')

/-! ## Inputs -/

/-- `json.loads` on a text that is not JSON. -/
def noJson : String → Option (PyVal Empty) := fun _ => none

/-- A cache of permissions; the database has one without entries for every client. -/
def permissions : Unit → CacheType Unit Empty :=
  fun _ => authPermissionCache fun _ _ => .ok (.dict [])

/-- A client of a group. -/
def someKey : StrOrList := .list ["group", "client"]

theorem permissions_cacheable :
    Cacheable noJson (permissions ()) (.dict []) (.number (.int 0)) := by
  refine ⟨fun l hl => ?_, .number (.int 0), .dumped (.dict []), none, rfl, ?_, rfl, .inl rfl⟩
  · simp [CacheType.lifetime, PyNum.toRat] at hl
  · simp [exSeconds, setExpiry, PyNum.toRat]

/-- A permission is read through the cache, written again, and read a day later. -/
theorem caches_right_permissions :
    Always (cacheStep permissions noJson) (CacheRight permissions noJson) ⟨(), .empty 0⟩
      [.cache () someKey .none (.number (.int 0)), .write id [((), someKey)], .advance 86400,
        .cache () someKey .none (.number (.int 0))] := by
  have hcache : ∀ w, CacheMeets permissions noJson w
      (.cache () someKey .none (.number (.int 0))) := fun w => by
    refine .inr ⟨rfl, rfl, fun _ obj hobj _ => ?_⟩
    cases hobj
    exact permissions_cacheable
  refine caches_right permissions noJson 0 () _ ?_ ⟨hcache _, ⟨?_, ?_⟩, trivial, hcache _, trivial⟩
  · intro u hu v hv k _ _
    simp only [CacheOp.used, List.flatMap_cons, List.flatMap_nil, List.mem_append,
      List.mem_singleton, List.not_mem_nil, or_false, false_or, or_self] at hu hv
    rw [hu, hv]
  · intro u hu
    cases List.mem_singleton.mp hu
    rfl
  · exact fun i key hne => absurd rfl hne

/-- The blacklist cache, with a client listed for a minute. -/
def minuteBlacklist : Unit → CacheType Unit Empty :=
  fun _ => blacklistORMCache fun _ _ => .ok (.tuple [.bool true, .float 60])

/-- Asking for a listed client raises, and invalidating the stored permissions of a type leaves
them where they are. -/
theorem not_caches_right :
    ¬ Always (cacheStep minuteBlacklist noJson) (CacheRight minuteBlacklist noJson) ⟨(), .empty 0⟩
        [.cache () someKey .none (.callable itemOne)] ∧
    ¬ Always (cacheStep permissions noJson) (CacheRight permissions noJson) ⟨(), .empty 0⟩
        [.store () someKey (.dict []) (.number (.int 0)), .invalidAll () none] := by
  constructor
  · rintro ⟨⟨h, -⟩, -⟩
    have hcache : (minuteBlacklist ()).cache noJson () (.empty 0) someKey .none
        (.callable itemOne) = .error .typeError := rfl
    rw [hcache] at h
    cases h
  · rintro ⟨-, hright, -⟩
    obtain ⟨k, hk⟩ : ∃ k, (permissions ()).keys.builder someKey = .ok k := ⟨_, rfl⟩
    have hstore : cacheStep permissions noJson ⟨(), .empty 0⟩
        (.store () someKey (.dict []) (.number (.int 0))) =
        ⟨(), (TimedStore.empty 0).put k ⟨.dumped (.dict []), none⟩⟩ := by
      have hk' : (permissions ()).store () (.empty 0) someKey (.dict []) (.number (.int 0)) =
          .ok ((TimedStore.empty 0).put k ⟨.dumped (.dict []), none⟩) := by
        cases hk
        rfl
      simp only [cacheStep, hk']
    have hremoves : Removes permissions () none _ _ := hright
    rw [cacheStep_invalidAll, hstore] at hremoves
    have hnone := hremoves.1 someKey.parts k trivial hk
    have hthere := TimedStore.lookup?_put_self (s := TimedStore.empty (0 : ℚ)) (k := k)
      (e := ⟨RedisText.dumped (.dict [] : PyVal Empty), none⟩) trivial
    cases hthere.symm.trans hnone

end Notifyr
