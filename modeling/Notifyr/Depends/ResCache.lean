import Notifyr.Runtime.JsonDumps
import Notifyr.Theory.Dict

/-!
# Response caches

`generate_cache_type` (`app/depends/res_cache.py`), the parts of `MemCachedService` it calls
(`app/services/database/memcached_service.py`) and `key_setter` (`app/models/object_model.py`). The
server is a map from byte strings to byte strings.

- `ResponseCache`: a class that is generated; `CacheCall`: a call of one of its three methods.
- `memGet`, `memSet`, `memDelete`: the service.
- `callCache`: a call, through the decorator that builds the key.
- `RunRight`: in a run every call returns, and `Get` gives what was last set for the same key.
- `CacheCallMeets`: the calls that do what they should; `cacheRun_right`. `callCache_fails`: some
  never return.
-/

namespace Notifyr

open Theory NestedDict

variable {φ : Type}

/-! ## The classes -/

/-- `_type`, as the methods tell it apart. -/
inductive ResponseType
  | dict
  | typingDict
  | baseModel
  /-- A subclass of `BaseModel`. -/
  | model
  /-- `bool`, `int` or `str`. -/
  | other
  deriving DecidableEq

/-- What is put into a cache or comes out of it. -/
inductive CacheValue (φ : Type)
  | value (v : PyValue φ)
  | bytes (b : Bytes)
  | model (fields : List (PyKey φ × PyValue φ))

/-- `None`. -/
def CacheValue.none : CacheValue φ := .value (.atom .none)

/-- The arguments of `generate_cache_type`; `keyBuilder` says whether there is one, which then is
`key_setter`. -/
structure ResponseCache where
  type_ : ResponseType
  prefix_ : PyStr
  sep : PyStr := pyText "/"
  keyBuilder : Bool := false
  defaultExpiry : ℤ := 3600
  raiseMiss : Bool := false
  multi : Bool := false

/-- `MinioResponseCache` and `BlogResponseCache`. -/
def minioResponseCache : ResponseCache where
  type_ := .model
  prefix_ := pyText "object"
  keyBuilder := true

def blogResponseCache : ResponseCache where
  type_ := .dict
  prefix_ := pyText "blog"

/-- The keyword arguments that `key_setter` reads; of the request, its `version_id`. -/
structure CacheKwargs where
  template : Option PyStr
  request : Option (Option PyStr)

inductive CacheMethod
  | get
  | set
  | delete
  deriving DecidableEq

structure CacheCall (φ : Type) where
  method : CacheMethod
  args : List (CacheValue φ)
  kwargs : CacheKwargs

/-- How a call fails. -/
inductive CacheError
  | py (e : PyErr)
  | unicodeEncodeError
  | memCacheNoValidKeysDefinedError
  | memCachedCacheMissError
  | memCachedTypeValueError
  /-- `aiomcache.ValidationException`. -/
  | validationException
  | loads (e : JsonExc)
  | dumps (e : DumpsExc)

/-- The server. -/
abbrev MemServer := Dict Bytes Bytes

/-- The interpreter and the client. -/
structure CacheEnv (φ : Type) extends DumpsEnv φ where
  /-- How `json.loads` decodes bytes that are not UTF-8, or begin with a mark, or hold NUL. -/
  otherEncoding : Bytes → Except CacheError PyStr
  /-- `set_many` and `delete_many` of the synchronous client. -/
  setMany : MemServer → List (PyKey φ × PyValue φ) → (expire : CacheValue φ) →
    Except CacheError (CacheValue φ) × MemServer
  deleteMany : MemServer → List PyStr → Except CacheError (CacheValue φ) × MemServer

/-! ## JSON -/

mutual

/-- A value with its members of an `Enum` as objects that `json.dumps` refuses. -/
def withoutEnums : PyValue φ → PyValue φ
  | .atom a => .atom a
  | .list items => .list (itemsWithoutEnums items)
  | .tuple items => .tuple (itemsWithoutEnums items)
  | .enum _ _ => .object
  | .dict entries => .dict (entriesWithoutEnums entries)
  | .object => .object

def itemsWithoutEnums : List (PyValue φ) → List (PyValue φ)
  | [] => []
  | v :: items => withoutEnums v :: itemsWithoutEnums items

def entriesWithoutEnums : List (PyKey φ × PyValue φ) → List (PyKey φ × PyValue φ)
  | [] => []
  | (k, v) :: entries => (k, withoutEnums v) :: entriesWithoutEnums entries

end

/-- `json.dumps(value)`. -/
def plainDumps (env : CacheEnv φ) (v : PyValue φ) : Except CacheError PyStr :=
  (dumps env.toDumpsEnv env.maxDepth (withoutEnums v)).mapError .dumps

/-- `s.encode()`. -/
def encodePyStr (s : PyStr) : Except CacheError Bytes :=
  match s.encode with
  | some b => .ok b
  | none => .error .unicodeEncodeError

/-- The text `json.loads` finds in bytes. -/
def detectText (env : CacheEnv φ) (b : Bytes) : Except CacheError PyStr :=
  match decodeStr b with
  | .ok s => if 0 ∈ s ∨ s.head? = some 0xFEFF then env.otherEncoding b else .ok s
  | .error _ => env.otherEncoding b

/-- `json.loads(result)`. -/
def loadsBytes (env : CacheEnv φ) (b : Bytes) : Except CacheError (PyJson φ) := do
  let s ← detectText env b
  (loads env.toJsonEnv s).mapError .loads

/-! ## The service -/

/-- `MemCachedService.get`; there is a default only where it is not `None`. -/
def memGet (env : CacheEnv φ) (server : MemServer) (key : PyStr)
    (default : Option (CacheValue φ)) (raise : Bool) : Except CacheError (Option (PyJson φ)) := do
  let key ← encodePyStr key
  match server.get? key with
  | some b => return some (← loadsBytes env b)
  | none =>
    if default.isSome ∧ raise then throw .memCachedCacheMissError
    return none

/-- An expiry the client takes: an integer, as booleans are, that is not negative. -/
def exptime : CacheValue φ → Option ℕ
  | .value (.atom (.int n)) => if 0 ≤ n then some n.toNat else none
  | .value (.atom (.bool b)) => some b.toNat
  | _ => none

/-- `value`, where it is not bytes, as a JSON text. -/
def cacheBytes (env : CacheEnv φ) : CacheValue φ → Except CacheError Bytes
  | .bytes b => .ok b
  | .value v => do
    let t ← plainDumps env v
    encodePyStr t
  | .model _ => .error (.py .typeError)

/-- `MemCachedService.set`. -/
def memSet (env : CacheEnv φ) (server : MemServer) (key : PyStr) (value expire : CacheValue φ)
    (multi : Bool) : Except CacheError (CacheValue φ) × MemServer :=
  match encodePyStr key with
  | .error e => (.error e, server)
  | .ok key =>
    if multi then
      match value with
      | .value (.dict entries) => env.setMany server entries expire
      | _ => (.error .memCachedTypeValueError, server)
    else
      match cacheBytes env value, exptime expire with
      | .error e, _ => (.error e, server)
      | .ok _, none => (.error .validationException, server)
      | .ok data, some _ => (.ok (.value (.atom (.bool true))), server.set key data)

/-- `MemCachedService.delete`. A single key is still in its tuple when it is to be encoded. -/
def memDelete (env : CacheEnv φ) (server : MemServer) :
    List PyStr → Except CacheError (CacheValue φ) × MemServer
  | [] => (.error .memCacheNoValidKeysDefinedError, server)
  | [_] => (.error (.py .attributeError), server)
  | keys => env.deleteMany server keys

/-! ## The methods -/

namespace ResponseCache

variable (c : ResponseCache) (env : CacheEnv φ) (server : MemServer)

/-- `key_setter`, without one of its arguments or with both. -/
def keySetter (kwargs : CacheKwargs) : Except CacheError PyStr :=
  match kwargs.template, kwargs.request with
  | some template, some version =>
    .ok (template ++ pyText "/" ++ version.getD (pyText "None"))
  | _, _ => .error (.py .typeError)

/-- The key that `key_builder_decorator` hands on: that of the builder, or the first argument. -/
def buildKey (args : List (CacheValue φ)) (kwargs : CacheKwargs) : Except CacheError PyStr := do
  let key ←
    if c.keyBuilder then keySetter kwargs
    else match args with
      | [] => .error (.py .indexError)
      | .value (.atom (.str s)) :: _ => .ok s
      | _ => .error .memCacheNoValidKeysDefinedError
  return c.prefix_ ++ c.sep ++ key

/-- What `Get` makes of a document. -/
def convert (result : PyJson φ) : Except CacheError (CacheValue φ) :=
  match c.type_, result with
  | .dict, .dict es => .ok (.value (ofJson (.dict es)))
  | .dict, _ => .error (.py .typeError)
  | .typingDict, _ => .error (.py .typeError)
  | .baseModel, .dict es => .ok (.model (ofEntries es))
  | .baseModel, _ => .error (.py .typeError)
  | .model, result => .ok (.value (ofJson result))
  | .other, result => .ok (.value (ofJson result))

/-- `Get`. -/
def get (key : PyStr) : Except CacheError (CacheValue φ) := do
  match ← memGet env server key none c.raiseMiss with
  | none => return .none
  | some (.atom .none) => return .none
  | some result => c.convert result

/-- `Set`. The `mode` of `model_dump` is given by position, which it does not take. -/
def set (key : PyStr) (value expiry : CacheValue φ) :
    Except CacheError (CacheValue φ) × MemServer :=
  match c.type_, value with
  | .model, .model _ => (.error (.py .typeError), server)
  | .baseModel, .model _ => (.error (.py .typeError), server)
  | _, value => memSet env server key value expiry c.multi

/-- A call. After the key the method is given all positional arguments once more. -/
def callCache (op : CacheCall φ) : Except CacheError (CacheValue φ) × MemServer :=
  match c.buildKey op.args op.kwargs with
  | .error e => (.error e, server)
  | .ok key =>
    match op.method, op.args with
    | .get, [] => (c.get env server key, server)
    | .set, [value] => c.set env server key value (.value (.atom (.int (max 0 c.defaultExpiry))))
    | .set, [value, expiry] => c.set env server key value expiry
    | .delete, [] => memDelete env server [key]
    | _, _ => (.error (.py .typeError), server)

end ResponseCache

/-! ## The interceptor -/

/-- `ResponseCacheInterceptor`: the call before a route, if its mode is `cache`. -/
def callBefore (cacheMode : Bool) (kwargs : CacheKwargs) : Option (CacheCall φ) :=
  if cacheMode then some ⟨.get, [], kwargs⟩ else none

/-- The call it leaves for after the answer. -/
def callAfter (cacheMode : Bool) (result : CacheValue φ) (kwargs : CacheKwargs) : CacheCall φ :=
  if cacheMode then ⟨.set, [result], kwargs⟩ else ⟨.delete, [], kwargs⟩

/-! ## What a cache should do -/

/-- What an entry is for. -/
inductive EntryKey
  | pair (template : PyStr) (version : Option PyStr)
  | key (s : PyStr)

namespace ResponseCache

variable (c : ResponseCache) (env : CacheEnv φ)

instance : DecidableEq EntryKey
  | .pair t v, .pair t' v' =>
    decidable_of_iff (t = t' ∧ v = v') (by rw [EntryKey.pair.injEq])
  | .key s, .key s' => decidable_of_iff (s = s') (by rw [EntryKey.key.injEq])
  | .pair .., .key _ => isFalse nofun
  | .key _, .pair .. => isFalse nofun

/-- The entry a call is about. -/
def entryKey (op : CacheCall φ) : Option EntryKey :=
  if c.keyBuilder then
    match op.kwargs.template, op.kwargs.request with
    | some template, some version => some (.pair template version)
    | _, _ => none
  else match op.args with
    | .value (.atom (.str s)) :: _ => some (.key s)
    | _ => none

/-- The value a call of `Set` is given. -/
def givenValue (op : CacheCall φ) : CacheValue φ :=
  (op.args[if c.keyBuilder then 0 else 1]?).getD .none

/-- The value that was last set for an entry and not deleted, with the latest call first. -/
def lastSet (k : EntryKey) : List (CacheCall φ) → Option (CacheValue φ)
  | [] => none
  | op :: earlier =>
    if c.entryKey op = some k then
      match op.method with
      | .get => lastSet k earlier
      | .set => some (c.givenValue op)
      | .delete => none
    else lastSet k earlier

/-- The key under which the server keeps an entry. -/
def storeKey : EntryKey → PyStr
  | .pair template version =>
    c.prefix_ ++ c.sep ++ (template ++ pyText "/" ++ version.getD (pyText "None"))
  | .key s => c.prefix_ ++ c.sep ++ s

/-- Every call of a run returns, and `Get` gives what was last set for its entry. -/
def RunRight (server : MemServer) (history : List (CacheCall φ)) : List (CacheCall φ) → Prop
  | [] => True
  | op :: ops =>
    (∃ v, (c.callCache env server op).1 = .ok v ∧
      (op.method = .get → ∃ k, c.entryKey op = some k ∧ v = (c.lastSet k history).getD .none)) ∧
      RunRight (c.callCache env server op).2 (op :: history) ops

/-- No two entries that a run is about are kept under one key. -/
def NoneShared (ops : List (CacheCall φ)) : Prop :=
  ∀ op ∈ ops, ∀ op' ∈ ops, ∀ k k', c.entryKey op = some k → c.entryKey op' = some k' →
    c.storeKey k = c.storeKey k' → k = k'

end ResponseCache

/-! ## Values that come back -/

mutual

theorem withoutEnums_of_plain {v : PyValue φ} (h : PlainValue v) : withoutEnums v = v := by
  cases v with
  | atom a => rfl
  | list items => rw [withoutEnums, itemsWithoutEnums_of_plain h]
  | tuple items => exact h.elim
  | enum name value => exact h.elim
  | dict entries => rw [withoutEnums, entriesWithoutEnums_of_plain h]
  | object => exact h.elim

theorem itemsWithoutEnums_of_plain {items : List (PyValue φ)} (h : PlainValues items) :
    itemsWithoutEnums items = items := by
  cases items with
  | nil => rfl
  | cons v items =>
    rw [itemsWithoutEnums, withoutEnums_of_plain h.1, itemsWithoutEnums_of_plain h.2]

theorem entriesWithoutEnums_of_plain {entries : List (PyKey φ × PyValue φ)}
    (h : PlainMembers entries) : entriesWithoutEnums entries = entries := by
  cases entries with
  | nil => rfl
  | cons e entries =>
    obtain ⟨k, v⟩ := e
    rw [entriesWithoutEnums, withoutEnums_of_plain h.2.1, entriesWithoutEnums_of_plain h.2.2]

end

/-- An ASCII text is encoded, and found again in its bytes. -/
theorem detectText_ascii (env : CacheEnv φ) {t : PyStr} (h : IsAscii t) :
    ∃ b, encodePyStr t = .ok b ∧ detectText env b = .ok t := by
  have hvalid : ∀ n ∈ t, n.isValidChar := fun n hn => .inl (by have := h n hn; omega)
  obtain ⟨text, htext⟩ := Option.isSome_iff_exists.mp (isSome_text? hvalid)
  have hencode : t.encode = some (encodeUtf8 text) := by rw [PyStr.encode, htext]; rfl
  refine ⟨encodeUtf8 text, by rw [encodePyStr, hencode], ?_⟩
  have hplain : ¬ (0 ∈ t ∨ t.head? = some 0xFEFF) := by
    rintro (hzero | hmark)
    · have := h 0 hzero
      omega
    · have := h _ (List.mem_of_mem_head? hmark)
      omega
  rw [detectText, decodeStr_encode hencode]
  exact if_neg hplain

/-- A value that is written and comes back as it was, and that `Get` does not fail on. -/
structure CacheKept (c : ResponseCache) (env : CacheEnv φ) (v : PyValue φ) : Prop where
  valid : v.Valid
  plain : PlainValue v
  written : (dumps env.toDumpsEnv env.maxDepth v).isOk
  fits : v = .atom .none ∨ c.type_ = .model ∨ c.type_ = .other ∨
    (c.type_ = .dict ∧ ∃ entries, v = .dict entries)

/-- What the server keeps of such a value, and what is read of it. -/
theorem CacheKept.cacheBytes {c : ResponseCache} {env : CacheEnv φ} {v : PyValue φ}
    (h : CacheKept c env v) : ∃ b j, cacheBytes env (.value v) = .ok b ∧ loadsBytes env b = .ok j ∧
      ofJson j = v := by
  obtain ⟨t, ht⟩ : ∃ t, dumps env.toDumpsEnv env.maxDepth v = .ok t := by
    have hwritten := h.written
    cases hdumps : dumps env.toDumpsEnv env.maxDepth v with
    | error e => rw [hdumps] at hwritten; cases hwritten
    | ok t => exact ⟨t, rfl⟩
  obtain ⟨b, hb, hdetect⟩ := detectText_ascii env (isAscii_dumps env.toDumpsEnv v ht)
  refine ⟨b, decoded env.toDumpsEnv v, ?_, ?_, (ofJson_decoded_iff env.toDumpsEnv v h.valid).mpr
    h.plain⟩
  · have hplain : plainDumps env v = .ok t := by
      rw [plainDumps, withoutEnums_of_plain h.plain, ht]
      rfl
    show (plainDumps env v >>= fun t => encodePyStr t) = .ok b
    rw [hplain]
    exact hb
  · unfold loadsBytes
    rw [hdetect]
    show (loads env.toJsonEnv t).mapError CacheError.loads = _
    rw [loads_dumps env.toDumpsEnv h.valid ht]
    rfl

theorem ofJson_eq_none {j : PyJson φ} (h : ofJson j = .atom .none) : j = .atom .none := by
  cases j with
  | atom a => exact congrArg NestedDict.atom (PyValue.atom.inj h)
  | list items => cases h
  | dict es => cases h

/-- A value other than `None` is made into itself. -/
theorem CacheKept.convert {c : ResponseCache} {env : CacheEnv φ} {v : PyValue φ} {j : PyJson φ}
    (h : CacheKept c env v) (hj : ofJson j = v) (hnone : j ≠ .atom .none) :
    c.convert j = .ok (.value v) := by
  subst hj
  rcases h.fits with hv | htype | htype | ⟨htype, entries, hdict⟩
  · exact absurd (ofJson_eq_none hv) hnone
  · simp only [ResponseCache.convert, htype]
  · simp only [ResponseCache.convert, htype]
  · cases j with
    | atom a => cases hdict
    | list items => cases hdict
    | dict es => simp only [ResponseCache.convert, htype]

/-! ## Keys -/

/-- A version that neither has the separator nor is written like the absence of one. -/
def PlainVersion : Option PyStr → Prop
  | none => True
  | some version => ord '/' ∉ version ∧ version ≠ pyText "None"

theorem append_cons_cancel {α : Type} {x : α} {s s' t t' : List α} (ht : x ∉ t) (ht' : x ∉ t')
    (h : s ++ x :: t = s' ++ x :: t') : s = s' ∧ t = t' := by
  rcases List.append_eq_append_iff.mp h with ⟨a, rfl, hrest⟩ | ⟨a, rfl, hrest⟩
  · cases a with
    | nil => exact ⟨(List.append_nil s).symm, (List.cons.inj hrest).2⟩
    | cons y a =>
      obtain ⟨-, rfl⟩ := List.cons.inj hrest
      exact absurd (List.mem_append_right a List.mem_cons_self) ht
  · cases a with
    | nil => exact ⟨List.append_nil s', (List.cons.inj hrest).2.symm⟩
    | cons y a =>
      obtain ⟨-, rfl⟩ := List.cons.inj hrest
      exact absurd (List.mem_append_right a List.mem_cons_self) ht'

theorem PlainVersion.not_mem {version : Option PyStr} (h : PlainVersion version) :
    ord '/' ∉ version.getD (pyText "None") := by
  cases version with
  | none => decide
  | some version => exact h.1

/-- Two pairs with such versions are kept under different keys. -/
theorem storeKey_injective {c : ResponseCache} {t t' : PyStr} {v v' : Option PyStr}
    (hv : PlainVersion v) (hv' : PlainVersion v')
    (h : c.storeKey (.pair t v) = c.storeKey (.pair t' v')) : t = t' ∧ v = v' := by
  have hrest := List.append_cancel_left h
  rw [List.append_assoc, List.append_assoc] at hrest
  obtain ⟨rfl, hversion⟩ := append_cons_cancel hv.not_mem hv'.not_mem hrest
  refine ⟨rfl, ?_⟩
  cases v with
  | none =>
    cases v' with
    | none => rfl
    | some version => exact absurd hversion.symm hv'.2
  | some version =>
    cases v' with
    | none => exact absurd hversion hv.2
    | some version' => exact congrArg some hversion

theorem encode_injective {s s' : PyStr} {b : Bytes} (h : s.encode = some b)
    (h' : s'.encode = some b) : s = s' :=
  Except.ok.inj ((decodeStr_encode h).symm.trans (decodeStr_encode h'))

/-! ## Runs -/

/-- The positional arguments of a call that does what it should. -/
def ArgsMeet (c : ResponseCache) (env : CacheEnv φ) : CacheMethod → List (CacheValue φ) → Prop
  | .get, args => args = []
  | .set, args => c.multi = false ∧ ∃ v, CacheKept c env v ∧
      (args = [.value v] ∨ ∃ expiry, args = [.value v, expiry] ∧ (exptime expiry).isSome)
  | .delete, _ => False

/-- A call of `Get` or `Set` by keyword arguments, on a class with a key builder. -/
structure CacheCallMeets (c : ResponseCache) (env : CacheEnv φ) (op : CacheCall φ) : Prop where
  keyBuilder : c.keyBuilder = true
  key : ∃ template version, op.kwargs = ⟨some template, some version⟩ ∧ PlainVersion version ∧
    (c.storeKey (.pair template version)).encode.isSome
  args : ArgsMeet c env op.method op.args

/-- What the server keeps for an entry, by the value last set for it. -/
def Mirrored (c : ResponseCache) (env : CacheEnv φ) (stored : Option Bytes) :
    Option (CacheValue φ) → Prop
  | none => stored = none
  | some x => ∃ v b, x = .value v ∧ CacheKept c env v ∧ cacheBytes env x = .ok b ∧ stored = some b

/-- The server keeps what was last set. -/
def Mirrors (c : ResponseCache) (env : CacheEnv φ) (server : MemServer)
    (history : List (CacheCall φ)) : Prop :=
  ∀ template version key, PlainVersion version →
    (c.storeKey (.pair template version)).encode = some key →
    Mirrored c env (server.get? key) (c.lastSet (.pair template version) history)

section Step

variable {c : ResponseCache} {env : CacheEnv φ} {server : MemServer}
  {history : List (CacheCall φ)} {template : PyStr} {version : Option PyStr} {key : Bytes}

theorem encodePyStr_eq {s : PyStr} (h : s.encode = some key) : encodePyStr s = .ok key := by
  rw [encodePyStr, h]

/-- `Get` of an entry. -/
theorem get_mirrored {s : PyStr} {last : Option (CacheValue φ)} (hkey : s.encode = some key)
    (h : Mirrored c env (server.get? key) last) : c.get env server s = .ok (last.getD .none) := by
  cases last with
  | none =>
    have hmem : memGet env server s none c.raiseMiss = .ok none := by
      unfold memGet
      rw [encodePyStr_eq hkey]
      show (match server.get? key with | some _ => _ | none => _) = _
      rw [show server.get? key = none from h]
      rfl
    unfold ResponseCache.get
    rw [hmem]
    rfl
  | some x =>
    obtain ⟨v, b, rfl, hkept, hbytes, hstored⟩ := h
    obtain ⟨b', j, hb', hloads, hj⟩ := hkept.cacheBytes
    cases hbytes.symm.trans hb'
    have hmem : memGet env server s none c.raiseMiss = .ok (some j) := by
      unfold memGet
      rw [encodePyStr_eq hkey]
      show (match server.get? key with | some _ => _ | none => _) = _
      rw [hstored]
      show (loadsBytes env b >>= fun j => .ok (some j)) = _
      rw [hloads]
      rfl
    unfold ResponseCache.get
    rw [hmem]
    by_cases hnone : j = .atom .none
    · subst hnone
      exact congrArg (fun v => Except.ok (CacheValue.value v)) hj
    · show (match some j with
        | none => _
        | some (.atom .none) => _
        | some result => c.convert result) = _
      split
      case h_1 heq => cases heq
      case h_2 heq => exact absurd (Option.some.inj heq) hnone
      case h_3 heq =>
        cases heq
        exact hkept.convert hj hnone

variable (server) in
/-- `Set` of a value that is kept. -/
theorem set_kept {s : PyStr} {v : PyValue φ} {expiry : CacheValue φ} (hkey : s.encode = some key)
    (hkept : CacheKept c env v) (hmulti : c.multi = false) (hexpiry : (exptime expiry).isSome) :
    ∃ b, cacheBytes env (.value v) = .ok b ∧
      c.set env server s (.value v) expiry =
        (.ok (.value (.atom (.bool true))), server.set key b) := by
  obtain ⟨b, -, hb, -, -⟩ := hkept.cacheBytes
  obtain ⟨n, hn⟩ := Option.isSome_iff_exists.mp hexpiry
  refine ⟨b, hb, ?_⟩
  have hmem : memSet env server s (.value v) expiry c.multi =
      (.ok (.value (.atom (.bool true))), server.set key b) := by
    unfold memSet
    rw [encodePyStr_eq hkey, hmulti, hb, hn]
    rfl
  unfold ResponseCache.set
  split
  case h_1 => contradiction
  case h_2 => contradiction
  case h_3 => exact hmem

/-- The key of a call with both keyword arguments. -/
theorem buildKey_pair (hbuilder : c.keyBuilder = true) (args : List (CacheValue φ)) :
    c.buildKey args ⟨some template, some version⟩ = .ok (c.storeKey (.pair template version)) := by
  unfold ResponseCache.buildKey
  rw [if_pos hbuilder]
  rfl

/-- The server after a value was set for an entry. -/
theorem Mirrors.set (h : Mirrors c env server history) {op : CacheCall φ} {v : PyValue φ}
    {b : Bytes}
    (hop : c.entryKey op = some (.pair template version)) (hmethod : op.method = .set)
    (hgiven : c.givenValue op = .value v) (hversion : PlainVersion version)
    (hkey : (c.storeKey (.pair template version)).encode = some key) (hkept : CacheKept c env v)
    (hbytes : cacheBytes env (.value v) = .ok b) :
    Mirrors c env (server.set key b) (op :: history) := by
  intro template' version' key' hversion' hkey'
  unfold ResponseCache.lastSet
  rw [hop]
  by_cases hsame : some (EntryKey.pair template version) = some (.pair template' version')
  · rw [if_pos hsame, hmethod, hgiven]
    cases hsame
    cases hkey.symm.trans hkey'
    exact ⟨v, b, rfl, hkept, hbytes, Dict.get?_set_self _ _ _⟩
  · rw [if_neg hsame]
    have hne : key' ≠ key := by
      rintro rfl
      obtain ⟨rfl, rfl⟩ := storeKey_injective hversion hversion' (encode_injective hkey hkey')
      exact hsame rfl
    rw [Dict.get?_set_ne _ _ hne]
    exact h template' version' key' hversion' hkey'

theorem Mirrors.get (h : Mirrors c env server history) {op : CacheCall φ} (hop : op.method = .get) :
    Mirrors c env server (op :: history) := by
  intro template' version' key' hversion' hkey'
  unfold ResponseCache.lastSet
  rw [hop, ite_self]
  exact h template' version' key' hversion' hkey'

/-- A call that meets the condition. -/
theorem callCache_meets (h : Mirrors c env server history) {op : CacheCall φ}
    (hop : CacheCallMeets c env op) :
    (∃ v, (c.callCache env server op).1 = .ok v ∧
      (op.method = .get → ∃ k, c.entryKey op = some k ∧ v = (c.lastSet k history).getD .none)) ∧
      Mirrors c env (c.callCache env server op).2 (op :: history) := by
  obtain ⟨method, args, kwargs⟩ := op
  obtain ⟨hbuilder, ⟨template, version, hkwargs, hversion, hencode⟩, hargs⟩ := hop
  dsimp only at hkwargs hargs
  subst hkwargs
  obtain ⟨key, hkey⟩ := Option.isSome_iff_exists.mp hencode
  have hentry : c.entryKey (⟨method, args, ⟨some template, some version⟩⟩ : CacheCall φ) =
      some (.pair template version) := by
    rw [ResponseCache.entryKey, if_pos hbuilder]
  unfold ResponseCache.callCache
  rw [buildKey_pair hbuilder]
  cases method with
  | delete => exact hargs.elim
  | get =>
    obtain rfl : args = [] := hargs
    have hget := get_mirrored hkey (h template version key hversion hkey)
    exact ⟨⟨_, hget, fun _ => ⟨_, hentry, rfl⟩⟩, h.get rfl⟩
  | set =>
    obtain ⟨hmulti, v, hkept, hargs⟩ := hargs
    have hgiven : ∀ rest, c.givenValue
        ⟨.set, .value v :: rest, ⟨some template, some version⟩⟩ = .value v := by
      intro rest
      unfold ResponseCache.givenValue
      rw [if_pos hbuilder]
      rfl
    rcases hargs with rfl | ⟨expiry, rfl, hexpiry⟩
    · have hdefault :
          (exptime (.value (.atom (.int (max 0 c.defaultExpiry))) : CacheValue φ)).isSome := by
        rw [exptime, if_pos (le_max_left 0 _)]
        rfl
      obtain ⟨b, hbytes, hset⟩ := set_kept server hkey hkept hmulti hdefault
      dsimp only
      rw [hset]
      exact ⟨⟨_, rfl, nofun⟩, h.set hentry rfl (hgiven []) hversion hkey hkept hbytes⟩
    · obtain ⟨b, hbytes, hset⟩ := set_kept server hkey hkept hmulti hexpiry
      dsimp only
      rw [hset]
      exact ⟨⟨_, rfl, nofun⟩, h.set hentry rfl (hgiven [expiry]) hversion hkey hkept hbytes⟩

/-- A run of such calls, from a server that keeps what was set before. -/
theorem runRight_of_mirrors {ops : List (CacheCall φ)} (hops : ∀ op ∈ ops, CacheCallMeets c env op)
    (h : Mirrors c env server history) : c.RunRight env server history ops := by
  induction ops generalizing server history with
  | nil => trivial
  | cons op ops ih =>
    obtain ⟨hreturns, hnext⟩ := callCache_meets h (hops op List.mem_cons_self)
    exact ⟨hreturns, ih (fun op' hop' => hops op' (List.mem_cons_of_mem _ hop')) hnext⟩

end Step

/-- In a run of such calls no two entries are kept under one key. -/
theorem noneShared_of_meets {c : ResponseCache} {env : CacheEnv φ} {ops : List (CacheCall φ)}
    (hops : ∀ op ∈ ops, CacheCallMeets c env op) : c.NoneShared ops := by
  intro op hop op' hop' k k' hk hk' hsame
  obtain ⟨hbuilder, ⟨template, version, hkwargs, hversion, -⟩, -⟩ := hops op hop
  obtain ⟨-, ⟨template', version', hkwargs', hversion', -⟩, -⟩ := hops op' hop'
  rw [ResponseCache.entryKey, if_pos hbuilder, hkwargs] at hk
  rw [ResponseCache.entryKey, if_pos hbuilder, hkwargs'] at hk'
  cases hk
  cases hk'
  obtain ⟨rfl, rfl⟩ := storeKey_injective hversion hversion' hsame
  rfl

/-- **A cache gives what was last put into it**, in every run of calls of `Get` and `Set` by keyword
arguments on a class with a key builder, with plain versions and values that come back. -/
theorem cacheRun_right (c : ResponseCache) (env : CacheEnv φ) (ops : List (CacheCall φ))
    (hops : ∀ op ∈ ops, CacheCallMeets c env op) :
    c.RunRight env .empty [] ops ∧ c.NoneShared ops :=
  ⟨runRight_of_mirrors hops fun _ _ _ _ _ => Dict.get?_empty _, noneShared_of_meets hops⟩

/-- The calls of the interceptor in the mode `cache` meet the condition. -/
theorem interceptor_meets {c : ResponseCache} {env : CacheEnv φ} {kwargs : CacheKwargs}
    {v : PyValue φ} (hbuilder : c.keyBuilder = true) (hmulti : c.multi = false)
    (hkey : ∃ template version, kwargs = ⟨some template, some version⟩ ∧ PlainVersion version ∧
      (c.storeKey (.pair template version)).encode.isSome) (hkept : CacheKept c env v) :
    (∀ op ∈ callBefore true kwargs, CacheCallMeets c env op) ∧
      CacheCallMeets c env (callAfter true (.value v) kwargs) := by
  constructor
  · intro op hop
    cases hop
    exact ⟨hbuilder, hkey, rfl⟩
  · exact ⟨hbuilder, hkey, hmulti, v, hkept, .inl rfl⟩

/-- `Delete` never returns, and neither does `Get` without a key builder. -/
theorem callCache_fails (c : ResponseCache) (env : CacheEnv φ) (server : MemServer)
    {op : CacheCall φ}
    (hop : op.method = .delete ∨ (c.keyBuilder = false ∧ op.method = .get)) :
    ∃ e, (c.callCache env server op).1 = .error e := by
  obtain ⟨method, args, kwargs⟩ := op
  unfold ResponseCache.callCache
  cases hkey : c.buildKey args kwargs with
  | error e => exact ⟨e, rfl⟩
  | ok key =>
    rcases hop with hmethod | ⟨hbuilder, hmethod⟩ <;> obtain rfl : method = _ := hmethod
    · cases args with
      | nil => exact ⟨_, rfl⟩
      | cons a args => exact ⟨_, rfl⟩
    · cases args with
      | nil =>
        rw [ResponseCache.buildKey, hbuilder] at hkey
        cases hkey
      | cons a args => exact ⟨_, rfl⟩

/-- The interpreter with one float, and a client that stores nothing in bulk. -/
def zeroCacheEnv : CacheEnv Unit where
  toDumpsEnv := zeroEnv
  otherEncoding _ := .error (.py .unicodeDecodeError)
  setMany server _ _ := (.ok (.value (.list [])), server)
  deleteMany server _ := (.ok (.value (.atom (.bool true))), server)

/-- The template of a page, and a version of it. -/
def pageKwargs (version : Option PyStr) : CacheKwargs :=
  ⟨some (pyText "email/a.html"), some version⟩

/-- What the route answers about it. -/
def pageAnswer : PyValue Unit :=
  .dict [(.str (pyText "content"), .atom (.str (pyText "YQ==")))]

theorem pageAnswer_kept : CacheKept minioResponseCache zeroCacheEnv pageAnswer where
  valid := ⟨show IsText _ by unfold IsText; decide, nofun, show IsText _ by unfold IsText; decide,
    trivial⟩
  plain := ⟨⟨_, rfl, show NoPairs _ by unfold NoPairs; decide⟩,
    show NoPairs _ by unfold NoPairs; decide, trivial⟩
  written := rfl
  fits := .inr (.inl rfl)

/-- The page is put into the cache and read, and another version of it is not there. -/
theorem cacheRun_right_page :
    minioResponseCache.RunRight zeroCacheEnv .empty []
      [⟨.set, [.value pageAnswer], pageKwargs none⟩, ⟨.get, [], pageKwargs none⟩,
        ⟨.get, [], pageKwargs (some (pyText "v1"))⟩] ∧
    minioResponseCache.NoneShared
      ([⟨.set, [.value pageAnswer], pageKwargs none⟩, ⟨.get, [], pageKwargs none⟩,
        ⟨.get, [], pageKwargs (some (pyText "v1"))⟩] : List (CacheCall Unit)) := by
  have hnone : (minioResponseCache.storeKey
      (.pair (pyText "email/a.html") none)).encode.isSome := by decide
  have hsome : (minioResponseCache.storeKey
      (.pair (pyText "email/a.html") (some (pyText "v1")))).encode.isSome := by decide
  refine cacheRun_right minioResponseCache zeroCacheEnv _ ?_
  intro op hop
  simp only [List.mem_cons, List.not_mem_nil, or_false] at hop
  rcases hop with rfl | rfl | rfl
  · exact ⟨rfl, ⟨_, _, rfl, trivial, hnone⟩, rfl, _, pageAnswer_kept, .inl rfl⟩
  · exact ⟨rfl, ⟨_, _, rfl, trivial, hnone⟩, rfl⟩
  · exact ⟨rfl, ⟨_, _, rfl, ⟨by decide, by decide⟩, hsome⟩, rfl⟩

/-- Deleting it does not return. -/
theorem not_cacheRun_right_delete :
    ¬ (minioResponseCache.RunRight zeroCacheEnv .empty []
        [⟨.set, [.value pageAnswer], pageKwargs none⟩, ⟨.delete, [], pageKwargs none⟩] ∧
      minioResponseCache.NoneShared
        ([⟨.set, [.value pageAnswer], pageKwargs none⟩, ⟨.delete, [], pageKwargs none⟩] :
          List (CacheCall Unit))) := by
  rintro ⟨⟨-, ⟨v, hreturns, -⟩, -⟩, -⟩
  cases hreturns

end Notifyr
