import Notifyr.Runtime.JsonLoads
import Notifyr.Runtime.Python
import Notifyr.Theory.DictPath

/-!
# The global variables of the assets

`PointerIterator` (`app/utils/helper.py`) over dictionaries, and the routes of
`GlobalAssetVariableRessource` (`app/ressources/properties_ressource.py`) that read, delete and
upsert a global variable at a path of keys joined by `@`.

- `PointerIterator.ptr`: the walk to the dictionary that should hold the last key.
- `readGlobal`, `deleteGlobal`, `upsertGlobal`: the routes, on the dictionary
  `assetService.globals.data`. `save_globals` is a coroutine that is not awaited, so that the
  routes change this dictionary and nothing else.
- `GlobalRight`: what a request at a path should answer, and leave in the dictionary.
- `globalRight_iff`: the requests that are right.

The walk ends early at a key that leads to no dictionary, and the pointer it gives then is one
into the last dictionary it came to, with the last key of the path.
-/

namespace Notifyr

open Theory NestedDict

variable {φ : Type}

/-- The dictionary of the global variables. -/
abbrev Globals (φ : Type) := Entries PyStr (PyAtom φ)

/-! ## Pointers -/

/-- `PointerIterator.Pointer`, of `_type` `dict`: the dictionary it points to is given by its place
in the whole. -/
structure Pointer where
  ptr : List PyStr
  dataKey : PyStr

namespace Pointer

/-- Where the entry of the pointer is. -/
def place (p : Pointer) : List PyStr := p.ptr ++ [p.dataKey]

/-- `get_val`: the flag and the value are one option. -/
def getVal (p : Pointer) (data : Globals φ) : Option (PyJson φ) := get? (.dict data) p.place

/-- `set_val`. -/
def setVal (p : Pointer) (data : Globals φ) (newVal : PyJson φ) : Globals φ :=
  setAt data p.place newVal

/-- `del_val`. -/
def delVal (p : Pointer) (data : Globals φ) : Globals φ :=
  match p.getVal data with
  | none => data
  | some _ => removeAt data p.place

end Pointer

/-- `PointerIterator(var, split, dict)`. -/
structure PointerIterator where
  var : PyStr
  split : PyStr

namespace PointerIterator

/-- The keys of the path. -/
def ptrIterator (it : PointerIterator) : List PyStr := PyStr.split it.split it.var

theorem ptrIterator_ne_nil (it : PointerIterator) : it.ptrIterator ≠ [] := split_ne_nil _ _

/-- `data_key`. -/
def dataKey (it : PointerIterator) : PyStr := it.ptrIterator.getLast it.ptrIterator_ne_nil

/-- `ptr`: the walk stops at the first key that leads to no dictionary. -/
def ptr (it : PointerIterator) (value : Globals φ) : Pointer :=
  ⟨walked value it.ptrIterator.dropLast, it.dataKey⟩

end PointerIterator

/-! ## Routes -/

/-- `PARAMS_KEY_SEPARATOR`. -/
def paramsKeySeparator : PyStr := pyText "@"

/-- `GlobalPointerIteratorPipe.pipe`. -/
def globalPointerIteratorPipe (globalIter : Option PyStr) : Option PointerIterator :=
  globalIter.map fun var => ⟨var, paramsKeySeparator⟩

/-- How a route fails. -/
inductive GlobalErr
  | globalKeyDoesNotExistsError (sep key : PyStr)
  | py (e : PyErr)

/-- What a route returns: all variables, one value, or a status code alone. -/
inductive GlobalResponse (φ : Type)
  | data (data : Globals φ)
  | value (val : PyJson φ)
  | created
  | accepted

/-- A response, or an error, and the variables afterwards. -/
abbrev GlobalOutcome (φ : Type) := Except GlobalErr (GlobalResponse φ) × Globals φ

/-- `read_global`. -/
def readGlobal (globalIter : Option PointerIterator) (data : Globals φ) : GlobalOutcome φ :=
  match globalIter with
  | none => (.ok (.data data), data)
  | some it =>
    match (it.ptr data).getVal data with
    | none => (.error (.globalKeyDoesNotExistsError paramsKeySeparator it.var), data)
    | some val => (.ok (.value val), data)

/-- `delete_global`. -/
def deleteGlobal (globalIter : Option PointerIterator) (data : Globals φ) : GlobalOutcome φ :=
  match globalIter with
  -- `val` is not bound
  | none => (.error (.py .unboundLocalError), data)
  | some it =>
    match (it.ptr data).getVal data with
    | none => (.error (.globalKeyDoesNotExistsError paramsKeySeparator it.var), data)
    | some val => (.ok (.value val), (it.ptr data).delVal data)

/-- What `ptr` is in `upsert_global`: the dictionary itself, or a pointer into it. -/
inductive UpsertTarget
  | globals
  | pointer (p : Pointer)

namespace UpsertTarget

/-- `ptr.set_val(value)`; a dictionary has no such method. -/
def setVal (t : UpsertTarget) (data : Globals φ) (value : PyJson φ) : Py (Globals φ) :=
  match t with
  | .globals => .error .attributeError
  | .pointer p => .ok (p.setVal data value)

/-- `k in ptr`; a pointer is no container. -/
def contains (t : UpsertTarget) (data : Globals φ) (k : PyStr) : Py Bool :=
  match t with
  | .globals => .ok (get? (.dict data) [k]).isSome
  | .pointer _ => .error .typeError

/-- `ptr[k] = v`. -/
def setItem (t : UpsertTarget) (data : Globals φ) (k : PyStr) (v : PyJson φ) : Py (Globals φ) :=
  match t with
  | .globals => .ok (insertKey data k v)
  | .pointer _ => .error .typeError

/-- The loop over the items of the value, which leaves the keys there are. -/
def addItems (t : UpsertTarget) : Globals φ → Globals φ → Py Unit × Globals φ
  | [], data => (.ok (), data)
  | (k, v) :: items, data =>
    match t.contains data k with
    | .error e => (.error e, data)
    | .ok true => addItems t items data
    | .ok false =>
      match t.setItem data k v with
      | .error e => (.error e, data)
      | .ok data => addItems t items data

end UpsertTarget

/-- `upsert_global`. -/
def upsertGlobal (globalIter : Option PointerIterator) (value : Globals φ) (force : Bool)
    (data : Globals φ) : GlobalOutcome φ :=
  let target : UpsertTarget := match globalIter with
    | none => .globals
    | some it => .pointer (it.ptr data)
  if force then
    match target.setVal data (.dict value) with
    | .error e => (.error (.py e), data)
    | .ok data => (.ok .accepted, data)
  else
    match target.addItems value data with
    | (.error e, data) => (.error (.py e), data)
    | (.ok (), data) => (.ok .created, data)

/-- The requests. -/
inductive GlobalRequest (φ : Type)
  | read
  | delete
  | upsert (value : Globals φ) (force : Bool)

/-- A request with its `key`. -/
def serveGlobal (key : Option PyStr) (request : GlobalRequest φ) (data : Globals φ) :
    GlobalOutcome φ :=
  match request with
  | .read => readGlobal (globalPointerIteratorPipe key) data
  | .delete => deleteGlobal (globalPointerIteratorPipe key) data
  | .upsert value force => upsertGlobal (globalPointerIteratorPipe key) value force data

/-! ## What the routes should do -/

/-- A value is answered exactly if the path leads to it. -/
def Answers (path : List PyStr) (data : Globals φ) (result : Except GlobalErr (GlobalResponse φ)) :
    Prop :=
  ∀ v, result = .ok (.value v) ↔ get? (.dict data) path = some v

/-- A path is taken out, and nothing else. -/
structure Removed (path : List PyStr) (data data' : Globals φ) : Prop where
  gone : get? (.dict data') path = none
  only : OnlyAt path data data'

/-- What is at a path after adding the keys of a value that are missing there. -/
def AddsMissing (value : Globals φ) : Option (PyJson φ) → Option (PyJson φ) → Prop
  | none, new => new = some (.dict value)
  | some (.dict inner), new =>
    ∃ merged, new = some (.dict merged) ∧
      ∀ k, get? (.dict merged) [k] = (get? (.dict inner) [k]).or (get? (.dict value) [k])
  | old, new => new = old

/-- A value is put at a path, and nothing is changed elsewhere. -/
structure Upserted (path : List PyStr) (value : Globals φ) (force : Bool) (data : Globals φ)
    (outcome : GlobalOutcome φ) : Prop where
  returns : outcome.1.isOk
  forced : force = true → get? (.dict outcome.2) path = some (.dict value)
  unforced : force = false →
    AddsMissing value (get? (.dict data) path) (get? (.dict outcome.2) path)
  only : OnlyAt path data outcome.2

/-- What should become of a request at a path. A request raises and changes nothing where a key on
the way is missing. -/
def GlobalRight (path : List PyStr) (request : GlobalRequest φ) (data : Globals φ)
    (outcome : GlobalOutcome φ) : Prop :=
  match request with
  | .read => Answers path data outcome.1 ∧ outcome.2 = data
  | .delete =>
    Answers path data outcome.1 ∧
      ((get? (.dict data) path).isSome → Removed path data outcome.2) ∧
      (get? (.dict data) path = none → outcome.2 = data)
  | .upsert value force =>
    (IsDictAt data path.dropLast → Upserted path value force data outcome) ∧
      (¬ IsDictAt data path.dropLast → ¬ outcome.1.isOk ∧ outcome.2 = data)

/-- The requests that are: to read and to delete, unless the walk ends early in a dictionary that
happens to have the last key; to force a value in, where no key is missing on the way; and without
force, where a value has nothing to add, or a key is missing on the way and it has. -/
def GlobalFits (path : List PyStr) (request : GlobalRequest φ) (data : Globals φ) : Prop :=
  match request with
  | .read | .delete =>
    IsDictAt data path.dropLast ∨
      ∀ k ∈ path.getLast?, get? (.dict data) (walked data path.dropLast ++ [k]) = none
  | .upsert _ true => IsDictAt data path.dropLast
  | .upsert value false =>
    (IsDictAt data path.dropLast → value = [] ∧ (get? (.dict data) path).isSome) ∧
      (¬ IsDictAt data path.dropLast → value ≠ [])

/-! ## Where the pointer leads -/

section Pointer

variable (var : PyStr) (data : Globals φ)

/-- The keys of a path. -/
def globalPath : List PyStr := PyStr.split paramsKeySeparator var

/-- The pointer the routes work with. -/
def globalPtr : Pointer := PointerIterator.ptr ⟨var, paramsKeySeparator⟩ data

/-- The last key. -/
def lastKey : PyStr := (globalPath var).getLast (split_ne_nil _ _)

theorem globalPath_eq : (globalPath var).dropLast ++ [lastKey var] = globalPath var :=
  List.dropLast_append_getLast _

theorem place_globalPtr :
    (globalPtr var data).place = walked data (globalPath var).dropLast ++ [lastKey var] := rfl

theorem getLast?_globalPath : (globalPath var).getLast? = some (lastKey var) :=
  List.getLast?_eq_some_getLast _

/-- Where no key is missing on the way, the pointer leads to the path. -/
theorem place_of_isDictAt (h : IsDictAt data (globalPath var).dropLast) :
    (globalPtr var data).place = globalPath var := by
  rw [place_globalPtr, (walked_eq_iff data _).mpr h, globalPath_eq]

/-- Where one is, no value is at the path. -/
theorem get?_of_not_isDictAt (h : ¬ IsDictAt data (globalPath var).dropLast) :
    get? (.dict data) (globalPath var) = none := by
  rw [← globalPath_eq]
  cases hget : get? (.dict data) ((globalPath var).dropLast ++ [lastKey var]) with
  | none => rfl
  | some t => exact absurd (isDictAt_of_get? hget) h

/-- The pointer reads what is at the path exactly if no key is missing on the way, or the last one
is missing where the walk ends. -/
theorem getVal_eq_iff :
    (globalPtr var data).getVal data = get? (.dict data) (globalPath var) ↔
      IsDictAt data (globalPath var).dropLast ∨
        ∀ k ∈ (globalPath var).getLast?,
          get? (.dict data) (walked data (globalPath var).dropLast ++ [k]) = none := by
  rw [getLast?_globalPath]
  unfold Pointer.getVal
  by_cases h : IsDictAt data (globalPath var).dropLast
  · rw [place_of_isDictAt var data h]
    exact iff_of_true rfl (.inl h)
  · rw [get?_of_not_isDictAt var data h, place_globalPtr]
    simp [h]

end Pointer

/-! ## The routes, one by one -/

section Routes

variable (var : PyStr) (data : Globals φ)

/-- The value that was read, or the error of the routes. -/
def answerOf : Option (PyJson φ) → Except GlobalErr (GlobalResponse φ)
  | none => .error (.globalKeyDoesNotExistsError paramsKeySeparator var)
  | some val => .ok (.value val)

theorem readGlobal_eq :
    serveGlobal (some var) .read data =
      (answerOf var ((globalPtr var data).getVal data), data) := by
  show readGlobal (some ⟨var, paramsKeySeparator⟩) data = _
  cases h : (globalPtr var data).getVal data with
  | none =>
    unfold globalPtr at h
    simp only [readGlobal, h, answerOf]
  | some val =>
    unfold globalPtr at h
    simp only [readGlobal, h, answerOf]

theorem deleteGlobal_eq :
    serveGlobal (some var) .delete data =
      (answerOf var ((globalPtr var data).getVal data), (globalPtr var data).delVal data) := by
  show deleteGlobal (some ⟨var, paramsKeySeparator⟩) data = _
  cases h : (globalPtr var data).getVal data with
  | none =>
    unfold globalPtr at h ⊢
    simp only [deleteGlobal, Pointer.delVal, h, answerOf]
  | some val =>
    unfold globalPtr at h ⊢
    simp only [deleteGlobal, Pointer.delVal, h, answerOf]

theorem forceGlobal_eq (value : Globals φ) :
    serveGlobal (some var) (.upsert value true) data =
      (.ok .accepted, (globalPtr var data).setVal data (.dict value)) := rfl

/-- Without force, an upsert at a path asks a pointer for its keys, unless there are none to ask
for. -/
theorem upsertGlobal_eq (value : Globals φ) :
    serveGlobal (some var) (.upsert value false) data =
      (if value = [] then .ok .created else .error (.py .typeError), data) := by
  cases value with
  | nil => rfl
  | cons e value => rfl

/-- To read and to delete answer what the pointer reads. -/
theorem answers_iff :
    Answers (globalPath var) data (answerOf var ((globalPtr var data).getVal data)) ↔
      (globalPtr var data).getVal data = get? (.dict data) (globalPath var) := by
  have hanswer : ∀ (o : Option (PyJson φ)) v, answerOf var o = .ok (.value v) ↔ o = some v := by
    intro o v
    cases o with
    | none => simp [answerOf]
    | some val => simp [answerOf]
  unfold Answers
  simp only [hanswer]
  exact ⟨fun h => Option.ext h, fun h v => by rw [h]⟩

theorem delVal_of_some {v : PyJson φ} (h : get? (.dict data) (globalPath var) = some v) :
    Removed (globalPath var) data ((globalPtr var data).delVal data) := by
  have hparent : IsDictAt data (globalPath var).dropLast := by
    rw [← globalPath_eq] at h
    exact isDictAt_of_get? h
  have hplace := place_of_isDictAt var data hparent
  have hdel : (globalPtr var data).delVal data = removeAt data (globalPath var) := by
    unfold Pointer.delVal Pointer.getVal
    rw [hplace, h]
  rw [hdel]
  refine ⟨get?_removeAt_self data (split_ne_nil _ _), ?_⟩
  have honly := onlyAt_removeAt hparent (lastKey var)
  rwa [globalPath_eq] at honly

theorem delVal_of_none (h : (globalPtr var data).getVal data = none) :
    (globalPtr var data).delVal data = data := by
  unfold Pointer.delVal
  rw [h]

theorem upserted_force (value : Globals φ) (h : IsDictAt data (globalPath var).dropLast) :
    Upserted (globalPath var) value true data
      (serveGlobal (some var) (.upsert value true) data) := by
  rw [forceGlobal_eq]
  have hset : (globalPtr var data).setVal data (.dict value) =
      setAt data (globalPath var) (.dict value) := by
    unfold Pointer.setVal
    rw [place_of_isDictAt var data h]
  rw [hset]
  have honly := onlyAt_setAt data (globalPath var).dropLast (lastKey var) (.dict value)
  rw [globalPath_eq] at honly
  exact ⟨rfl, fun _ => get?_setAt_self data (split_ne_nil _ _) _, nofun, honly⟩

/-- To add no keys is right where there is something to add them to. -/
theorem addsMissing_nil_iff (old : Option (PyJson φ)) :
    AddsMissing [] old old ↔ old.isSome := by
  cases old with
  | none => simp [AddsMissing]
  | some t =>
    refine iff_of_true ?_ rfl
    cases t with
    | atom a => rfl
    | list items => rfl
    | dict inner => exact ⟨inner, rfl, fun k => Option.or_none.symm⟩

theorem upserted_unforced_iff (value : Globals φ) (h : IsDictAt data (globalPath var).dropLast) :
    Upserted (globalPath var) value false data
        (serveGlobal (some var) (.upsert value false) data) ↔
      value = [] ∧ (get? (.dict data) (globalPath var)).isSome := by
  rw [upsertGlobal_eq]
  constructor
  · rintro ⟨hreturns, -, hunforced, -⟩
    by_cases hvalue : value = []
    · refine ⟨hvalue, ?_⟩
      rw [← addsMissing_nil_iff]
      rw [hvalue] at hunforced
      exact hunforced rfl
    · rw [if_neg hvalue] at hreturns
      cases hreturns
  · rintro ⟨rfl, hsome⟩
    have honly := onlyAt_refl (k := lastKey var) h
    rw [globalPath_eq] at honly
    exact ⟨rfl, nofun, fun _ => (addsMissing_nil_iff _).mpr hsome, honly⟩

end Routes

/-- **The requests at a path that are answered as they should be**, for any variables. -/
theorem globalRight_iff (var : PyStr) (request : GlobalRequest φ) (data : Globals φ) :
    GlobalRight (globalPath var) request data (serveGlobal (some var) request data) ↔
      GlobalFits (globalPath var) request data := by
  cases request with
  | read =>
    rw [readGlobal_eq]
    show Answers _ _ _ ∧ data = data ↔ _ ∨ _
    rw [answers_iff, getVal_eq_iff]
    exact and_iff_left rfl
  | delete =>
    rw [deleteGlobal_eq]
    show Answers _ _ _ ∧ (_ → Removed _ _ _) ∧ _ ↔ _ ∨ _
    rw [answers_iff, ← getVal_eq_iff]
    refine and_iff_left_of_imp fun hval => ⟨fun hsome => ?_, fun hnone => ?_⟩
    · obtain ⟨v, hv⟩ := Option.isSome_iff_exists.mp hsome
      exact delVal_of_some var data hv
    · exact delVal_of_none var data (hval.trans hnone)
  | upsert value force =>
    cases force with
    | true =>
      show (_ → Upserted _ _ _ _ _) ∧ (_ → _) ↔ IsDictAt data _
      constructor
      · rintro ⟨-, hmissing⟩
        by_contra h
        exact (hmissing h).1 rfl
      · intro h
        exact ⟨fun _ => upserted_force var data value h, fun hnot => absurd h hnot⟩
    | false =>
      show (_ → Upserted _ _ _ _ _) ∧ (_ → _) ↔ (_ → _) ∧ (_ → _)
      refine and_congr (forall_congr' fun h => upserted_unforced_iff var data value h)
        (forall_congr' fun _ => ?_)
      rw [upsertGlobal_eq]
      by_cases hvalue : value = []
      · simp [hvalue, Except.isOk, Except.toBool]
      · simp [hvalue, Except.isOk, Except.toBool]

/-! ## Without a path -/

theorem addItems_globals (value data : Globals φ) :
    ∃ data', UpsertTarget.globals.addItems value data = (.ok (), data') ∧
      ∀ k, get? (.dict data') [k] = (get? (.dict data) [k]).or (get? (.dict value) [k]) := by
  induction value generalizing data with
  | nil => exact ⟨data, rfl, fun _ => Option.or_none.symm⟩
  | cons e value ih =>
    obtain ⟨j, v⟩ := e
    cases hj : get? (.dict data) [j] with
    | some w =>
      -- the key is there, and keeps its value
      obtain ⟨data', hrun, hlookup⟩ := ih data
      refine ⟨data', ?_, fun k => ?_⟩
      · simp only [UpsertTarget.addItems, UpsertTarget.contains, hj, Option.isSome_some]
        exact hrun
      · rw [hlookup, get?_singleton_cons]
        by_cases hk : k = j
        · simp [hk, hj]
        · rw [if_neg hk]
    | none =>
      obtain ⟨data', hrun, hlookup⟩ := ih (insertKey data j v)
      refine ⟨data', ?_, fun k => ?_⟩
      · simp only [UpsertTarget.addItems, UpsertTarget.contains, UpsertTarget.setItem, hj,
          Option.isSome_none]
        exact hrun
      · rw [hlookup, get?_singleton_insertKey, get?_singleton_cons]
        by_cases hk : k = j
        · simp [hk, hj]
        · rw [if_neg hk, if_neg hk]

/-- Without a path and without force, the keys of the value that are missing are added. -/
theorem upsertGlobal_none (value data : Globals φ) :
    ∃ data', serveGlobal none (.upsert value false) data = (.ok .created, data') ∧
      ∀ k, get? (.dict data') [k] = (get? (.dict data) [k]).or (get? (.dict value) [k]) := by
  obtain ⟨data', hrun, hlookup⟩ := addItems_globals value data
  refine ⟨data', ?_, hlookup⟩
  show upsertGlobal none value false data = _
  unfold upsertGlobal
  simp only [hrun]
  rfl

/-- Variables with one color at the top. -/
def oneColor : Globals ℕ := [(pyText "color", .atom (.str (pyText "red")))]

/-- A path through a key that is missing reads the color at the top. -/
theorem not_globalRight_oneColor :
    ¬ GlobalRight (globalPath (pyText "theme@color")) .read oneColor
        (serveGlobal (some (pyText "theme@color")) .read oneColor) := by
  rintro ⟨hanswers, -⟩
  have hget := (hanswers (.atom (.str (pyText "red")))).mp rfl
  cases hget

end Notifyr
