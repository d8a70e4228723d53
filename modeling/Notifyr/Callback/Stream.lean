import Notifyr.Runtime.Effect
import Notifyr.Theory.Batch

/-!
# The entries of a stream

What the handlers of `app/callback/event_stream.py` get: the entries of a Redis stream, whose
fields are texts.

- `StreamEntry`: an entry with its id.
- `emptyStrToNone`: an empty text stands for `None`.
- `countAt`: one more under a key of a dictionary of counters.
- `treatEach`: the loop of a handler over its entries; `treatEach_eq`: what it leaves, where the
  outcome of an entry does not depend on the entries before it.
- `UuidText`: the texts that `uuid.UUID` reads, among them the one it writes for each UUID.
-/

namespace Notifyr

open Theory EffectM

/-- An entry of a stream. -/
structure StreamEntry where
  ids : String
  val : Dict String String

/-- The fields of an entry, `None` among their values. -/
abbrev StreamVal := Dict String (Option String)

/-- `empty_str_to_none`. -/
def emptyStrToNone (val : Dict String String) : StreamVal :=
  ⟨val.entries.map fun e => (e.1, if e.2 = "" then none else some e.2), by
    rw [List.map_map]
    exact val.nodup⟩

/-- A key that may be `None` is looked for by the equality of keys. -/
theorem lawfulBEq_option {κ : Type} [DecidableEq κ] : LawfulBEq (Option κ) := inferInstance

/-- The texts of UUIDs: `uuid.UUID` and `str`. -/
structure UuidText (υ : Type) where
  parse : String → Option υ
  text : υ → String
  parse_text : ∀ u, parse (text u) = some u

/-- Texts that stand for themselves. -/
def UuidText.plain : UuidText String := ⟨some, id, fun _ => rfl⟩

/-- `st.email_id in keys`, where the keys are texts: a UUID is equal to none of them. -/
def uuidIn {υ : Type} (_ : υ) (_ : List String) : Bool := false

/-- `N_A`. -/
def notAvailable : String := "N/A"

/-- A location: country, state and city. -/
abbrev Location := Option String × Option String × Option String

/-- `(N_A, N_A, N_A)`. -/
def nowhere : Location := (some notAvailable, some notAvailable, some notAvailable)

/-- `del d[k]`. -/
def delItem (val : StreamVal) (k : String) : Py StreamVal :=
  if k ∈ val.keys then .ok (val.erase k) else .error .keyError

/-- A field that is absent or whose value the ORM class accepts: it is not nullable. -/
def fieldOk (val : StreamVal) (field : String) (ok : String → Bool) : Bool :=
  match val.get? field with
  | none => true
  | some none => false
  | some (some value) => ok value

/-! ## Counters -/

/-- A dictionary of counters among the dictionaries of a handler. -/
structure Counters (σ κ : Type) where
  get : σ → Dict κ ℤ
  put : σ → Dict κ ℤ → σ
  get_put : ∀ w d, get (put w d) = d
  put_put : ∀ w d d', put (put w d) d' = put w d'

section Counters

variable {σ κ : Type} [DecidableEq κ] (c : Counters σ κ)

/-- `if key not in d: d[key] = 0`, then `d[key] += 1`. -/
def countAt (key : κ) : EffectM σ Unit := do
  if key ∉ (c.get (← get)).keys then
    modify fun w => c.put w ((c.get w).set key 0)
  let n ← lift (getItem (c.get (← get)) key)
  modify fun w => c.put w ((c.get w).set key (n + 1))

theorem countAt_run (w : σ) (key : κ) :
    (countAt c key).run w = (.ok (), c.put w (((c.get w).start key).bump key 1)) := by
  have hget : getItem ((c.get w).start key) key = .ok ((c.get w).count key) := by
    unfold getItem
    rw [Dict.get?_start]
  have hbump : ((c.get w).start key).set key ((c.get w).count key + 1) =
      ((c.get w).start key).bump key 1 := by
    unfold Dict.bump
    rw [Dict.count_start]
  unfold countAt
  rw [run_bind_get]
  by_cases hnew : key ∉ (c.get w).keys
  · have hstart : (c.get w).set key 0 = (c.get w).start key := (if_neg hnew).symm
    rw [if_pos hnew, run_bind_modify, run_bind_get, run_bind_lift, c.get_put, hstart, hget]
    show (Except.ok (), c.put (c.put w _) _) = _
    rw [c.get_put, c.put_put, hbump]
  · have hstart : c.get w = (c.get w).start key := (if_pos (not_not.mp hnew)).symm
    rw [← hstart] at hget hbump
    rw [if_neg hnew, run_bind_get, run_bind_lift, hget, ← hstart, ← hbump]
    rfl

end Counters

/-! ## The loop of a handler -/

variable {σ : Type}

/-- `for ids, val in entries: try: … except: invalid_entries.add(ids)`: what is left, and the
entries marked invalid. -/
def treatEach (treat : StreamEntry → EffectM σ Unit) :
    σ → List StreamEntry → σ × List StreamEntry
  | w, [] => (w, [])
  | w, entry :: entries =>
    match (treat entry).run w with
    | (.ok (), w) => treatEach treat w entries
    | (.error _, w) =>
      let (w, invalid) := treatEach treat w entries
      (w, entry :: invalid)

/-- Where the entries pass or fail by themselves. -/
theorem treatEach_eq {treat : StreamEntry → EffectM σ Unit} {after : σ → StreamEntry → σ}
    (passes : StreamEntry → Bool) (inv : σ → Prop) (hinv : ∀ w entry, inv w → inv (after w entry))
    (hrun : ∀ w entry, inv w →
      ∃ r : Py Unit, (treat entry).run w = (r, after w entry) ∧ r.isOk = passes entry)
    {w : σ} (hw : inv w) (entries : List StreamEntry) :
    treatEach treat w entries =
      (entries.foldl after w, entries.filter fun entry => !passes entry) := by
  induction entries generalizing w with
  | nil => rfl
  | cons entry entries ih =>
    obtain ⟨r, hr, hok⟩ := hrun w entry hw
    rw [treatEach, hr, List.foldl_cons, List.filter_cons, ← hok]
    have hrest := ih (hinv w entry hw)
    cases r with
    | ok u => exact hrest
    | error e =>
      dsimp only
      rw [hrest]
      rfl

end Notifyr
