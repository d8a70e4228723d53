import Mathlib.Data.Rat.Defs
import Mathlib.Data.List.Basic

/-!
# JSON documents in Go

The values that `encoding/json` decodes into an `interface{}`, and the maps of the balancer
(`balancer/internal/utils/helper.go`).

- `Json`: a decoded value. A number is what `float64` made of it, always finite.
- `GoMap`: a `map[string]interface{}`; `get?`, `put` and `copyOneLevelMap`.
- `GoResult`: a Go function that returns a value or an error, or panics.
-/

namespace Notifyr

/-- A decoded JSON value. -/
inductive Json
  | null
  | bool (b : Bool)
  | num (value : Rat)
  | str (s : String)
  | arr (items : List Json)
  | obj (fields : List (String × Json))

/-- A `map[string]interface{}`: for each key the first entry counts. -/
abbrev GoMap := List (String × Json)

/-- What a Go function does: it returns a value, returns an error, or panics. -/
inductive GoResult (α : Type)
  | ok (a : α)
  | err (message : String)
  | panic (message : String)

namespace GoMap

/-- `m[k]`, with its presence. -/
def get? (m : GoMap) (k : String) : Option Json := List.lookup k m

/-- `m[k] = v`. -/
def put (m : GoMap) (k : String) (v : Json) : GoMap := (k, v) :: m.filter fun e => e.1 ≠ k

/-- `CopyOneLevelMap`. -/
def copyOneLevelMap (original : GoMap) (exclude : List String) : GoMap :=
  original.filter fun e => e.1 ∉ exclude

theorem lookup_filter (m : GoMap) (p : String → Bool) (k : String) :
    List.lookup k (m.filter fun e => p e.1) = if p k then List.lookup k m else none := by
  induction m with
  | nil => simp
  | cons e m ih =>
    obtain ⟨k', v⟩ := e
    rw [List.filter_cons]
    by_cases hk : k = k'
    · subst hk
      by_cases hp : p k = true
      · simp [hp]
      · simp [hp, ih]
    · have hb : (k == k') = false := beq_eq_false_iff_ne.mpr hk
      by_cases hp : p k' = true
      · simp only [hp, if_true, List.lookup_cons, hb, ih]
      · rw [if_neg hp, List.lookup_cons, hb, ih]

@[simp] theorem get?_put_self (m : GoMap) (k : String) (v : Json) :
    (m.put k v).get? k = some v := List.lookup_cons_self

theorem get?_put_ne (m : GoMap) {k k' : String} (h : k' ≠ k) (v : Json) :
    (m.put k v).get? k' = m.get? k' := by
  have hb : (k' == k) = false := beq_eq_false_iff_ne.mpr h
  show List.lookup k' ((k, v) :: m.filter fun e => decide (e.1 ≠ k)) = List.lookup k' m
  rw [List.lookup_cons, hb]
  show List.lookup k' (m.filter fun e => decide (e.1 ≠ k)) = List.lookup k' m
  rw [lookup_filter m (fun s => decide (s ≠ k))]
  simp [h]

@[simp] theorem put_put (m : GoMap) (k : String) (v w : Json) :
    (m.put k v).put k w = m.put k w := by
  simp [put, List.filter_filter]

theorem get?_copyOneLevelMap (m : GoMap) (exclude : List String) (k : String) :
    (m.copyOneLevelMap exclude).get? k = if k ∈ exclude then none else m.get? k := by
  show List.lookup k (m.filter fun e => decide (e.1 ∉ exclude)) = _
  rw [lookup_filter m (fun s => decide (s ∉ exclude))]
  by_cases h : k ∈ exclude
  · simp [h]
  · simp [h, get?]

end GoMap

end Notifyr
