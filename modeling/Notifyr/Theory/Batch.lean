import Mathlib.Algebra.BigOperators.Group.List.Basic
import Mathlib.Algebra.Order.BigOperators.Group.List
import Mathlib.Algebra.Order.Ring.Int
import Mathlib.Data.List.Induction
import Notifyr.Theory.Dict

/-!
# Counting over a batch

Folds over a list of events that keep integer counters, and what they count.

- `signedSum`: the weights of the members that meet a condition, added up.
- `keepAlong`: the members that meet a condition on themselves and on what came before them, such
  as the first of each key.
- `Dict.count`, `Dict.bump`: a dictionary of counters, zero where a key is absent.
- `Dict.start`: a counter that is there from now on; `Dict.total`: some counters added up.
- `Dict.tally`: one more under the key of a member; `total_foldl_tally`: what it counts.
-/

namespace Theory

variable {α : Type}

/-- The weights of the members that meet `p`. -/
def signedSum (w : α → ℤ) (p : α → Bool) (as : List α) : ℤ := ((as.filter p).map w).sum

section SignedSum

variable (w : α → ℤ) (p : α → Bool)

@[simp] theorem signedSum_nil : signedSum w p [] = 0 := rfl

theorem signedSum_cons (a : α) (as : List α) :
    signedSum w p (a :: as) = (if p a then w a else 0) + signedSum w p as := by
  unfold signedSum
  rw [List.filter_cons]
  split
  · rw [List.map_cons, List.sum_cons]
  · rw [zero_add]

theorem signedSum_append (as bs : List α) :
    signedSum w p (as ++ bs) = signedSum w p as + signedSum w p bs := by
  unfold signedSum
  rw [List.filter_append, List.map_append, List.sum_append]

variable {w} in
/-- Larger weights, and one of them strictly. -/
theorem signedSum_lt {w' : α → ℤ} {as : List α} (hle : ∀ a, w a ≤ w' a)
    (hlt : ∃ a ∈ as, p a ∧ w a < w' a) : signedSum w p as < signedSum w' p as := by
  refine List.sum_lt_sum w w' (fun a _ => hle a) ?_
  obtain ⟨a, ha, hp, hlt⟩ := hlt
  exact ⟨a, List.mem_filter.mpr ⟨ha, hp⟩, hlt⟩

theorem signedSum_singleton (a : α) : signedSum w p [a] = if p a then w a else 0 := by
  rw [signedSum_cons, signedSum_nil, add_zero]

variable {w p} in
theorem signedSum_congr {w' : α → ℤ} {q : α → Bool} {as : List α}
    (hp : ∀ a ∈ as, p a = q a) (hw : ∀ a ∈ as, w a = w' a) :
    signedSum w p as = signedSum w' q as := by
  unfold signedSum
  rw [List.filter_congr hp,
    List.map_congr_left fun a ha => hw a (List.mem_of_mem_filter ha)]

end SignedSum

/-! ## Conditions on what came before -/

/-- The members of the list that meet `p` together with the members before them. -/
def keepFrom (p : List α → α → Bool) : List α → List α → List α
  | _, [] => []
  | before, a :: as => (if p before a then [a] else []) ++ keepFrom p (before ++ [a]) as

/-- The same from the start of a batch. -/
def keepAlong (p : List α → α → Bool) (as : List α) : List α := keepFrom p [] as

section Keep

variable (p : List α → α → Bool)

theorem keepFrom_append (before as bs : List α) :
    keepFrom p before (as ++ bs) = keepFrom p before as ++ keepFrom p (before ++ as) bs := by
  induction as generalizing before with
  | nil => rw [List.nil_append, List.append_nil]; rfl
  | cons a as ih =>
    rw [List.cons_append, keepFrom, keepFrom, ih, List.append_assoc, List.append_assoc]
    rfl

/-- One more member at the end. -/
theorem keepAlong_concat (as : List α) (a : α) :
    keepAlong p (as ++ [a]) = keepAlong p as ++ if p as a then [a] else [] := by
  unfold keepAlong
  rw [keepFrom_append, List.nil_append, keepFrom, keepFrom, List.append_nil]

variable {p} in
/-- No member meets the condition. -/
theorem keepAlong_eq_nil {as : List α} (h : ∀ before, ∀ a ∈ as, p before a = false) :
    keepAlong p as = [] := by
  induction as using List.reverseRecOn with
  | nil => rfl
  | append_singleton as a ih =>
    rw [keepAlong_concat, h as a (List.mem_append_right _ List.mem_cons_self),
      ih fun before a' ha' => h before a' (List.mem_append_left _ ha')]
    rfl

variable {p} in
/-- The members of a list are those that meet a condition and those that do not. -/
theorem signedSum_keepAlong_add {q r : List α → α → Bool} {b : α → Bool} (w : α → ℤ)
    (c : α → Bool) (hsplit : ∀ before a, b a = (q before a || r before a))
    (hdisjoint : ∀ before a, ¬ (q before a = true ∧ r before a = true)) (as : List α) :
    signedSum w c (as.filter b) =
      signedSum w c (keepAlong q as) + signedSum w c (keepAlong r as) := by
  induction as using List.reverseRecOn with
  | nil => rfl
  | append_singleton as a ih =>
    rw [List.filter_append, keepAlong_concat, keepAlong_concat, signedSum_append,
      signedSum_append, signedSum_append, ih]
    have hone : signedSum w c ([a].filter b) =
        signedSum w c (if q as a then [a] else []) +
          signedSum w c (if r as a then [a] else []) := by
      have hb := hsplit as a
      have hd := hdisjoint as a
      cases hq : q as a <;> cases hr : r as a
      · simp [hb, hq, hr]
      · simp [hb, hq, hr]
      · simp [hb, hq, hr]
      · exact absurd ⟨hq, hr⟩ hd
    rw [hone]
    omega

/-- Without a look at what came before it is a filter. -/
theorem keepAlong_const (b : α → Bool) (as : List α) :
    keepAlong (fun _ a => b a) as = as.filter b := by
  induction as using List.reverseRecOn with
  | nil => rfl
  | append_singleton as a ih =>
    rw [keepAlong_concat, ih, List.filter_append]
    cases hb : b a
    · simp [hb]
    · simp [hb]

end Keep

/-! ## Dictionaries of counters -/

namespace Dict

variable {κ : Type} [DecidableEq κ]

/-- `d.get(k, 0)`. -/
def count (d : Dict κ ℤ) (k : κ) : ℤ := (d.get? k).getD 0

/-- `d[k] += n`, from zero where `k` is absent. -/
def bump (d : Dict κ ℤ) (k : κ) (n : ℤ) : Dict κ ℤ := d.set k (d.count k + n)

theorem count_bump (d : Dict κ ℤ) (k : κ) (n : ℤ) (k' : κ) :
    (d.bump k n).count k' = d.count k' + if k = k' then n else 0 := by
  unfold bump
  rw [count, get?_set]
  by_cases h : k' = k
  · subst h
    rw [if_pos rfl, if_pos rfl]
    rfl
  · rw [if_neg h, if_neg (Ne.symm h), add_zero]
    rfl

/-- `if k not in d: d[k] = 0`. -/
def start (d : Dict κ ℤ) (k : κ) : Dict κ ℤ := if k ∈ d.keys then d else d.set k 0

theorem count_start (d : Dict κ ℤ) (k k' : κ) : (d.start k).count k' = d.count k' := by
  unfold start
  split
  · rfl
  · rename_i hnew
    unfold count
    rw [get?_set]
    split
    · rename_i heq
      rw [heq, (not_mem_keys_iff d k).mp hnew]
      rfl
    · rfl

/-- The counters whose keys meet `p`, added up. -/
def total (d : Dict κ ℤ) (p : κ → Bool) : ℤ := ((d.entries.filter fun e => p e.1).map (·.2)).sum

omit [DecidableEq κ] in
@[simp] theorem total_empty (p : κ → Bool) : (empty : Dict κ ℤ).total p = 0 := rfl

theorem sum_replace {es : List (κ × ℤ)} (hnd : (es.map Prod.fst).Nodup) {k : κ} {n : ℤ}
    (hn : es.lookup k = some n) (v : ℤ) (p : κ → Bool) :
    (((es.map fun e => if e.1 = k then (k, v) else e).filter fun e => p e.1).map (·.2)).sum =
      ((es.filter fun e => p e.1).map (·.2)).sum + if p k then v - n else 0 := by
  induction es with
  | nil => cases hn
  | cons e es ih =>
    obtain ⟨hnew, hrest⟩ := List.nodup_cons.mp hnd
    rw [List.map_cons, List.filter_cons, List.filter_cons]
    by_cases hk : e.1 = k
    · have hsame : (es.map fun e => if e.1 = k then (k, v) else e) = es := by
        refine (List.map_congr_left fun e' he' => if_neg fun hk' => hnew ?_).trans (List.map_id' es)
        rw [hk, ← hk']
        exact List.mem_map_of_mem he'
      have hvalue : e.2 = n := by
        rw [show e = (k, e.2) from Prod.ext hk rfl, List.lookup_cons_self] at hn
        exact Option.some.inj hn
      rw [if_pos hk, hsame, hk]
      cases p k
      · exact (add_zero _).symm
      · simp only [if_true, List.map_cons, List.sum_cons, hvalue]
        omega
    · have hlookup : es.lookup k = some n := by
        rw [List.lookup_cons, beq_eq_false_iff_ne.mpr (Ne.symm hk)] at hn
        exact hn
      rw [if_neg hk]
      have hsum := ih hrest hlookup
      cases p e.1
      · exact hsum
      · simp only [if_true, List.map_cons, List.sum_cons, hsum]
        omega

theorem total_set (d : Dict κ ℤ) (k : κ) (v : ℤ) (p : κ → Bool) :
    (d.set k v).total p = d.total p + if p k then v - d.count k else 0 := by
  unfold set count
  split
  · rename_i h
    obtain ⟨n, hn⟩ := (mem_keys_iff d k).mp h
    rw [hn]
    exact sum_replace d.nodup hn v p
  · rename_i h
    rw [(not_mem_keys_iff d k).mp h]
    unfold total
    rw [List.filter_append, List.map_append, List.sum_append]
    cases hp : p k
    · simp [hp]
    · simp [hp]

theorem total_bump (d : Dict κ ℤ) (k : κ) (n : ℤ) (p : κ → Bool) :
    (d.bump k n).total p = d.total p + if p k then n else 0 := by
  unfold bump
  rw [total_set, add_sub_cancel_left]

theorem total_start (d : Dict κ ℤ) (k : κ) (p : κ → Bool) :
    (d.start k).total p = d.total p := by
  unfold start
  split
  · rfl
  · rename_i h
    rw [total_set, count, (not_mem_keys_iff d k).mp h]
    simp

theorem get?_start (d : Dict κ ℤ) (k : κ) : (d.start k).get? k = some (d.count k) := by
  unfold start
  split
  · rename_i h
    obtain ⟨n, hn⟩ := (mem_keys_iff d k).mp h
    rw [count, hn]
    rfl
  · rename_i h
    rw [get?_set_self, count, (not_mem_keys_iff d k).mp h]
    rfl

/-! ### Tallies -/

/-- One more under the key of a member, if it has one. -/
def tally (d : Dict κ ℤ) : Option κ → Dict κ ℤ
  | none => d
  | some k => (d.start k).bump k 1

theorem total_tally (d : Dict κ ℤ) (k : Option κ) (p : κ → Bool) :
    (d.tally k).total p = d.total p + if k.any p then 1 else 0 := by
  cases k with
  | none => exact (add_zero _).symm
  | some k =>
    unfold tally
    rw [total_bump, total_start]
    rfl

theorem mem_keys_tally (d : Dict κ ℤ) (k : Option κ) (k' : κ) :
    k' ∈ (d.tally k).keys ↔ k' ∈ d.keys ∨ k = some k' := by
  cases k with
  | none => simp [tally]
  | some k =>
    unfold tally bump start
    rw [mem_keys_set, Option.some_inj, eq_comm, or_comm]
    split
    · rfl
    · rw [mem_keys_set]
      tauto

/-- Some counters of a tally count the members with their keys. -/
theorem total_foldl_tally (key : α → Option κ) (as : List α) (d : Dict κ ℤ) (p : κ → Bool) :
    (as.foldl (fun d a => d.tally (key a)) d).total p =
      d.total p + (as.countP fun a => (key a).any p : ℕ) := by
  induction as generalizing d with
  | nil => exact (add_zero _).symm
  | cons a as ih =>
    rw [List.foldl_cons, ih, total_tally, List.countP_cons]
    split
    · push_cast
      omega
    · push_cast
      omega

theorem mem_keys_foldl_tally (key : α → Option κ) (as : List α) (d : Dict κ ℤ) (k : κ) :
    k ∈ (as.foldl (fun d a => d.tally (key a)) d).keys ↔ k ∈ d.keys ∨ ∃ a ∈ as, key a = some k := by
  induction as generalizing d with
  | nil => simp
  | cons a as ih => rw [List.foldl_cons, ih, mem_keys_tally, List.exists_mem_cons_iff, or_assoc]

end Dict

end Theory
