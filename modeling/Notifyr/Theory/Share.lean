import Mathlib.Data.Int.CardIntervalMod
import Mathlib.Data.List.Perm.Basic

/-!
# Dealing a list round robin

A list is dealt to `n` hands: the element at position `k` goes to hand `k % n`.

- `share n i l`: the hand `i`, in the order of the list.
- `share_concat`: what one more element changes.
- `perm_shares`: the hands together are the list.
- `length_share`: how many elements a hand holds; `share_balanced` compares two hands.
-/

namespace Theory

variable {α : Type}

/-- The elements of `l` at the positions that are `i` modulo `n`. -/
def share (n i : Nat) (l : List α) : List α :=
  (l.zipIdx.filter fun p => p.2 % n = i).map Prod.fst

@[simp] theorem share_nil (n i : Nat) : share n i ([] : List α) = [] := rfl

theorem share_concat (n i : Nat) (l : List α) (x : α) :
    share n i (l ++ [x]) = share n i l ++ if l.length % n = i then [x] else [] := by
  unfold share
  rw [List.zipIdx_append, List.filter_append, List.map_append]
  congr 1
  by_cases h : l.length % n = i
  · simp [h]
  · simp [h]

theorem share_concat_self {n i : Nat} {l : List α} (h : l.length % n = i) (x : α) :
    share n i (l ++ [x]) = share n i l ++ [x] := by
  rw [share_concat, if_pos h]

theorem share_concat_other {n i : Nat} {l : List α} (h : l.length % n ≠ i) (x : α) :
    share n i (l ++ [x]) = share n i l := by
  rw [share_concat, if_neg h, List.append_nil]

/-- A hand holds the elements at its positions. -/
theorem mem_share_iff (n i : Nat) (l : List α) (x : α) :
    x ∈ share n i l ↔ ∃ k, l[k]? = some x ∧ k % n = i := by
  unfold share
  rw [List.mem_map]
  constructor
  · rintro ⟨⟨y, k⟩, hmem, rfl⟩
    obtain ⟨hzip, hk⟩ := List.mem_filter.mp hmem
    exact ⟨k, List.mk_mem_zipIdx_iff_getElem?.mp hzip, of_decide_eq_true hk⟩
  · rintro ⟨k, hget, hk⟩
    exact ⟨(x, k), List.mem_filter.mpr
      ⟨List.mk_mem_zipIdx_iff_getElem?.mpr hget, decide_eq_true hk⟩, rfl⟩

/-- How many elements hand `i` holds. -/
theorem length_share {n i : Nat} (hi : i < n) (l : List α) :
    (share n i l).length = l.length / n + if i < l.length % n then 1 else 0 := by
  -- the positions that are `i` modulo `n`, counted
  have hcount : ∀ l : List α, (share n i l).length = l.length.count (· ≡ i [MOD n]) := by
    intro l
    induction l using List.reverseRecOn with
    | nil => rfl
    | append_singleton l x ih =>
      rw [share_concat, List.length_append, List.length_append, List.length_singleton,
        Nat.count_succ, ih]
      congr 1
      have hmod : (l.length % n = i) ↔ l.length ≡ i [MOD n] := by
        unfold Nat.ModEq
        rw [Nat.mod_eq_of_lt hi]
      by_cases h : l.length % n = i
      · rw [if_pos h, if_pos (hmod.mp h), List.length_singleton]
      · rw [if_neg h, if_neg fun hm => h (hmod.mpr hm), List.length_nil]
  rw [hcount l, Nat.count_modEq_card _ (by omega), Nat.mod_eq_of_lt hi]

/-- Two hands differ by at most one element. -/
theorem share_balanced {n i j : Nat} (hi : i < n) (hj : j < n) (l : List α) :
    (share n i l).length ≤ (share n j l).length + 1 := by
  rw [length_share hi, length_share hj]
  split <;> split <;> omega

/-- A list that reaches every hand leaves none empty. -/
theorem share_ne_nil {n i : Nat} (hi : i < n) {l : List α} (hl : n ≤ l.length) :
    share n i l ≠ [] := by
  intro h
  have hlen := length_share hi l
  rw [h, List.length_nil] at hlen
  have hdiv : 0 < l.length / n := Nat.div_pos hl (by omega)
  omega

/-- One more element lands in one hand. -/
theorem flatMap_single {is : List Nat} (hnd : is.Nodup) {m : Nat} (hm : m ∈ is) (x : α) :
    (is.flatMap fun i => if m = i then [x] else []) = [x] := by
  induction is with
  | nil => cases hm
  | cons i is ih =>
    obtain ⟨hnot, hnd⟩ := List.nodup_cons.mp hnd
    rw [List.flatMap_cons]
    by_cases h : m = i
    · -- no later hand is `i`
      have hrest : (is.flatMap fun i => if m = i then [x] else []) = [] := by
        refine List.flatMap_eq_nil_iff.mpr fun j hj => if_neg ?_
        rintro rfl
        exact hnot (h ▸ hj)
      rw [if_pos h, hrest, List.append_nil]
    · rw [if_neg h, List.nil_append]
      exact ih hnd ((List.mem_cons.mp hm).resolve_left h)

/-- **The hands together are the list**, each element in one hand and there once. -/
theorem perm_shares {n : Nat} (hn : 0 < n) (l : List α) :
    ((List.range n).flatMap fun i => share n i l).Perm l := by
  induction l using List.reverseRecOn with
  | nil => simp
  | append_singleton l x ih =>
    have hlt : l.length % n < n := Nat.mod_lt _ hn
    have hsplit : ((List.range n).flatMap fun i => share n i (l ++ [x])).Perm
        (((List.range n).flatMap fun i => share n i l) ++
          (List.range n).flatMap fun i => if l.length % n = i then [x] else []) := by
      simp only [share_concat]
      exact (List.flatMap_append_perm _ _ _).symm
    have hone : ((List.range n).flatMap fun i => if l.length % n = i then [x] else []) = [x] :=
      flatMap_single List.nodup_range (List.mem_range.mpr hlt) x
    rw [hone] at hsplit
    exact hsplit.trans (ih.append_right [x])

end Theory
