import Mathlib.Data.List.Sort

/-!
# Sorting by a key, stably

Insertion by descending keys keeps the order of entries with equal keys.

- `sortByKey`: the sort.
- `filter_sortByKey`: entries with equal keys stand as they stood.
- `sortByKey_eq_flatMap`: the sorted list is the list of each key's entries, key by key.
-/

namespace Theory

variable {α : Type} (key : α → Nat)

/-- `sorted(l, key=key, reverse=True)`: by descending keys, equal keys in the order they come. -/
def sortByKey (l : List α) : List α := l.insertionSort fun a b => key b ≤ key a

theorem perm_sortByKey (l : List α) : (sortByKey key l).Perm l := List.perm_insertionSort _ l

theorem pairwise_sortByKey (l : List α) :
    (sortByKey key l).Pairwise fun a b => key b ≤ key a := by
  have htotal : Std.Total fun a b : α => key b ≤ key a := ⟨fun a b => Nat.le_total _ _⟩
  have htrans : IsTrans α fun a b => key b ≤ key a := ⟨fun _ _ _ hab hbc => hbc.trans hab⟩
  exact List.pairwise_insertionSort _ l

/-- **Entries with equal keys stand as they stood.** -/
theorem filter_sortByKey (l : List α) (k : Nat) :
    (sortByKey key l).filter (fun a => key a = k) = l.filter fun a => key a = k := by
  have htotal : Std.Total fun a b : α => key b ≤ key a := ⟨fun a b => Nat.le_total _ _⟩
  have htrans : IsTrans α fun a b => key b ≤ key a := ⟨fun _ _ _ hab hbc => hbc.trans hab⟩
  have hpair : (l.filter fun a => key a = k).Pairwise fun a b => key b ≤ key a := by
    refine List.pairwise_of_forall_mem_list fun a ha b hb => ?_
    have ha := of_decide_eq_true (List.mem_filter.mp ha).2
    have hb := of_decide_eq_true (List.mem_filter.mp hb).2
    exact (hb.trans ha.symm).le
  have hsub := (List.sublist_insertionSort hpair List.filter_sublist).filter
    fun a => decide (key a = k)
  rw [List.filter_filter] at hsub
  simp only [Bool.and_self] at hsub
  have hlen := ((perm_sortByKey key l).filter fun a => decide (key a = k)).length_eq
  exact (hsub.eq_of_length hlen.symm).symm

variable {key} {l : List α} {k : Nat}

/-- A descending list starts with the entries of its greatest key. -/
theorem eq_filter_append (hl : l.Pairwise fun a b => key b ≤ key a) (hk : ∀ a ∈ l, key a ≤ k) :
    l = (l.filter fun a => key a = k) ++ l.filter fun a => key a ≠ k := by
  induction l with
  | nil => rfl
  | cons a l ih =>
    obtain ⟨ha, hl⟩ := List.pairwise_cons.mp hl
    have hk' : ∀ b ∈ l, key b ≤ k := fun b hb => hk b (List.mem_cons_of_mem _ hb)
    by_cases hak : key a = k
    · have hpos : (a :: l).filter (fun a => key a = k) = a :: l.filter fun a => key a = k :=
        List.filter_cons_of_pos (decide_eq_true hak)
      have hneg : (a :: l).filter (fun a => key a ≠ k) = l.filter fun a => key a ≠ k :=
        List.filter_cons_of_neg fun h => of_decide_eq_true h hak
      rw [hpos, hneg, List.cons_append, ← ih hl hk']
    -- no entry has the greatest key
    · have hlt : key a < k := lt_of_le_of_ne (hk a List.mem_cons_self) hak
      have hne : ∀ b ∈ a :: l, key b ≠ k := by
        intro b hb
        rcases List.mem_cons.mp hb with rfl | hb
        · exact hak
        · exact ((ha b hb).trans_lt hlt).ne
      rw [List.filter_eq_nil_iff.mpr fun b hb h => hne b hb (of_decide_eq_true h), List.nil_append]
      exact (List.filter_eq_self.mpr fun b hb => decide_eq_true (hne b hb)).symm

/-- A descending list is the list of each key's entries, for the keys in descending order. -/
theorem eq_flatMap_of_pairwise {ks : List Nat} (hks : ks.Pairwise fun k k' => k' < k)
    (hl : l.Pairwise fun a b => key b ≤ key a) (hmem : ∀ a ∈ l, key a ∈ ks) :
    l = ks.flatMap fun k => l.filter fun a => key a = k := by
  induction ks generalizing l with
  | nil => exact List.eq_nil_iff_forall_not_mem.mpr fun a ha => List.not_mem_nil (hmem a ha)
  | cons k ks ih =>
    obtain ⟨hk, hks⟩ := List.pairwise_cons.mp hks
    have hle : ∀ a ∈ l, key a ≤ k := by
      intro a ha
      rcases List.mem_cons.mp (hmem a ha) with h | h
      · exact h.le
      · exact (hk _ h).le
    have hrest := ih hks (hl.filter fun a => key a ≠ k) fun a ha => by
      obtain ⟨ha, hne⟩ := List.mem_filter.mp ha
      exact (List.mem_cons.mp (hmem a ha)).resolve_left (of_decide_eq_true hne)
    have hcongr : (ks.flatMap fun k' => (l.filter fun a => key a ≠ k).filter fun a => key a = k') =
        ks.flatMap fun k' => l.filter fun a => key a = k' := by
      refine List.flatMap_congr fun k' hk' => ?_
      rw [List.filter_filter]
      refine List.filter_congr fun a _ => ?_
      by_cases h : key a = k'
      · have hne : key a ≠ k := h ▸ (hk k' hk').ne
        simp [h, h ▸ hne]
      · simp [h]
    rw [hcongr] at hrest
    rw [List.flatMap_cons, ← hrest]
    exact eq_filter_append hl hle

/-- **The sorted list is the list of each key's entries, key by key**, each in the order they
stood. -/
theorem sortByKey_eq_flatMap {ks : List Nat} (hks : ks.Pairwise fun k k' => k' < k)
    (hmem : ∀ a ∈ l, key a ∈ ks) :
    sortByKey key l = ks.flatMap fun k => l.filter fun a => key a = k := by
  have h := eq_flatMap_of_pairwise hks (pairwise_sortByKey key l)
    fun a ha => hmem a ((perm_sortByKey key l).mem_iff.mp ha)
  rw [h]
  exact List.flatMap_congr fun k _ => h ▸ filter_sortByKey key l k

end Theory
