import Mathlib.Data.List.Nodup
import Notifyr.Theory.Runs

/-!
# Sweeping a list that changes

A loop over a list by position, while others append to the list and remove from it between two of
its turns.

- `Sweep`: the list, the position the loop is at, and what it has visited; `lost` counts the visited
  elements that have been removed.
- `Sweep.Inv`: nothing is visited twice, and what the loop has passed without a visit is paid for by
  what it has lost.
- `Sweep.Inv.visit`, `Sweep.Inv.append`, `Sweep.Inv.remove`: this is kept, where only new elements
  are appended.
- `Sweep.Inv.unvisited_le`: what is left when the loop ends.
- `sweep_evens`: where everything leaves once it is visited, every other element is passed over.
-/

namespace Theory

variable {α : Type} [DecidableEq α]

/-- How many elements of a list have not been visited. -/
def unvisited (visited l : List α) : ℕ := l.countP (· ∉ visited)

theorem unvisited_append (visited l l' : List α) :
    unvisited visited (l ++ l') = unvisited visited l + unvisited visited l' := List.countP_append

theorem unvisited_le_length (visited l : List α) : unvisited visited l ≤ l.length :=
  List.countP_le_length

theorem unvisited_cons (visited : List α) (a : α) (l : List α) :
    unvisited visited (a :: l) = unvisited visited l + if a ∈ visited then 0 else 1 := by
  unfold unvisited
  rw [List.countP_cons]
  by_cases h : a ∈ visited <;> simp [h]

/-- One more visit. -/
theorem unvisited_concat_le (visited l : List α) (a : α) :
    unvisited (visited ++ [a]) (l ++ [a]) ≤ unvisited visited l := by
  have hself : unvisited (visited ++ [a]) [a] = 0 := by simp [unvisited]
  rw [unvisited_append, hself]
  refine List.countP_mono_left fun b _ hb => ?_
  simp only [List.mem_append, decide_eq_true_eq, not_or] at hb ⊢
  exact hb.1

theorem unvisited_take_succ_le (visited l : List α) (n : ℕ) :
    unvisited visited (l.take (n + 1)) ≤
      unvisited visited (l.take n) + if n < l.length then 1 else 0 := by
  rw [List.take_add_one, unvisited_append]
  refine Nat.add_le_add_left (Nat.le_trans (unvisited_le_length _ _) ?_) _
  cases hget : l[n]? with
  | none => exact Nat.zero_le _
  | some b => simp [(List.getElem?_eq_some_iff.mp hget).1]

/-- A loop over a list, with what is done so far. -/
structure Sweep (α : Type) where
  items : List α
  next : ℕ := 0
  visited : List α := []
  lost : ℕ := 0

/-- What happens: a turn of the loop, or a change of the list. -/
inductive SweepAction (α : Type)
  | visit
  | append (a : α)
  | remove (a : α)

namespace Sweep

/-- One action. -/
def step (s : Sweep α) : SweepAction α → Sweep α
  | .visit =>
    match s.items[s.next]? with
    | some a => { s with next := s.next + 1, visited := s.visited ++ [a] }
    | none => s
  | .append a => { s with items := s.items ++ [a] }
  | .remove a =>
    { s with
      items := s.items.erase a
      lost := s.lost + if a ∈ s.items ∧ a ∈ s.visited then 1 else 0 }

/-- What holds along a run. -/
structure Inv (s : Sweep α) : Prop where
  items : s.items.Nodup
  visited : s.visited.Nodup
  ahead : ∀ a ∈ s.items.drop s.next, a ∉ s.visited
  paid : unvisited s.visited (s.items.take s.next) + (s.next - s.items.length) ≤ s.lost

/-- Only new elements are appended. -/
def Fresh (s : Sweep α) : SweepAction α → Prop
  | .append a => a ∉ s.items ∧ a ∉ s.visited
  | _ => True

theorem inv_init {items : List α} (h : items.Nodup) : Inv { items } :=
  ⟨h, List.nodup_nil, fun _ _ => List.not_mem_nil, by simp [unvisited]⟩

theorem Inv.visit {s : Sweep α} (h : s.Inv) : (s.step .visit).Inv := by
  unfold Sweep.step
  dsimp only
  split
  · next a ha =>
    obtain ⟨hitems, hvisited, hahead, hpaid⟩ := h
    obtain ⟨hlt, rfl⟩ := List.getElem?_eq_some_iff.mp ha
    have hdrop : s.items.drop s.next = s.items[s.next] :: s.items.drop (s.next + 1) :=
      List.drop_eq_getElem_cons hlt
    have hnew : s.items[s.next] ∉ s.visited := hahead _ (by rw [hdrop]; exact List.mem_cons_self)
    have hnodup : (s.items[s.next] :: s.items.drop (s.next + 1)).Nodup :=
      hdrop ▸ hitems.sublist (List.drop_sublist _ _)
    refine ⟨hitems, List.nodup_append.mpr ⟨hvisited, List.nodup_singleton _, ?_⟩, ?_, ?_⟩
    · rintro b hb c hc rfl
      rw [List.mem_singleton] at hc
      exact hnew (hc ▸ hb)
    · intro b hb hmem
      rcases List.mem_append.mp hmem with hmem | hmem
      · exact hahead b (by rw [hdrop]; exact List.mem_cons_of_mem _ hb) hmem
      · rw [List.mem_singleton] at hmem
        exact (List.nodup_cons.mp hnodup).1 (hmem ▸ hb)
    · have hle := unvisited_concat_le s.visited (s.items.take s.next) s.items[s.next]
      rw [← List.take_append_getElem hlt]
      dsimp only at hle ⊢
      omega
  · exact h

theorem Inv.append {s : Sweep α} (h : s.Inv) {a : α} (hfresh : s.Fresh (.append a)) :
    (s.step (.append a)).Inv := by
  obtain ⟨hitems, hvisited⟩ : a ∉ s.items ∧ a ∉ s.visited := hfresh
  have hpaid := h.paid
  refine ⟨List.nodup_append.mpr ⟨h.items, List.nodup_singleton _, ?_⟩, h.visited, ?_, ?_⟩
  · rintro b hb c hc rfl
    rw [List.mem_singleton] at hc
    exact hitems (hc ▸ hb)
  · intro b hb
    rcases List.mem_append.mp (List.drop_append ▸ hb : b ∈ _ ++ _) with hb | hb
    · exact h.ahead b hb
    · have hba : b = a := List.mem_singleton.mp (List.mem_of_mem_drop hb)
      rw [hba]
      exact hvisited
  · have hone : unvisited s.visited (([a] : List α).take (s.next - s.items.length)) ≤
        s.next - s.items.length :=
      Nat.le_trans (unvisited_le_length _ _) (List.length_take_le _ _)
    have hself : unvisited s.visited (([a] : List α).take (s.next - s.items.length)) ≤ 1 :=
      Nat.le_trans (unvisited_le_length _ _) (List.length_take_le' _ _)
    simp only [step, List.take_append, unvisited_append, List.length_append,
      List.length_singleton]
    omega

/-- An element is removed: the one at the position may move before it. -/
theorem Inv.remove {s : Sweep α} (h : s.Inv) (a : α) : (s.step (.remove a)).Inv := by
  by_cases ha : a ∈ s.items
  · obtain ⟨before, after, hnot, hitems, herase⟩ := List.exists_erase_eq ha
    obtain ⟨hnodup, hvisited, hahead, hpaid⟩ := h
    refine ⟨hnodup.erase a, hvisited, ?_, ?_⟩
    · intro b hb
      refine hahead b ?_
      simp only [step, herase, List.drop_append] at hb
      rw [hitems, List.drop_append]
      rcases List.mem_append.mp hb with hb | hb
      · exact List.mem_append_left _ hb
      · refine List.mem_append_right _ ?_
        cases hn : s.next - before.length with
        | zero =>
          rw [hn, List.drop_zero] at hb
          exact List.mem_cons_of_mem _ hb
        | succ n =>
          rw [hn] at hb
          rw [List.drop_succ_cons]
          exact List.drop_subset_drop_left _ (Nat.le_succ n) hb
    · rw [hitems] at hpaid
      simp only [step, herase, ha, true_and, List.take_append, unvisited_append, List.length_append,
        List.length_cons] at hpaid ⊢
      cases hn : s.next - before.length with
      | zero =>
        rw [hn, List.take_zero] at hpaid
        rw [List.take_zero]
        omega
      | succ n =>
        have hsucc := unvisited_take_succ_le s.visited after n
        rw [hn, List.take_succ_cons, unvisited_cons] at hpaid
        split_ifs at hpaid hsucc ⊢ <;> omega
  · have herase : s.items.erase a = s.items := List.erase_of_not_mem ha
    simpa only [step, herase, ha, false_and, if_false, Nat.add_zero] using h

/-- When the loop is at the end of the list, there are no more unvisited elements than it has
lost. -/
theorem Inv.unvisited_le {s : Sweep α} (h : s.Inv) (hend : s.items.length ≤ s.next) :
    unvisited s.visited s.items ≤ s.lost := by
  have hpaid := h.paid
  rw [List.take_of_length_le hend] at hpaid
  omega

end Sweep

/-! ## Where everything leaves -/

/-- Every other element, from the first on. -/
def evens : List α → List α
  | [] => []
  | [a] => [a]
  | a :: _ :: rest => a :: evens rest

omit [DecidableEq α] in
theorem length_evens (l : List α) : (evens l).length = (l.length + 1) / 2 := by
  fun_induction evens l with
  | case1 => simp
  | case2 => simp
  | case3 a b rest ih =>
    simp only [List.length_cons, ih]
    omega

/-- Every visited element is removed before the next turn. -/
def leaving (l : List α) : List (SweepAction α) := (evens l).flatMap fun a => [.visit, .remove a]

/-- A turn for an element that leaves: the one after it moves to its place, before the position. -/
theorem run_visit_remove {before : List α} {a : α} (hnot : a ∉ before) (rest visited : List α)
    (lost : ℕ) :
    runFrom Sweep.step { items := before ++ a :: rest, next := before.length, visited, lost }
        [.visit, .remove a] =
      { items := before ++ rest, next := before.length + 1, visited := visited ++ [a]
        lost := lost + 1 } := by
  simp [Sweep.step, List.erase_append_right _ hnot]

/-- Then only every other element is visited when the loop is at the end. -/
theorem sweep_evens (before l : List α) (visited : List α) (lost : ℕ) (h : (before ++ l).Nodup) :
    let s := runFrom Sweep.step { items := before ++ l, next := before.length, visited, lost }
      (leaving l)
    s.visited = visited ++ evens l ∧ s.items.length ≤ s.next := by
  induction l using evens.induct generalizing before visited lost with
  | case1 => simp [leaving, evens]
  | case2 a =>
    have hnot : a ∉ before := fun ha => (List.nodup_append.mp h).2.2 a ha a List.mem_cons_self rfl
    have hleaving : leaving [a] = [.visit, .remove a] := rfl
    rw [hleaving, run_visit_remove hnot]
    exact ⟨rfl, by simp⟩
  | case3 a b rest ih =>
    have hnot : a ∉ before := fun ha => (List.nodup_append.mp h).2.2 a ha a List.mem_cons_self rfl
    have hrest : (before ++ [b] ++ rest).Nodup := by
      rw [List.append_assoc]
      exact h.sublist ((List.sublist_cons_self a _).append_left before)
    have hleaving : leaving (a :: b :: rest) = [.visit, .remove a] ++ leaving rest := rfl
    have hevens : evens (a :: b :: rest) = [a] ++ evens rest := rfl
    have hturn := ih (before ++ [b]) (visited ++ [a]) (lost + 1) hrest
    rw [List.append_assoc before, List.length_append] at hturn
    rw [hleaving, runFrom_append, run_visit_remove hnot, hevens, ← List.append_assoc]
    exact hturn

end Theory
