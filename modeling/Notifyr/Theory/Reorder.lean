import Mathlib.Data.List.Perm.Basic

/-!
# Collecting in any order

What is collected from the elements of a list, and when it does not depend on their order.

- `flatMap_perm_iff`: lists put end to end are the same in every order exactly if any two of
  them commute.
- `Agree`: two elements never answer differently.
- `findSome?_perm_iff`: the first answer is the same in every order exactly if the elements
  agree; `findSome?_reverse_perm_iff` is the same for the last answer.
-/

namespace Theory

variable {α β : Type}

/-- Two different elements can be moved to the front. -/
theorem exists_perm_pair {l : List α} {a b : α} (ha : a ∈ l) (hb : b ∈ l) (hab : a ≠ b) :
    ∃ rest, (a :: b :: rest).Perm l := by
  obtain ⟨s, t, rfl⟩ := List.append_of_mem ha
  have hb : b ∈ s ++ t := by
    rcases List.mem_append.mp hb with h | h
    · exact List.mem_append_left _ h
    · exact List.mem_append_right _ ((List.mem_cons.mp h).resolve_left (Ne.symm hab))
  obtain ⟨s', t', heq⟩ := List.append_of_mem hb
  refine ⟨s' ++ t', ?_⟩
  have hrest : (b :: (s' ++ t')).Perm (s ++ t) := by
    rw [heq]
    exact List.perm_middle.symm
  exact (hrest.cons a).trans List.perm_middle.symm

/-- One element can be moved to the front. -/
theorem exists_perm_cons {l : List α} {a : α} (ha : a ∈ l) : ∃ rest, (a :: rest).Perm l := by
  obtain ⟨s, t, rfl⟩ := List.append_of_mem ha
  exact ⟨s ++ t, List.perm_middle.symm⟩

/-! ## Lists end to end -/

theorem flatMap_perm_of_commute (f : α → List β) {l l' : List α} (h : l'.Perm l)
    (hc : ∀ a ∈ l, ∀ b ∈ l, f a ++ f b = f b ++ f a) : l'.flatMap f = l.flatMap f := by
  induction h with
  | nil => rfl
  | cons x h ih =>
    rw [List.flatMap_cons, List.flatMap_cons, ih fun a ha b hb =>
      hc a (List.mem_cons_of_mem _ ha) b (List.mem_cons_of_mem _ hb)]
  | swap x y l =>
    have hxy := hc x List.mem_cons_self y (List.mem_cons_of_mem _ List.mem_cons_self)
    rw [List.flatMap_cons, List.flatMap_cons, List.flatMap_cons, List.flatMap_cons,
      ← List.append_assoc, ← List.append_assoc, hxy]
  | trans h₁ h₂ ih₁ ih₂ =>
    have hmid := ih₂ hc
    have hc' := fun a ha b hb => hc a (h₂.mem_iff.mp ha) b (h₂.mem_iff.mp hb)
    exact (ih₁ hc').trans hmid

/-- **Lists end to end are the same in every order exactly if any two of them commute.** -/
theorem flatMap_perm_iff (f : α → List β) (l : List α) :
    (∀ l' : List α, l'.Perm l → l'.flatMap f = l.flatMap f) ↔
      ∀ a ∈ l, ∀ b ∈ l, f a ++ f b = f b ++ f a := by
  constructor
  · intro h a ha b hb
    by_cases hab : a = b
    · rw [hab]
    · obtain ⟨rest, hrest⟩ := exists_perm_pair ha hb hab
      -- the two in front, both ways round: what follows them cancels
      have hswap := (List.Perm.swap a b rest).trans hrest
      have heq := (h _ hrest).trans (h _ hswap).symm
      rw [List.flatMap_cons, List.flatMap_cons, List.flatMap_cons, List.flatMap_cons,
        ← List.append_assoc, ← List.append_assoc] at heq
      exact List.append_cancel_right heq
  · exact fun hc l' hl' => flatMap_perm_of_commute f hl' hc

/-! ## The first and the last answer -/

/-- Elements that answer, answer the same. -/
def Agree (f : α → Option β) (l : List α) : Prop :=
  ∀ a ∈ l, ∀ b ∈ l, ∀ x y, f a = some x → f b = some y → x = y

theorem Agree.of_mem {f : α → Option β} {l l' : List α} (h : Agree f l)
    (hsub : ∀ a ∈ l', a ∈ l) : Agree f l' :=
  fun a ha b hb => h a (hsub a ha) b (hsub b hb)

/-- Among elements that agree, an answer is any element's answer. -/
theorem Agree.findSome?_eq_some_iff {f : α → Option β} {l : List α} (h : Agree f l) (x : β) :
    l.findSome? f = some x ↔ ∃ a ∈ l, f a = some x := by
  constructor
  · exact List.exists_of_findSome?_eq_some
  · rintro ⟨a, ha, hx⟩
    cases hfind : l.findSome? f with
    | none =>
      rw [List.findSome?_eq_none_iff.mp hfind a ha] at hx
      cases hx
    | some y =>
      obtain ⟨b, hb, hy⟩ := List.exists_of_findSome?_eq_some hfind
      rw [h a ha b hb x y hx hy]

theorem Agree.findSome?_perm {f : α → Option β} {l l' : List α} (h : Agree f l)
    (hl : l'.Perm l) : l'.findSome? f = l.findSome? f := by
  have h' : Agree f l' := h.of_mem fun a ha => hl.mem_iff.mp ha
  refine Option.ext fun x => ?_
  rw [h'.findSome?_eq_some_iff, h.findSome?_eq_some_iff]
  simp only [hl.mem_iff]

/-- **The first answer is the same in every order exactly if the elements agree.** -/
theorem findSome?_perm_iff (f : α → Option β) (l : List α) :
    (∀ l' : List α, l'.Perm l → l'.findSome? f = l.findSome? f) ↔ Agree f l := by
  constructor
  · intro h a ha b hb x y hx hy
    obtain ⟨resta, hresta⟩ := exists_perm_cons ha
    obtain ⟨restb, hrestb⟩ := exists_perm_cons hb
    -- each of the two in front answers for the list
    have heq := (h _ hresta).trans (h _ hrestb).symm
    rw [List.findSome?_cons, List.findSome?_cons, hx, hy] at heq
    exact Option.some.inj heq
  · exact fun h l' hl' => h.findSome?_perm hl'

/-- A default for the case that no element answers changes nothing. -/
theorem findSome?_getD_perm_iff (f : α → Option β) (d : β) (l : List α) :
    (∀ l' : List α, l'.Perm l → (l'.findSome? f).getD d = (l.findSome? f).getD d) ↔
      Agree f l := by
  rw [← findSome?_perm_iff]
  constructor
  · intro h l' hl'
    have hd := h l' hl'
    cases hl : l.findSome? f with
    | none =>
      refine List.findSome?_eq_none_iff.mpr fun a ha => ?_
      exact List.findSome?_eq_none_iff.mp hl a (hl'.mem_iff.mp ha)
    | some y =>
      cases hr : l'.findSome? f with
      | none =>
        obtain ⟨b, hb, hy⟩ := List.exists_of_findSome?_eq_some hl
        rw [List.findSome?_eq_none_iff.mp hr b (hl'.mem_iff.mpr hb)] at hy
        cases hy
      | some x =>
        rw [hl, hr] at hd
        exact congrArg some hd
  · intro h l' hl'
    rw [h l' hl']

theorem forall_perm_reverse_iff {γ : Type} (g : List α → γ) (l : List α) :
    (∀ l' : List α, l'.Perm l → g l'.reverse = g l.reverse) ↔
      ∀ l' : List α, l'.Perm l.reverse → g l' = g l.reverse := by
  constructor
  · intro h l' hl'
    have hrev := h l'.reverse ((List.reverse_perm l').trans (hl'.trans (List.reverse_perm l)))
    rwa [List.reverse_reverse] at hrev
  · intro h l' hl'
    exact h _ ((List.reverse_perm l').trans (hl'.trans (List.reverse_perm l).symm))

theorem agree_reverse_iff (f : α → Option β) (l : List α) : Agree f l.reverse ↔ Agree f l :=
  ⟨fun h => h.of_mem fun _ ha => List.mem_reverse.mpr ha,
    fun h => h.of_mem fun _ ha => List.mem_reverse.mp ha⟩

/-- **The last answer is the same in every order exactly if the elements agree.** -/
theorem findSome?_reverse_perm_iff (f : α → Option β) (l : List α) :
    (∀ l' : List α, l'.Perm l → l'.reverse.findSome? f = l.reverse.findSome? f) ↔
      Agree f l := by
  rw [forall_perm_reverse_iff (List.findSome? f), findSome?_perm_iff, agree_reverse_iff]

theorem findSome?_reverse_getD_perm_iff (f : α → Option β) (d : β) (l : List α) :
    (∀ l' : List α, l'.Perm l →
      (l'.reverse.findSome? f).getD d = (l.reverse.findSome? f).getD d) ↔ Agree f l := by
  rw [forall_perm_reverse_iff fun l => (l.findSome? f).getD d, findSome?_getD_perm_iff,
    agree_reverse_iff]

end Theory
