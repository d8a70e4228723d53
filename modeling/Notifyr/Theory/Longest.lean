import Mathlib.Algebra.BigOperators.Group.List.Basic
import Mathlib.Algebra.GroupWithZero.Nat
import Mathlib.Algebra.Order.BigOperators.Group.List
import Mathlib.Data.Int.Order.Basic
import Mathlib.Data.List.Infix

/-!
# The longest beginning within a limit

Lists whose members have weights, their beginnings, and the longest of these that a limit allows.

- `weightSum`: the weight of a list; `weightSum_append`, `weightSum_le_of_prefix`.
- `prefix_of_weightSum_le`: beginnings of one list are ordered by their weights.
- `Longest`: a candidate within the limit such that no longer one is; `Longest.eq`: among the
  beginnings of one list there is one at most.
- `longest_of_weightSum_eq`: a candidate that has just the weight of the limit is one.
-/

namespace Theory

variable {α : Type} (w : α → ℕ)

/-- The weight of a list. -/
def weightSum (l : List α) : ℕ := (l.map w).sum

@[simp] theorem weightSum_nil : weightSum w [] = 0 := rfl

@[simp] theorem weightSum_cons (a : α) (l : List α) :
    weightSum w (a :: l) = w a + weightSum w l := List.sum_cons

@[simp] theorem weightSum_append (l l' : List α) :
    weightSum w (l ++ l') = weightSum w l + weightSum w l' := by
  unfold weightSum
  rw [List.map_append, List.sum_append]

theorem weightSum_le_of_prefix {l l' : List α} (h : l <+: l') :
    weightSum w l ≤ weightSum w l' := by
  obtain ⟨rest, rfl⟩ := h
  rw [weightSum_append]
  exact Nat.le_add_right _ _

variable {w} (hw : ∀ a, 0 < w a)

include hw

theorem weightSum_eq_zero_iff {l : List α} : weightSum w l = 0 ↔ l = [] := by
  cases l with
  | nil => exact iff_of_true rfl rfl
  | cons a l =>
    have ha := hw a
    refine iff_of_false ?_ (List.cons_ne_nil a l)
    rw [weightSum_cons]
    omega

/-- A beginning that weighs as much as the whole is the whole. -/
theorem eq_of_prefix_of_weightSum_le {l l' : List α} (h : l <+: l')
    (hle : weightSum w l' ≤ weightSum w l) : l = l' := by
  obtain ⟨rest, rfl⟩ := h
  rw [weightSum_append] at hle
  have hrest : rest = [] := (weightSum_eq_zero_iff hw).mp (by omega)
  rw [hrest, List.append_nil]

/-- Of two beginnings the lighter one is a beginning of the other. -/
theorem prefix_of_weightSum_le {l l₁ l₂ : List α} (h₁ : l₁ <+: l) (h₂ : l₂ <+: l)
    (hle : weightSum w l₁ ≤ weightSum w l₂) : l₁ <+: l₂ := by
  rcases List.prefix_or_prefix_of_prefix h₁ h₂ with h | h
  · exact h
  · rw [eq_of_prefix_of_weightSum_le hw h hle]

theorem weightSum_lt_of_prefix {l l' : List α} (h : l <+: l') (hne : l ≠ l') :
    weightSum w l < weightSum w l' := by
  by_contra hle
  exact hne (eq_of_prefix_of_weightSum_le hw h (Nat.not_lt.mp hle))

omit hw

/-- A candidate within a limit; every longer one is beyond it. -/
structure Longest (w : α → ℕ) (P : List α → Prop) (limit : ℤ) (l : List α) : Prop where
  candidate : P l
  fits : (weightSum w l : ℤ) ≤ limit
  next : ∀ l', P l' → l <+: l' → l ≠ l' → limit < weightSum w l'

/-- Beginnings of one list: there is one longest at most. -/
theorem Longest.eq {P : List α → Prop} {limit : ℤ} {whole l l' : List α}
    (hP : ∀ l, P l → l <+: whole) (h : Longest w P limit l) (h' : Longest w P limit l') :
    l = l' := by
  rcases List.prefix_or_prefix_of_prefix (hP l h.candidate) (hP l' h'.candidate) with hpre | hpre
  · by_contra hne
    exact absurd h'.fits (Int.not_le.mpr (h.next l' h'.candidate hpre hne))
  · by_contra hne
    exact absurd h.fits (Int.not_le.mpr (h'.next l h.candidate hpre (Ne.symm hne)))

include hw

/-- A candidate with the weight of the limit is a longest one. -/
theorem longest_of_weightSum_eq {P : List α → Prop} {l : List α} (h : P l) :
    Longest w P (weightSum w l) l where
  candidate := h
  fits := Int.le_refl _
  next _ _ hpre hne := by
    have hlt := weightSum_lt_of_prefix hw hpre hne
    exact Int.ofNat_lt.mpr hlt

end Theory
