import Mathlib.Data.List.Perm.Basic
import Mathlib.Data.List.Nodup
import Mathlib.Logic.Relation
import Mathlib.Order.WellFounded
import Mathlib.Data.Set.Finite.List
import Mathlib.Order.RelClasses

/-!
# Peeling a dependency graph

Topological sorting by layers: remove all elements without a dependency among the rest, and
again, until nothing is left or nothing can be removed.

- `ready`: the elements of a list without a dependency in the list.
- `kahn`: the elements in the order they are removed, and those that are left.
- `kahn_perm`, `kahn_before`: nothing is lost, and dependencies come first.
- `DependsIn`, `Acyclic`: the relation restricted to a list, and that it has no cycle.
- `kahn_rest_iff`: nothing is left exactly if there is no cycle.
-/

namespace Theory

open Relation

variable {α : Type} [DecidableEq α] (deps : α → List α)

/-- The elements of `D` without a dependency in `D`. -/
def ready (D : List α) : List α := D.filter fun x => ∀ y ∈ D, y ∉ deps x

theorem mem_ready_iff (D : List α) (x : α) :
    x ∈ ready deps D ↔ x ∈ D ∧ ∀ y ∈ D, y ∉ deps x := by
  unfold ready
  rw [List.mem_filter, decide_eq_true_iff]

/-- What is left when the ready elements are removed. -/
def unready (D : List α) : List α := D.filter fun x => x ∉ ready deps D

theorem mem_unready_iff (D : List α) (x : α) :
    x ∈ unready deps D ↔ x ∈ D ∧ x ∉ ready deps D := by
  unfold unready
  rw [List.mem_filter, decide_eq_true_iff]

/-- Removing something makes the list shorter. -/
theorem length_unready_lt {D : List α} (h : ready deps D ≠ []) :
    (unready deps D).length < D.length := by
  obtain ⟨x, hx⟩ := List.exists_mem_of_ne_nil _ h
  refine List.length_filter_lt_length_iff_exists.mpr ⟨x, ((mem_ready_iff deps D x).mp hx).1, ?_⟩
  simpa using hx

/-- The elements of `D` in the order in which they are removed, and those that are left. -/
def kahn (D : List α) : List α × List α :=
  if h : ready deps D = [] then ([], D)
  else
    have := length_unready_lt deps h
    let rest := kahn (unready deps D)
    (ready deps D ++ rest.1, rest.2)
termination_by D.length

theorem kahn_stop {D : List α} (h : ready deps D = []) : kahn deps D = ([], D) := by
  rw [kahn, dif_pos h]

theorem kahn_peel {D : List α} (h : ready deps D ≠ []) :
    kahn deps D = (ready deps D ++ (kahn deps (unready deps D)).1,
      (kahn deps (unready deps D)).2) := by
  rw [kahn, dif_neg h]

/-- Induction along the peeling. -/
theorem peel_induction {motive : List α → Prop}
    (stop : ∀ D, ready deps D = [] → motive D)
    (peel : ∀ D, ready deps D ≠ [] → motive (unready deps D) → motive D) (D : List α) :
    motive D := by
  induction hn : D.length using Nat.strong_induction_on generalizing D with
  | _ n ih =>
    by_cases h : ready deps D = []
    · exact stop D h
    · refine peel D h (ih _ ?_ _ rfl)
      rw [← hn]
      exact length_unready_lt deps h

theorem ready_append_unready (D : List α) : (ready deps D ++ unready deps D).Perm D := by
  have hready : ready deps D = D.filter fun x => x ∈ ready deps D := by
    refine List.filter_congr fun x hx => ?_
    rw [decide_eq_decide, mem_ready_iff]
    exact ⟨fun h => ⟨hx, h⟩, And.right⟩
  unfold unready
  nth_rewrite 1 [hready]
  simpa using List.filter_append_perm (fun x => decide (x ∈ ready deps D)) D

/-- **Nothing is lost.** -/
theorem kahn_perm (D : List α) : ((kahn deps D).1 ++ (kahn deps D).2).Perm D := by
  induction D using peel_induction deps with
  | stop D h => rw [kahn_stop deps h, List.nil_append]
  | peel D h ih =>
    rw [kahn_peel deps h, List.append_assoc]
    exact (ih.append_left _).trans (ready_append_unready deps D)

/-- **Dependencies come first.** -/
theorem kahn_before (D : List α) {pre : List α} {x : α} {post : List α}
    (h : (kahn deps D).1 = pre ++ x :: post) : ∀ y ∈ deps x, y ∈ D → y ∈ pre := by
  induction D using peel_induction deps generalizing pre with
  | stop D hstop =>
    rw [kahn_stop deps hstop] at h
    exact absurd h.symm (by simp)
  | peel D hpeel ih =>
    rw [kahn_peel deps hpeel] at h
    intro y hy hD
    rcases List.append_eq_append_iff.mp h with ⟨mid, hpre, hrest⟩ | ⟨mid, hready, hpost⟩
    · -- `x` is removed later: a ready dependency is in front, another one is left with `x`
      rw [hpre]
      by_cases hr : y ∈ ready deps D
      · exact List.mem_append_left _ hr
      · exact List.mem_append_right _
          (ih hrest y hy ((mem_unready_iff deps D y).mpr ⟨hD, hr⟩))
    · cases mid with
      | nil =>
        -- `x` is the first one of the next layer, so no dependency of it is left
        rw [List.append_nil] at hready
        rw [List.nil_append] at hpost
        rw [← hready]
        by_contra hr
        exact List.not_mem_nil
          (ih (show _ = [] ++ x :: post from hpost.symm) y hy
            ((mem_unready_iff deps D y).mpr ⟨hD, hr⟩))
      | cons z mid =>
        -- `x` is ready, so it has no dependency in `D`
        obtain ⟨rfl, -⟩ := List.cons.inj hpost
        have hx : x ∈ ready deps D := by
          rw [hready]
          exact List.mem_append_right _ List.mem_cons_self
        exact absurd hy (((mem_ready_iff deps D x).mp hx).2 y hD)

/-- What is left has no ready element. -/
theorem ready_kahn_rest (D : List α) : ready deps (kahn deps D).2 = [] := by
  induction D using peel_induction deps with
  | stop D h => rw [kahn_stop deps h, h]
  | peel D h ih => rw [kahn_peel deps h, ih]

/-! ## Cycles -/

/-- `x` depends on `y`, both in `D`. -/
def DependsIn (D : List α) (x y : α) : Prop := x ∈ D ∧ y ∈ D ∧ y ∈ deps x

/-- No element of `D` depends on itself through elements of `D`. -/
def Acyclic (D : List α) : Prop := ∀ x, ¬ TransGen (DependsIn deps D) x x

omit [DecidableEq α] in
/-- Only what a relation holds, and where, makes a cycle. -/
theorem acyclic_congr {deps' : α → List α} {D D' : List α} (hD : ∀ x, x ∈ D ↔ x ∈ D')
    (hdeps : ∀ x ∈ D, ∀ y, y ∈ deps x ↔ y ∈ deps' x) : Acyclic deps D ↔ Acyclic deps' D' := by
  have h : DependsIn deps D = DependsIn deps' D' := by
    funext x y
    refine propext ⟨?_, ?_⟩
    · rintro ⟨hx, hy, hxy⟩
      exact ⟨(hD x).mp hx, (hD y).mp hy, (hdeps x hx y).mp hxy⟩
    · rintro ⟨hx, hy, hxy⟩
      have hx := (hD x).mpr hx
      exact ⟨hx, (hD y).mpr hy, (hdeps x hx y).mpr hxy⟩
  unfold Acyclic
  rw [h]

omit [DecidableEq α] in
/-- A relation on a list all of whose elements are related to one of the list has a cycle. -/
theorem exists_cycle {D : List α} (hne : D ≠ []) (hD : ∀ x ∈ D, ∃ y ∈ D, y ∈ deps x) :
    ∃ x, TransGen (DependsIn deps D) x x := by
  by_contra hno
  push Not at hno
  let R : {x // x ∈ D} → {x // x ∈ D} → Prop := fun y x => TransGen (DependsIn deps D) x y
  have htrans : IsTrans _ R := ⟨fun _ _ _ hab hbc => hbc.trans hab⟩
  have hirrefl : Std.Irrefl R := ⟨fun x hx => hno x hx⟩
  have hfin : Finite {x // x ∈ D} := (List.finite_toSet D).to_subtype
  have hwf : WellFounded R := Finite.wellFounded_of_trans_of_irrefl R
  obtain ⟨x, hx⟩ := List.exists_mem_of_ne_nil _ hne
  -- a minimal element has a dependency below it
  obtain ⟨m, -, hmin⟩ := hwf.has_min Set.univ ⟨⟨x, hx⟩, trivial⟩
  obtain ⟨y, hy, hym⟩ := hD m m.2
  exact hmin ⟨y, hy⟩ trivial (TransGen.single ⟨m.2, hy, hym⟩)

/-- In the order, a dependency stands before what depends on it. -/
theorem kahn_idxOf_lt {D : List α} (hnd : D.Nodup) (hrest : (kahn deps D).2 = []) {a b : α}
    (h : DependsIn deps D a b) : (kahn deps D).1.idxOf b < (kahn deps D).1.idxOf a := by
  obtain ⟨ha, hb, hab⟩ := h
  have hperm := kahn_perm deps D
  rw [hrest, List.append_nil] at hperm
  obtain ⟨pre, post, hpre⟩ := List.append_of_mem (hperm.mem_iff.mpr ha)
  have hbpre : b ∈ pre := kahn_before deps D hpre b hab hb
  have hapre : a ∉ pre := by
    have hnd' := hperm.nodup_iff.mpr hnd
    rw [hpre] at hnd'
    exact fun h => (List.nodup_append.mp hnd').2.2 a h a List.mem_cons_self rfl
  rw [hpre, List.idxOf_append_of_mem hbpre, List.idxOf_append_of_notMem hapre]
  exact (List.idxOf_lt_length_of_mem hbpre).trans_le (Nat.le_add_right _ _)

theorem acyclic_of_kahn_rest {D : List α} (hnd : D.Nodup) (hrest : (kahn deps D).2 = []) :
    Acyclic deps D := by
  intro x hx
  -- along dependencies the position in the order decreases
  have hlt : ∀ b, TransGen (DependsIn deps D) x b →
      (kahn deps D).1.idxOf b < (kahn deps D).1.idxOf x := by
    intro b hb
    induction hb with
    | single h => exact kahn_idxOf_lt deps hnd hrest h
    | tail _ h ih => exact (kahn_idxOf_lt deps hnd hrest h).trans ih
  exact lt_irrefl _ (hlt x hx)

theorem kahn_rest_of_acyclic {D : List α} (hac : Acyclic deps D) : (kahn deps D).2 = [] := by
  by_contra hne
  have hsub : ∀ x ∈ (kahn deps D).2, x ∈ D :=
    fun x hx => (kahn_perm deps D).mem_iff.mp (List.mem_append_right _ hx)
  -- nothing that is left is ready, so each waits for another one that is left
  have hstuck : ∀ x ∈ (kahn deps D).2, ∃ y ∈ (kahn deps D).2, y ∈ deps x := by
    intro x hx
    by_contra hno
    push Not at hno
    have hr := (mem_ready_iff deps _ x).mpr ⟨hx, hno⟩
    rw [ready_kahn_rest] at hr
    exact List.not_mem_nil hr
  obtain ⟨x, hx⟩ := exists_cycle deps hne hstuck
  refine hac x (TransGen.mono ?_ _ _ hx)
  rintro a b ⟨ha, hb, hab⟩
  exact ⟨hsub a ha, hsub b hb, hab⟩

/-- **Nothing is left exactly if there is no cycle.** -/
theorem kahn_rest_iff {D : List α} (hnd : D.Nodup) :
    (kahn deps D).2 = [] ↔ Acyclic deps D :=
  ⟨acyclic_of_kahn_rest deps hnd, kahn_rest_of_acyclic deps⟩

end Theory
