import Mathlib.Data.List.Nodup
import Mathlib.Data.List.Perm.Basic

/-!
# Rows that are marked

Rows of a table that are selected by a condition and then updated by their identifiers.

- `selectIds`, `markAs`: the selection, and the update.
- `markAs_selectIds`: where identifiers stand once, the rows that are updated are those that were
  selected, also if they have been changed in between.
- `flatMap_filter_perm`: selections with no row in common, put together.
-/

namespace Theory

section Marking

variable {ρ ι : Type} [DecidableEq ι]

/-- `UPDATE ... WHERE id = ANY(ids)`. -/
def markAs (id : ρ → ι) (set : ρ → ρ) (ids : List ι) (rows : List ρ) : List ρ :=
  rows.map fun row => if id row ∈ ids then set row else row

/-- `ARRAY(SELECT id ... WHERE ...)`. -/
def selectIds (id : ρ → ι) (cond : ρ → Bool) (rows : List ρ) : List ι :=
  (rows.filter cond).map id

variable {id : ρ → ι} {set : ρ → ρ} {cond : ρ → Bool} {rows : List ρ}

omit [DecidableEq ι] in
/-- Where identifiers stand once, an identifier was selected for its own row. -/
theorem mem_selectIds_iff (hunique : (rows.map id).Nodup) {row : ρ} (hrow : row ∈ rows) :
    id row ∈ selectIds id cond rows ↔ cond row = true := by
  unfold selectIds
  rw [List.mem_map]
  constructor
  · rintro ⟨other, hother, hid⟩
    obtain ⟨hmem, hcond⟩ := List.mem_filter.mp hother
    rw [List.inj_on_of_nodup_map hunique hmem hrow hid] at hcond
    exact hcond
  · intro hcond
    exact ⟨row, List.mem_filter.mpr ⟨hrow, hcond⟩, rfl⟩

/-- Rows that were selected before they were changed by `f`. -/
theorem markAs_selectIds (hunique : (rows.map id).Nodup) {f : ρ → ρ} (hf : ∀ row, id (f row) = id row) :
    markAs id set (selectIds id cond rows) (rows.map f) =
      rows.map fun row => if cond row then set (f row) else f row := by
  unfold markAs
  rw [List.map_map]
  refine List.map_congr_left fun row hrow => ?_
  show (if id (f row) ∈ selectIds id cond rows then _ else _) = _
  rw [hf]
  exact if_congr (mem_selectIds_iff hunique hrow) rfl rfl

omit [DecidableEq ι] in
theorem selectIds_map {f : ρ → ρ} (hf : ∀ row, id (f row) = id row)
    (hcond : ∀ row, cond (f row) = cond row) :
    selectIds id cond (rows.map f) = selectIds id cond rows := by
  unfold selectIds
  rw [List.filter_map, List.map_map]
  have hfilter : rows.filter (cond ∘ f) = rows.filter cond :=
    List.filter_congr fun row _ => hcond row
  rw [hfilter]
  exact List.map_congr_left fun row _ => hf row

omit [DecidableEq ι] in
theorem length_selectIds : (selectIds id cond rows).length = (rows.filter cond).length :=
  List.length_map id

/-- Selections that have no row in common are, put together, one selection. -/
theorem flatMap_filter_perm {α : Type} (p : α → ρ → Bool) {l : List α}
    (hdisjoint : l.Pairwise fun a b => ∀ row, p a row = true → p b row = false) (rows : List ρ) :
    (l.flatMap fun a => rows.filter (p a)).Perm (rows.filter fun row => l.any fun a => p a row) := by
  induction l with
  | nil =>
    rw [List.flatMap_nil]
    have hnone : (rows.filter fun row => ([] : List α).any fun a => p a row) = [] :=
      List.filter_eq_nil_iff.mpr fun row _ => Bool.false_ne_true
    rw [hnone]
  | cons a l ih =>
    obtain ⟨hfirst, hrest⟩ := List.pairwise_cons.mp hdisjoint
    rw [List.flatMap_cons]
    have hp : (rows.filter fun row => (a :: l).any fun b => p b row).filter (p a) =
        rows.filter (p a) := by
      rw [List.filter_filter]
      refine List.filter_congr fun row _ => ?_
      rw [List.any_cons]
      cases p a row <;> rfl
    have hnot : (rows.filter fun row => (a :: l).any fun b => p b row).filter
        (fun row => !p a row) = rows.filter fun row => l.any fun b => p b row := by
      rw [List.filter_filter]
      refine List.filter_congr fun row _ => ?_
      rw [List.any_cons]
      cases hpa : p a row with
      | false => rfl
      | true =>
        have hnone : (l.any fun b => p b row) = false := by
          rw [List.any_eq_false]
          intro b hb hpb
          rw [hfirst b hb row hpa] at hpb
          cases hpb
        rw [hnone]
        rfl
    have hsplit := List.filter_append_perm (p a) (rows.filter fun row => (a :: l).any fun b => p b row)
    rw [hp, hnot] at hsplit
    exact ((ih hrest).append_left _).trans hsplit

end Marking

end Theory
