import Mathlib.Data.List.Basic
import Notifyr.Theory.Runs

/-!
# What a run leaves behind

The entries that the steps of a run write, and the parts of a state that are read off them.

- `logOf`: the entries, in order; `logOf_append`: of two runs in a row.
- `getLast_logOf`: a field that each entry overwrites is the last entry.
- `append_logOf`: a list that each entry is added to is all of them.
- `forall_logOf`: what an invariant gives of each entry holds of all.
-/

namespace Theory

section Log

variable {σ α β : Type} (step : σ → α → σ) (out : σ → α → Option β)

/-- What the steps of a run write. -/
def logOf : σ → List α → List β
  | _, [] => []
  | s, a :: as => (out s a).toList ++ logOf (step s a) as

variable {step out} {s : σ} {as : List α}

theorem logOf_append {bs : List α} :
    logOf step out s (as ++ bs) = logOf step out s as ++ logOf step out (runFrom step s as) bs := by
  induction as generalizing s with
  | nil => rfl
  | cons a as ih =>
    rw [List.cons_append, logOf, logOf, ih, List.append_assoc]
    rfl

theorem getLast_toList (o : Option β) : o.toList.getLast? = o := by
  cases o <;> rfl

/-- **What is overwritten.** -/
theorem getLast_logOf {q : σ → Option β} (hstep : ∀ s a, q (step s a) = (out s a).or (q s)) :
    q (runFrom step s as) = ((logOf step out s as).getLast?).or (q s) := by
  induction as generalizing s with
  | nil => rfl
  | cons a as ih =>
    calc q (runFrom step s (a :: as))
        = ((logOf step out (step s a) as).getLast?).or (q (step s a)) := ih
      _ = (((logOf step out (step s a) as).getLast?).or (out s a)).or (q s) := by
          rw [hstep, Option.or_assoc]
      _ = ((logOf step out s (a :: as)).getLast?).or (q s) := by
          rw [logOf, List.getLast?_append, getLast_toList]

/-- **What is collected.** -/
theorem append_logOf {q : σ → List β} (hstep : ∀ s a, q (step s a) = q s ++ (out s a).toList) :
    q (runFrom step s as) = q s ++ logOf step out s as := by
  induction as generalizing s with
  | nil => exact (List.append_nil _).symm
  | cons a as ih =>
    rw [runFrom_cons, ih, hstep, logOf, List.append_assoc]

/-- What holds of every entry. -/
theorem forall_logOf {I : σ → Prop} {C : α → Prop} {P : β → Prop}
    (hstep : ∀ s a, I s → C a → I (step s a) ∧ ∀ b ∈ out s a, P b) (hs : I s)
    (has : ∀ a ∈ as, C a) : ∀ b ∈ logOf step out s as, P b := by
  induction as generalizing s with
  | nil => exact List.forall_mem_nil _
  | cons a as ih =>
    obtain ⟨ha, has⟩ := List.forall_mem_cons.mp has
    obtain ⟨hinv, hout⟩ := hstep s a hs ha
    intro b hb
    rcases List.mem_append.mp hb with hb | hb
    · exact hout b (Option.mem_toList.mp hb)
    · exact ih hinv has b hb

end Log

end Theory
