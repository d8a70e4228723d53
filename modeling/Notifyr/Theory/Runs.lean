import Mathlib.Order.Basic

/-!
# Runs of a state machine

A state machine given by one total step function, and what holds along its finite runs.

- `runFrom`: the state a list of actions leads to.
- `Always`: a condition on the state before a step and on its action, at every step of a run.
- `always_iff`: the same by splitting the list of actions; `always_append`: of two runs in a row.
- `AtEach`: a condition on each entry of a trace and on what came before it.
- `always_of_inv`: the induction rule. Where an invariant and a condition on a step give what is
  wanted of the step and the invariant after it, every run whose steps meet the condition is as
  wanted at every step.
-/

namespace Theory

section Runs

variable {σ α : Type} (step : σ → α → σ)

/-- The state after a list of actions. -/
def runFrom (s : σ) (as : List α) : σ := as.foldl step s

/-- At every step of the run of `as` from `s`, `P` holds of the state before and the action. -/
def Always (P : σ → α → Prop) : σ → List α → Prop
  | _, [] => True
  | s, a :: as => P s a ∧ Always P (step s a) as

instance Always.decidable (P : σ → α → Prop) [∀ s a, Decidable (P s a)] :
    ∀ (s : σ) (as : List α), Decidable (Always step P s as)
  | _, [] => isTrue trivial
  | s, a :: as =>
    have := Always.decidable P (step s a) as
    inferInstanceAs (Decidable (P s a ∧ Always step P (step s a) as))

@[simp] theorem runFrom_nil (s : σ) : runFrom step s [] = s := rfl

@[simp] theorem runFrom_cons (s : σ) (a : α) (as : List α) :
    runFrom step s (a :: as) = runFrom step (step s a) as := rfl

theorem runFrom_append (s : σ) (as bs : List α) :
    runFrom step s (as ++ bs) = runFrom step (runFrom step s as) bs := List.foldl_append

variable {step} {P Q : σ → α → Prop} {s : σ} {as : List α}

/-- A condition holds along a run if it holds wherever the run is split before an action. -/
theorem always_iff :
    Always step P s as ↔
      ∀ before a after, as = before ++ a :: after → P (runFrom step s before) a := by
  induction as generalizing s with
  | nil =>
    refine iff_of_true trivial fun before a after h => ?_
    cases before <;> cases h
  | cons b bs ih =>
    constructor
    · rintro ⟨hb, hbs⟩ before a after h
      cases before with
      | nil =>
        cases h
        exact hb
      | cons c rest =>
        cases h
        exact ih.mp hbs rest a after rfl
    · intro h
      refine ⟨h [] b bs rfl, ih.mpr fun before a after hsplit => ?_⟩
      exact h (b :: before) a after (congrArg (b :: ·) hsplit)

theorem Always.mono (himp : ∀ s a, P s a → Q s a) (h : Always step P s as) :
    Always step Q s as := by
  induction as generalizing s with
  | nil => trivial
  | cons a as ih => exact ⟨himp s a h.1, ih h.2⟩

/-- The actions of a run are the members of its list. -/
theorem Always.with_mem (h : Always step P s as) :
    Always step (fun s a => P s a ∧ a ∈ as) s as := by
  refine always_iff.mpr fun before a after hsplit => ⟨always_iff.mp h before a after hsplit, ?_⟩
  rw [hsplit]
  exact List.mem_append_right _ List.mem_cons_self

/-- A condition along a run is one along its first part and one along the rest. -/
theorem always_append {bs : List α} :
    Always step P s (as ++ bs) ↔ Always step P s as ∧ Always step P (runFrom step s as) bs := by
  induction as generalizing s with
  | nil => exact ⟨fun h => ⟨trivial, h⟩, And.right⟩
  | cons a as ih =>
    constructor
    · rintro ⟨ha, hrest⟩
      obtain ⟨has, hbs⟩ := ih.mp hrest
      exact ⟨⟨ha, has⟩, hbs⟩
    · rintro ⟨⟨ha, has⟩, hbs⟩
      exact ⟨ha, ih.mpr ⟨has, hbs⟩⟩

/-- A condition along a run holds along its first part. -/
theorem Always.of_append {bs : List α} (h : Always step P s (as ++ bs)) : Always step P s as :=
  (always_append.mp h).1

/-- **The induction rule.** -/
theorem always_of_inv {I : σ → Prop} {C : σ → α → Prop}
    (hstep : ∀ s a, I s → C s a → Q s a ∧ I (step s a)) (hs : I s)
    (h : Always step C s as) : Always step Q s as ∧ I (runFrom step s as) := by
  induction as generalizing s with
  | nil => exact ⟨trivial, hs⟩
  | cons a as ih =>
    obtain ⟨hq, hinv⟩ := hstep s a hs h.1
    obtain ⟨hrest, hend⟩ := ih hinv h.2
    exact ⟨⟨hq, hrest⟩, hend⟩

/-- Two conditions that an invariant makes the same hold along the same runs. -/
theorem always_congr_of_inv {I : σ → Prop} (hstep : ∀ s a, I s → I (step s a))
    (hiff : ∀ s a, I s → (P s a ↔ Q s a)) (hs : I s) :
    Always step P s as ↔ Always step Q s as := by
  induction as generalizing s with
  | nil => exact Iff.rfl
  | cons a as ih => exact and_congr (hiff s a hs) (ih (hstep s a hs))

/-- The same where the invariant is kept by steps that meet the one condition. -/
theorem always_congr_of_step {I : σ → Prop} (hstep : ∀ s a, I s → P s a → I (step s a))
    (hiff : ∀ s a, I s → (P s a ↔ Q s a)) (hs : I s) :
    Always step P s as ↔ Always step Q s as := by
  induction as generalizing s with
  | nil => exact Iff.rfl
  | cons a as ih =>
    constructor
    · rintro ⟨hp, hrest⟩
      exact ⟨(hiff s a hs).1 hp, (ih (hstep s a hs hp)).1 hrest⟩
    · rintro ⟨hq, hrest⟩
      have hp := (hiff s a hs).2 hq
      exact ⟨hp, (ih (hstep s a hs hp)).2 hrest⟩

end Runs

/-! ## Traces -/

section Traces

variable {α : Type} {R : List α → α → Prop} {s t : List α}

/-- Each entry of a trace stands in relation `R` to what came before it. -/
def AtEach (R : List α → α → Prop) (t : List α) : Prop :=
  ∀ before a after, t = before ++ a :: after → R before a

theorem atEach_nil : AtEach R [] := by
  intro before a after h
  cases before <;> cases h

/-- An entry in front: it has nothing before it, and the others have it before them. -/
theorem atEach_cons {a : α} (ha : R [] a) (ht : AtEach (fun before b => R (a :: before) b) t) :
    AtEach R (a :: t) := by
  intro before b after h
  cases before with
  | nil =>
    cases h
    exact ha
  | cons c before =>
    obtain ⟨hac, hrest⟩ := List.cons.inj h
    subst hac
    exact ht before b after hrest

/-- Two traces, one after the other, where more before an entry does no harm. -/
theorem AtEach.append (hmono : ∀ before before' a, R before a → R (before' ++ before) a)
    (hs : AtEach R s) (ht : AtEach R t) : AtEach R (s ++ t) := by
  intro before a after h
  rcases List.append_eq_append_iff.mp h with ⟨mid, rfl, hmid⟩ | ⟨mid, hmid, hafter⟩
  · exact hmono _ _ _ (ht mid a after hmid)
  · cases mid with
    | nil =>
      rw [List.nil_append] at hafter
      rw [List.append_nil] at hmid
      have := ht [] a after hafter.symm
      rw [← hmid, ← List.append_nil s]
      exact hmono _ _ _ this
    | cons b mid =>
      obtain ⟨rfl, -⟩ := List.cons.inj hafter
      exact hs before _ mid hmid

/-- Another relation, for the entries that are there and what is before them. -/
theorem AtEach.imp {Q : List α → α → Prop} (h : AtEach R t)
    (himp : ∀ before a, (∀ b ∈ before, b ∈ t) → R before a → Q before a) : AtEach Q t := by
  intro before a after ht
  refine himp before a (fun b hb => ?_) (h before a after ht)
  rw [ht]
  exact List.mem_append_left _ hb

end Traces

end Theory
