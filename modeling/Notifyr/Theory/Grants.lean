import Mathlib.Data.Finset.Disjoint
import Mathlib.Data.Finset.Lattice.Lemmas
import Mathlib.Data.Finset.SDiff
import Mathlib.Data.List.Induction

/-!
# Grants and exclusions, entered one by one

An entry gives some members and takes some others. A tally keeps what was given and what was
taken: a member that is given stays given, and what an entry takes counts only as far as it was
not given by then. What is given later is not removed from what was taken before, so the taken
part depends on the order.

- `mem_given_or_taken`: each member that some entry names is given or taken in the end.
- `tally_perm`: entries no two of which disagree about a member give one tally in every order.
- `mem_taken_cons`, `not_mem_taken_cons`: of two entries that disagree, the first decides.
-/

namespace Theory

namespace Grants

variable {α : Type} [DecidableEq α]

/-- What is given and what is taken, never the same member. -/
structure Entry (α : Type) where
  gives : Finset α
  takes : Finset α
  disjoint : Disjoint gives takes

/-- What was given and taken so far. -/
structure Tally (α : Type) where
  given : Finset α
  taken : Finset α

/-- One more entry: what it takes is taken unless it was given by then. -/
def Tally.add (t : Tally α) (e : Entry α) : Tally α :=
  ⟨t.given ∪ e.gives, t.taken ∪ (e.takes \ (t.given ∪ e.gives))⟩

/-- The tally of the entries `l`, in their order. -/
def tally (l : List (Entry α)) : Tally α :=
  l.foldl Tally.add ⟨∅, ∅⟩

/-- One entry gives `x` and one takes it. -/
def Clash (l : List (Entry α)) (x : α) : Prop :=
  (∃ e ∈ l, x ∈ e.gives) ∧ ∃ e ∈ l, x ∈ e.takes

/-! ## From any tally -/

theorem mem_given_foldl (l : List (Entry α)) (t : Tally α) (x : α) :
    x ∈ (l.foldl Tally.add t).given ↔ x ∈ t.given ∨ ∃ e ∈ l, x ∈ e.gives := by
  induction l generalizing t with
  | nil => simp
  | cons e l ih =>
    rw [List.foldl_cons, ih]
    show x ∈ t.given ∪ e.gives ∨ _ ↔ _
    rw [Finset.mem_union, List.exists_mem_cons_iff, or_assoc]

/-- What was taken stays taken. -/
theorem mem_taken_foldl (l : List (Entry α)) {t : Tally α} {x : α} (hx : x ∈ t.taken) :
    x ∈ (l.foldl Tally.add t).taken := by
  induction l generalizing t with
  | nil => exact hx
  | cons e l ih => exact ih (Finset.mem_union_left _ hx)

/-- What was given before it was taken never is. -/
theorem not_mem_taken_foldl (l : List (Entry α)) {t : Tally α} {x : α} (hg : x ∈ t.given)
    (hx : x ∉ t.taken) : x ∉ (l.foldl Tally.add t).taken := by
  induction l generalizing t with
  | nil => exact hx
  | cons e l ih =>
    refine ih (Finset.mem_union_left _ hg) ?_
    intro hmem
    rcases Finset.mem_union.1 hmem with h | h
    · exact hx h
    · exact (Finset.mem_sdiff.1 h).2 (Finset.mem_union_left _ hg)

theorem mem_given_or_taken_foldl (l : List (Entry α)) (t : Tally α) (x : α) :
    (x ∈ (l.foldl Tally.add t).given ∨ x ∈ (l.foldl Tally.add t).taken) ↔
      (x ∈ t.given ∨ x ∈ t.taken) ∨ ∃ e ∈ l, x ∈ e.gives ∨ x ∈ e.takes := by
  induction l generalizing t with
  | nil => simp
  | cons e l ih =>
    rw [List.foldl_cons, ih, List.exists_mem_cons_iff]
    have hstep : (x ∈ (t.add e).given ∨ x ∈ (t.add e).taken) ↔
        (x ∈ t.given ∨ x ∈ t.taken) ∨ x ∈ e.gives ∨ x ∈ e.takes := by
      show x ∈ t.given ∪ e.gives ∨ x ∈ t.taken ∪ (e.takes \ (t.given ∪ e.gives)) ↔ _
      simp only [Finset.mem_union, Finset.mem_sdiff]
      tauto
    rw [hstep, or_assoc]

/-! ## The tally of a list -/

@[simp] theorem mem_given (l : List (Entry α)) (x : α) :
    x ∈ (tally l).given ↔ ∃ e ∈ l, x ∈ e.gives := by
  rw [tally, mem_given_foldl]
  simp

theorem mem_given_or_taken (l : List (Entry α)) (x : α) :
    (x ∈ (tally l).given ∨ x ∈ (tally l).taken) ↔ ∃ e ∈ l, x ∈ e.gives ∨ x ∈ e.takes := by
  rw [tally, mem_given_or_taken_foldl]
  simp

/-- The entry that takes a member, before all others. -/
theorem mem_taken_cons {e : Entry α} {x : α} (l : List (Entry α)) (hx : x ∈ e.takes) :
    x ∈ (tally (e :: l)).taken := by
  refine mem_taken_foldl l ?_
  show x ∈ ∅ ∪ (e.takes \ (∅ ∪ e.gives))
  rw [Finset.empty_union, Finset.empty_union, Finset.mem_sdiff]
  exact ⟨hx, Finset.disjoint_right.1 e.disjoint hx⟩

/-- The entry that gives a member, before all others. -/
theorem not_mem_taken_cons {e : Entry α} {x : α} (l : List (Entry α)) (hx : x ∈ e.gives) :
    x ∉ (tally (e :: l)).taken := by
  refine not_mem_taken_foldl l (Finset.mem_union_right _ hx) ?_
  show x ∉ ∅ ∪ (e.takes \ (∅ ∪ e.gives))
  rw [Finset.empty_union, Finset.empty_union, Finset.mem_sdiff]
  exact fun h => h.2 hx

/-- Only what some entry takes is taken. -/
theorem takes_of_mem_taken {l : List (Entry α)} {x : α} (hx : x ∈ (tally l).taken) :
    ∃ e ∈ l, x ∈ e.takes := by
  -- the last entry took it, or it was taken before
  induction l using List.reverseRecOn with
  | nil => cases hx
  | append_singleton l e ih =>
    rw [tally, List.foldl_concat] at hx
    rcases Finset.mem_union.1 hx with h | h
    · obtain ⟨e', he', hx'⟩ := ih h
      exact ⟨e', List.mem_append_left _ he', hx'⟩
    · exact ⟨e, List.mem_append_right _ List.mem_cons_self, (Finset.mem_sdiff.1 h).1⟩

/-- Where no two entries disagree, what is taken does not depend on the order. -/
theorem mem_taken {l : List (Entry α)} {x : α} (h : ¬ Clash l x) :
    x ∈ (tally l).taken ↔ ∃ e ∈ l, x ∈ e.takes := by
  constructor
  · exact takes_of_mem_taken
  · rintro ⟨e, he, hx⟩
    rcases (mem_given_or_taken l x).2 ⟨e, he, .inr hx⟩ with hg | ht
    · exact absurd ⟨(mem_given l x).1 hg, e, he, hx⟩ h
    · exact ht

theorem disjoint_tally {l : List (Entry α)} (h : ∀ x, ¬ Clash l x) :
    Disjoint (tally l).given (tally l).taken := by
  rw [Finset.disjoint_left]
  intro x hg ht
  exact h x ⟨(mem_given l x).1 hg, takes_of_mem_taken ht⟩

omit [DecidableEq α] in
theorem Clash.perm {l l' : List (Entry α)} {x : α} (hp : l'.Perm l) (h : Clash l' x) :
    Clash l x := by
  obtain ⟨⟨e, he, hx⟩, e', he', hx'⟩ := h
  exact ⟨⟨e, hp.mem_iff.1 he, hx⟩, e', hp.mem_iff.1 he', hx'⟩

theorem tally_perm {l l' : List (Entry α)} (hp : l'.Perm l) (h : ∀ x, ¬ Clash l x) :
    tally l' = tally l := by
  have hg : (tally l').given = (tally l).given := by
    ext x
    simp only [mem_given, hp.mem_iff]
  have ht : (tally l').taken = (tally l).taken := by
    ext x
    rw [mem_taken (h x), mem_taken fun hc => h x (hc.perm hp)]
    simp only [hp.mem_iff]
  calc tally l' = ⟨(tally l').given, (tally l').taken⟩ := rfl
    _ = tally l := by rw [hg, ht]

end Grants

end Theory
