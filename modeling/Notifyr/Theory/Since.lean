import Mathlib.Data.List.Basic

/-!
# What has happened since

Statements about the last time something happened in a list of events.

- `Since p stop events`: an event of kind `p` has happened, and none of kind `stop` after it.
- `since_concat`: after one more event; `since_nil`: before the first.
-/

namespace Theory

variable {α : Type}

/-- An event of kind `p` has happened, and none of kind `stop` since. -/
def Since (p stop : α → Prop) (events : List α) : Prop :=
  ∃ before e after, events = before ++ e :: after ∧ p e ∧ ∀ x ∈ after, ¬ stop x

variable {p stop : α → Prop} {events : List α}

theorem since_nil : ¬ Since p stop [] := by
  rintro ⟨before, e, after, h, -⟩
  cases before <;> cases h

/-- One more event. -/
theorem since_concat {a : α} :
    Since p stop (events ++ [a]) ↔ p a ∨ ¬ stop a ∧ Since p stop events := by
  constructor
  · rintro ⟨before, e, after, h, hp, hstop⟩
    rcases List.eq_nil_or_concat after with rfl | ⟨after, b, rfl⟩
    · obtain ⟨-, ha⟩ := List.append_inj' h rfl
      cases ha
      exact .inl hp
    · rw [List.concat_eq_append, ← List.cons_append, ← List.append_assoc] at h
      obtain ⟨hevents, hab⟩ := List.append_inj' h rfl
      cases hab
      rw [List.concat_eq_append] at hstop
      exact .inr ⟨hstop a (by simp), before, e, after, hevents, hp,
        fun x hx => hstop x (List.mem_append_left _ hx)⟩
  · rintro (hp | ⟨hstop, before, e, after, rfl, hp, hafter⟩)
    · exact ⟨events, a, [], rfl, hp, List.forall_mem_nil _⟩
    · refine ⟨before, e, after ++ [a], by simp, hp, ?_⟩
      intro x hx
      rcases List.mem_append.mp hx with hx | hx
      · exact hafter x hx
      · rw [List.mem_singleton] at hx
        rw [hx]
        exact hstop

end Theory
