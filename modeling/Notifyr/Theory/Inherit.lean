import Mathlib.Tactic.ByContra
import Mathlib.Tactic.SplitIfs

/-!
# Inherited values

Nodes with values of their own, each of which may take further ones from a node that it names.

- `Node`: the values of a node, and what it takes from where.
- `Resolves`: the values that a node has; a node on a cycle, or with a name of no node, has none.
- `Resolves.unique`: where names are of one node each, the values are determined.
- `Resolves.not_of_parents`: where each node names another one, none has values.
-/

namespace Theory

/-- The values of a node, and the name of the one it takes others from, at some keys. -/
structure Node (ι κ α : Type) where
  own : κ → Option α
  parent : Option (ι × (κ → Bool))

variable {ι κ α : Type}

/-- Own values, and others' at some keys where there are none. -/
def inherit (own : κ → Option α) (keys : κ → Bool) (values : κ → Option α) (k : κ) : Option α :=
  (own k).or (if keys k = true then values k else none)

/-- Values at no further keys are taken over. -/
theorem inherit_eq_own {own : κ → Option α} {keys : κ → Bool} {values : κ → Option α} :
    inherit own keys values = own ↔
      ∀ k, keys k = true → values k ≠ none → own k ≠ none := by
  constructor
  · intro h k hkey hvalue hnone
    have hk := congrFun h k
    rw [inherit, if_pos hkey, hnone, Option.none_or] at hk
    exact hvalue hk
  · refine fun h => funext fun k => ?_
    unfold inherit
    cases hown : own k with
    | some a => rfl
    | none =>
      rw [Option.none_or]
      split_ifs with hkey
      · by_contra hvalue
        exact h k hkey hvalue hown
      · rfl

@[simp] theorem inherit_nothing (own values : κ → Option α) :
    inherit own (fun _ => false) values = own :=
  inherit_eq_own.mpr fun _ h => absurd h Bool.false_ne_true

/-- The values of a node: its own, and those it takes. -/
inductive Resolves (nodes : ι → Node ι κ α → Prop) : Node ι κ α → (κ → Option α) → Prop
  | root {node : Node ι κ α} (root : node.parent = none) : Resolves nodes node node.own
  | step {node source : Node ι κ α} {name : ι} {keys : κ → Bool} {values : κ → Option α}
      (parent : node.parent = some (name, keys)) (named : nodes name source)
      (resolves : Resolves nodes source values) :
      Resolves nodes node (inherit node.own keys values)

namespace Resolves

variable {nodes nodes' : ι → Node ι κ α → Prop} {node : Node ι κ α} {values values' : κ → Option α}

theorem of_root (h : Resolves nodes node values) (hroot : node.parent = none) :
    values = node.own := by
  cases h with
  | root _ => rfl
  | step parent _ _ => cases hroot.symm.trans parent

theorem of_parent (h : Resolves nodes node values) {name : ι} {keys : κ → Bool}
    (hparent : node.parent = some (name, keys)) :
    ∃ source values', nodes name source ∧ Resolves nodes source values' ∧
      values = inherit node.own keys values' := by
  cases h with
  | root root => cases root.symm.trans hparent
  | step parent named resolves =>
    cases parent.symm.trans hparent
    exact ⟨_, _, named, resolves, rfl⟩

theorem mono (hnodes : ∀ name node, nodes name node → nodes' name node)
    (h : Resolves nodes node values) : Resolves nodes' node values := by
  induction h with
  | root hroot => exact root hroot
  | step parent named _ ih => exact step parent (hnodes _ _ named) ih

theorem unique (hnodes : ∀ name n n', nodes name n → nodes name n' → n = n')
    (h : Resolves nodes node values) (h' : Resolves nodes node values') : values = values' := by
  induction h generalizing values' with
  | root root => exact (h'.of_root root).symm
  | step parent named _ ih =>
    obtain ⟨source, values'', hnamed, hresolves, rfl⟩ := h'.of_parent parent
    cases hnodes _ _ _ named hnamed
    rw [ih hresolves]

theorem not_of_parents (hnodes : ∀ name n, nodes name n → n.parent ≠ none)
    (hnode : node.parent ≠ none) : ¬ Resolves nodes node values := by
  intro h
  induction h with
  | root root => exact hnode root
  | step _ named _ ih => exact ih (hnodes _ _ named)

end Resolves

end Theory
