import Mathlib.Logic.Basic

/-!
# Trees of conditions

Conditions joined by "and" and "or", nested to any depth.

- `AndOr`: the trees, over any type of conditions; `AndOr.induct`, with a hypothesis for each
  child.
- `AndOr.eval`: the value of a tree from those of its conditions.
- `AndOr.Node`: the trees within a tree.
- `AndOr.mapM`: a tree made condition by condition, by steps that can fail.
-/

namespace Theory

/-- How the children of a group are joined. -/
inductive Connective
  | and
  | or
  deriving DecidableEq, Repr

/-- `all` or `any` of the values. -/
def Connective.combine : Connective → List Bool → Bool
  | .and, bs => bs.all id
  | .or, bs => bs.any id

/-- A condition, or a group of trees. -/
inductive AndOr (ρ : Type)
  | rule (r : ρ)
  | group (op : Connective) (children : List (AndOr ρ))

namespace AndOr

variable {ρ σ ε : Type}

/-! ## Induction -/

/-- Induction with a hypothesis for each child of a group. -/
@[elab_as_elim] theorem induct {motive : AndOr ρ → Prop} (t : AndOr ρ)
    (rule : ∀ r, motive (.rule r))
    (group : ∀ op cs, (∀ c ∈ cs, motive c) → motive (.group op cs)) : motive t := by
  refine @AndOr.rec ρ motive (fun cs => ∀ c ∈ cs, motive c) rule group ?_ ?_ t
  · intro c hc
    cases hc
  · intro c cs ihc ihcs c' hc'
    rcases List.mem_cons.1 hc' with rfl | hc'
    · exact ihc
    · exact ihcs c' hc'

/-! ## The value of a tree -/

mutual

/-- The value of a tree whose conditions have the values `p`. -/
def eval (p : ρ → Bool) : AndOr ρ → Bool
  | .rule r => p r
  | .group op cs => op.combine (evalList p cs)

/-- The values of the children of a group. -/
def evalList (p : ρ → Bool) : List (AndOr ρ) → List Bool
  | [] => []
  | c :: cs => eval p c :: evalList p cs

end

theorem evalList_eq_map (p : ρ → Bool) (cs : List (AndOr ρ)) :
    evalList p cs = cs.map (eval p) := by
  induction cs with
  | nil => rfl
  | cons c cs ih => rw [evalList, ih, List.map_cons]

theorem eval_group (p : ρ → Bool) (op : Connective) (cs : List (AndOr ρ)) :
    eval p (.group op cs) = op.combine (cs.map (eval p)) := by
  rw [eval, evalList_eq_map]

/-! ## The trees within a tree -/

/-- `Node n t`: the tree `n` is `t`, or within it. -/
inductive Node : AndOr ρ → AndOr ρ → Prop
  | self (t : AndOr ρ) : Node t t
  | child {n c : AndOr ρ} {op : Connective} {cs : List (AndOr ρ)} (hc : c ∈ cs) (h : Node n c) :
      Node n (.group op cs)

theorem Node.trans {n m t : AndOr ρ} (h : Node n m) (h' : Node m t) : Node n t := by
  induction h' with
  | self => exact h
  | child hc _ ih => exact .child hc ih

/-- A condition and no group. -/
def IsRule : AndOr ρ → Prop
  | .rule _ => True
  | .group _ _ => False

/-! ## Trees made step by step -/

mutual

/-- The tree that `f` makes, condition by condition. -/
def mapM (f : ρ → Except ε σ) : AndOr ρ → Except ε (AndOr σ)
  | .rule r => do return .rule (← f r)
  | .group op cs => do return .group op (← mapMList f cs)

/-- The children that `f` makes. -/
def mapMList (f : ρ → Except ε σ) : List (AndOr ρ) → Except ε (List (AndOr σ))
  | [] => .ok []
  | c :: cs => do
    let c' ← mapM f c
    return c' :: (← mapMList f cs)

end

mutual

/-- The tree with `g` applied to each condition. -/
def map (g : ρ → σ) : AndOr ρ → AndOr σ
  | .rule r => .rule (g r)
  | .group op cs => .group op (mapList g cs)

def mapList (g : ρ → σ) : List (AndOr ρ) → List (AndOr σ)
  | [] => []
  | c :: cs => map g c :: mapList g cs

end

theorem mapMList_cons_ok {f : ρ → Except ε σ} {c : AndOr ρ} {cs : List (AndOr ρ)}
    {bs : List (AndOr σ)} (h : mapMList f (c :: cs) = .ok bs) :
    ∃ b bs', bs = b :: bs' ∧ mapM f c = .ok b ∧ mapMList f cs = .ok bs' := by
  rw [mapMList] at h
  cases hc : mapM f c with
  | error e =>
    rw [hc] at h
    cases h
  | ok b =>
    rw [hc] at h
    cases hcs : mapMList f cs with
    | error e =>
      rw [hcs] at h
      cases h
    | ok bs' =>
      rw [hcs] at h
      cases h
      exact ⟨b, bs', rfl, rfl, rfl⟩

theorem mapM_group_ok {f : ρ → Except ε σ} {op : Connective} {cs : List (AndOr ρ)} {b : AndOr σ}
    (h : mapM f (.group op cs) = .ok b) : ∃ bs, b = .group op bs ∧ mapMList f cs = .ok bs := by
  rw [mapM] at h
  cases hcs : mapMList f cs with
  | error e =>
    rw [hcs] at h
    cases h
  | ok bs =>
    rw [hcs] at h
    cases h
    exact ⟨bs, rfl, rfl⟩

/-- A group among the children is made into one. -/
theorem exists_group_of_mapMList {f : ρ → Except ε σ} {cs : List (AndOr ρ)} {bs : List (AndOr σ)}
    (h : mapMList f cs = .ok bs) (hg : ∃ c ∈ cs, ¬ c.IsRule) : ∃ b ∈ bs, ¬ b.IsRule := by
  induction cs generalizing bs with
  | nil =>
    obtain ⟨c, hc, -⟩ := hg
    cases hc
  | cons c cs ih =>
    obtain ⟨b, bs', rfl, hb, hbs⟩ := mapMList_cons_ok h
    obtain ⟨c', hc', hg⟩ := hg
    rcases List.mem_cons.1 hc' with rfl | hc'
    · refine ⟨b, List.mem_cons_self, ?_⟩
      cases c' with
      | rule r => exact absurd trivial hg
      | group op cs' =>
        obtain ⟨bs, rfl, -⟩ := mapM_group_ok hb
        exact hg
    · obtain ⟨b', hb', hg'⟩ := ih hbs ⟨c', hc', hg⟩
      exact ⟨b', List.mem_cons_of_mem b hb', hg'⟩

/-- Where each step is good, the tree is made. -/
theorem mapM_eq_ok {f : ρ → Except ε σ} {g : ρ → σ} {t : AndOr ρ}
    (h : ∀ r, Node (.rule r) t → f r = .ok (g r)) : mapM f t = .ok (map g t) := by
  induction t using induct with
  | rule r =>
    rw [mapM, h r (.self _)]
    rfl
  | group op cs ih =>
    have hlist : mapMList f cs = .ok (mapList g cs) := by
      have hcs : ∀ c ∈ cs, mapM f c = .ok (map g c) := by
        intro c hc
        exact ih c hc fun r hr => h r (.child hc hr)
      -- the children are known to be made, so their list is made one after the other
      clear ih h
      induction cs with
      | nil => rfl
      | cons c cs ih =>
        have hrest := ih fun c' hc' => hcs c' (List.mem_cons_of_mem c hc')
        rw [mapMList, hcs c List.mem_cons_self, hrest]
        rfl
    rw [mapM, hlist]
    rfl

end AndOr

end Theory
