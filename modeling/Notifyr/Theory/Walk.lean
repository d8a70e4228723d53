import Mathlib.Data.List.Nodup
import Mathlib.Data.Set.Finite.List
import Mathlib.Logic.Relation
import Mathlib.Order.RelClasses
import Mathlib.Order.WellFounded

/-!
# Depth-first walks

A depth-first walk over the successors of a node that skips what has been seen, on an acyclic
graph, and the order in which it visits.

- `Walk`: the visits of such a walk, each with the node it comes from.
- `Walk.mem_iff`, `Walk.nodup`: it visits what can be reached and has not been seen, once.
- `exists_walk`: on an acyclic finite graph the walk comes to an end.
- `Nested`: two branches of a node meet only where the earlier one has seen all that matters.
- `Walk.order_iff`: a visit comes after everything it depends on exactly if all branches nest.
- `Walk.mem_iff_direct`: in that case a node is visited from the last node on its way.
-/

namespace Theory

open Relation

variable {α : Type} (next : α → List α)

/-- `b` is reached from `a`. -/
abbrev Leads (a b : α) : Prop := ReflTransGen (fun a b => b ∈ next a) a b

/-- `x` is reached from one of `ds`. -/
def LedTo (ds : List α) (x : α) : Prop := ∃ d ∈ ds, Leads next d x

/-- What has been seen contains the successors of what it contains. -/
def Closed (K : Set α) : Prop := ∀ x ∈ K, ∀ y ∈ next x, y ∈ K

/-- What has been seen after some visits. -/
def seenAfter (K : Set α) (vs : List (α × α)) : Set α := {x | x ∈ K ∨ x ∈ vs.map Prod.snd}

/-- The visits `vs` of a walk over the successors `ds` of `s`, where `K` has been seen. -/
inductive Walk : α → List α → Set α → List (α × α) → Prop
  | nil {s : α} {K : Set α} : Walk s [] K []
  | skip {s d : α} {ds : List α} {K : Set α} {vs : List (α × α)} (seen : d ∈ K)
      (rest : Walk s ds K vs) : Walk s (d :: ds) K vs
  | visit {s d : α} {ds : List α} {K : Set α} {vs ws : List (α × α)} (new : d ∉ K)
      (below : Walk d (next d) K vs) (rest : Walk s ds (seenAfter K ((s, d) :: vs)) ws) :
      Walk s (d :: ds) K ((s, d) :: vs ++ ws)

/-! ## Reaching -/

section Reaching

variable {next} {s d x : α} {ds : List α} {K : Set α} {vs ws : List (α × α)}

theorem ledTo_cons : LedTo next (d :: ds) x ↔ Leads next d x ∨ LedTo next ds x :=
  List.exists_mem_cons_iff ..

theorem ledTo_append : LedTo next (ds ++ [d]) x ↔ LedTo next ds x ∨ Leads next d x := by
  constructor
  · rintro ⟨c, hc, hcx⟩
    rcases List.mem_append.mp hc with hc | hc
    · exact .inl ⟨c, hc, hcx⟩
    · rw [List.mem_singleton] at hc
      exact .inr (hc ▸ hcx)
  · rintro (⟨c, hc, hcx⟩ | h)
    · exact ⟨c, List.mem_append_left _ hc, hcx⟩
    · exact ⟨d, List.mem_append_right _ List.mem_cons_self, h⟩

/-- What a node leads to is the node itself or comes from a successor. -/
theorem leads_iff : Leads next d x ↔ x = d ∨ LedTo next (next d) x := by
  rw [Leads, ReflTransGen.cases_head_iff]
  exact or_congr eq_comm Iff.rfl

theorem Closed.leads (hK : Closed next K) (hd : d ∈ K) (h : Leads next d x) : x ∈ K := by
  induction h with
  | refl => exact hd
  | tail _ hbc ih => exact hK _ ih _ hbc

theorem seenAfter_append : seenAfter K (vs ++ ws) = seenAfter (seenAfter K vs) ws := by
  ext x
  show x ∈ K ∨ x ∈ (vs ++ ws).map Prod.snd ↔ (x ∈ K ∨ x ∈ vs.map Prod.snd) ∨ x ∈ ws.map Prod.snd
  rw [List.map_append, List.mem_append, or_assoc]

/-- What has been seen is closed again when a node and what it leads to have been visited. -/
theorem closed_visit (hK : Closed next K) (hcl : Closed next (seenAfter K vs))
    (hmem : ∀ y, y ∈ vs.map Prod.snd ↔ y ∉ K ∧ LedTo next (next d) y) :
    Closed next (seenAfter K ((s, d) :: vs)) := by
  rintro x (hx | hx) y hy
  · exact .inl (hK x hx y hy)
  rcases List.mem_cons.mp hx with rfl | hx
  -- the successors of the node itself are visited below it
  · by_cases hy' : y ∈ K
    · exact .inl hy'
    · exact .inr (List.mem_cons_of_mem _ ((hmem y).mpr ⟨hy', y, hy, .refl⟩))
  · exact (hcl x (.inr hx) y hy).imp_right (List.mem_cons_of_mem _)

end Reaching

/-! ## What is visited -/

section Visited

variable {next} {s d x p : α} {ds pre post : List α} {K : Set α} {vs ws : List (α × α)}

/-- **A walk visits what its nodes lead to and has not been seen**, and what has been seen
afterwards is closed again. -/
theorem Walk.mem_iff_and_closed (h : Walk next s ds K vs) (hK : Closed next K) :
    (∀ x, x ∈ vs.map Prod.snd ↔ x ∉ K ∧ LedTo next ds x) ∧ Closed next (seenAfter K vs) := by
  induction h with
  | nil =>
    refine ⟨fun x => ⟨nofun, ?_⟩, ?_⟩
    · rintro ⟨-, d, hd, -⟩
      cases hd
    · rintro x (hx | hx) y hy
      · exact .inl (hK x hx y hy)
      · cases hx
  | @skip s d ds K vs seen rest ih =>
    obtain ⟨hmem, hcl⟩ := ih hK
    refine ⟨fun x => ?_, hcl⟩
    rw [hmem, ledTo_cons]
    refine and_congr_right fun hx => (or_iff_right fun h => hx ?_).symm
    exact hK.leads seen h
  | @visit s d ds K vs ws new below rest ihbelow ihrest =>
    obtain ⟨hbelow, hclBelow⟩ := ihbelow hK
    have hcl : Closed next (seenAfter K ((s, d) :: vs)) := closed_visit hK hclBelow hbelow
    obtain ⟨hrest, hclRest⟩ := ihrest hcl
    refine ⟨fun x => ?_, by rw [seenAfter_append]; exact hclRest⟩
    have hsplit : x ∈ ((s, d) :: vs ++ ws).map Prod.snd ↔
        (x = d ∨ x ∈ vs.map Prod.snd) ∨ x ∈ ws.map Prod.snd := by
      rw [List.map_append, List.mem_append, List.map_cons, List.mem_cons]
    rw [hsplit, hbelow, hrest, ledTo_cons, leads_iff]
    constructor
    · rintro ((rfl | ⟨hx, h⟩) | ⟨hx, h⟩)
      · exact ⟨new, .inl (.inl rfl)⟩
      · exact ⟨hx, .inl (.inr h)⟩
      · exact ⟨fun hk => hx (.inl hk), .inr h⟩
    · rintro ⟨hx, (rfl | h) | h⟩
      · exact .inl (.inl rfl)
      · exact .inl (.inr ⟨hx, h⟩)
      · by_cases hseen : x ∈ seenAfter K ((s, d) :: vs)
        · rcases hseen with hk | hv
          · exact absurd hk hx
          · rcases List.mem_cons.mp hv with rfl | hv
            · exact .inl (.inl rfl)
            · exact .inl (.inr ((hbelow x).mp hv))
        · exact .inr ⟨hseen, h⟩

theorem Walk.mem_iff (h : Walk next s ds K vs) (hK : Closed next K) :
    x ∈ vs.map Prod.snd ↔ x ∉ K ∧ LedTo next ds x := (h.mem_iff_and_closed hK).1 x

theorem Walk.closed (h : Walk next s ds K vs) (hK : Closed next K) :
    Closed next (seenAfter K vs) := (h.mem_iff_and_closed hK).2

/-- A visit comes from the node whose successors are walked or from one visited before. -/
theorem Walk.from_mem (h : Walk next s ds K vs) (hx : (p, x) ∈ vs) :
    (p = s ∧ x ∈ ds) ∨ (p ∈ vs.map Prod.snd ∧ x ∈ next p) := by
  induction h with
  | nil => cases hx
  | skip seen rest ih =>
    rcases ih hx with ⟨h, hds⟩ | h
    · exact .inl ⟨h, List.mem_cons_of_mem _ hds⟩
    · exact .inr h
  | visit new below rest ihbelow ihrest =>
    rw [List.map_append]
    rcases List.mem_append.mp hx with hx | hx
    · rcases List.mem_cons.mp hx with heq | hx
      · obtain ⟨rfl, rfl⟩ := Prod.mk.inj heq
        exact .inl ⟨rfl, List.mem_cons_self⟩
      · rcases ihbelow hx with ⟨rfl, h⟩ | ⟨h, h'⟩
        · exact .inr ⟨List.mem_append_left _ List.mem_cons_self, h⟩
        · exact .inr ⟨List.mem_append_left _ (List.mem_cons_of_mem _ h), h'⟩
    · rcases ihrest hx with ⟨h, hds⟩ | ⟨h, h'⟩
      · exact .inl ⟨h, List.mem_cons_of_mem _ hds⟩
      · exact .inr ⟨List.mem_append_right _ h, h'⟩

/-- A walk over two lists of successors, one after the other. -/
theorem Walk.split (h : Walk next s (pre ++ post) K vs) :
    ∃ vs₁ vs₂, vs = vs₁ ++ vs₂ ∧ Walk next s pre K vs₁ ∧
      Walk next s post (seenAfter K vs₁) vs₂ := by
  induction pre generalizing K vs with
  | nil =>
    refine ⟨[], vs, rfl, .nil, ?_⟩
    have : seenAfter K ([] : List (α × α)) = K := by
      ext x
      exact or_iff_left nofun
    rw [this]
    exact h
  | cons d pre ih =>
    cases h with
    | skip seen rest =>
      obtain ⟨vs₁, vs₂, rfl, h₁, h₂⟩ := ih rest
      exact ⟨vs₁, vs₂, rfl, .skip seen h₁, h₂⟩
    | @visit _ _ _ _ vs ws new below rest =>
      obtain ⟨ws₁, ws₂, rfl, h₁, h₂⟩ := ih rest
      refine ⟨(s, d) :: vs ++ ws₁, ws₂, (List.append_assoc ..).symm, .visit new below h₁, ?_⟩
      rw [seenAfter_append]
      exact h₂

/-- There is only one such walk. -/
theorem Walk.unique (h : Walk next s ds K vs) (h' : Walk next s ds K ws) : vs = ws := by
  induction h generalizing ws with
  | nil => cases h' with | nil => rfl
  | skip seen rest ih =>
    cases h' with
    | skip _ rest' => exact ih rest'
    | visit new below' rest' => exact absurd seen new
  | visit new below rest ihbelow ihrest =>
    cases h' with
    | skip seen _ => exact absurd seen new
    | visit _ below' rest' =>
      obtain rfl := ihbelow below'
      obtain rfl := ihrest rest'
      rfl

/-- Where a visited node stands among the visits: what has been seen when its own successors
are walked, before, and what is visited below it, right after. -/
theorem Walk.around (h : Walk next s ds K vs) (hK : Closed next K) (hx : x ∈ vs.map Prod.snd) :
    ∃ before p below after K', vs = before ++ (p, x) :: below ++ after ∧
      Walk next x (next x) K' below ∧ Closed next K' ∧
      ∀ y ∈ K', y ∈ K ∨ y ∈ before.map Prod.snd := by
  induction h with
  | nil => cases hx
  | skip seen rest ih => exact ih hK hx
  | @visit s d ds K vs ws new below rest ihbelow ihrest =>
    rw [List.map_append] at hx
    rcases List.mem_append.mp hx with hx | hx
    · rcases List.mem_cons.mp hx with rfl | hx
      · exact ⟨[], s, vs, ws, K, rfl, below, hK, fun y hy => .inl hy⟩
      · obtain ⟨before, p, mid, after, K', rfl, hw, hcl, hsub⟩ := ihbelow hK hx
        refine ⟨(s, d) :: before, p, mid, after ++ ws, K', by simp, hw, hcl, fun y hy => ?_⟩
        exact (hsub y hy).imp_right (List.mem_cons_of_mem _)
    · have hcl' : Closed next (seenAfter K ((s, d) :: vs)) :=
        closed_visit hK (below.closed hK) fun _ => below.mem_iff hK
      obtain ⟨before, p, mid, after, K', rfl, hw, hcl, hsub⟩ := ihrest hcl' hx
      refine ⟨(s, d) :: vs ++ before, p, mid, after, K', by simp, hw, hcl, fun y hy => ?_⟩
      rw [List.map_append]
      rcases hsub y hy with (h | h) | h
      · exact .inl h
      · exact .inr (List.mem_append_left _ h)
      · exact .inr (List.mem_append_right _ h)

end Visited

/-! ## Acyclic graphs -/

/-- A finite relation without a cycle is well-founded against its direction. -/
theorem wellFounded_of_acyclic {dep : α → α → Prop} (D : List α)
    (hD : ∀ a b, dep a b → b ∈ D) (hac : ∀ a, ¬ TransGen dep a a) :
    WellFounded fun b a => dep a b := by
  let R : {x // x ∈ D} → {x // x ∈ D} → Prop := fun b a => TransGen dep a b
  have htrans : IsTrans _ R := ⟨fun _ _ _ hab hbc => hbc.trans hab⟩
  have hirrefl : Std.Irrefl R := ⟨fun x => hac x⟩
  have hfin : Finite {x // x ∈ D} := (List.finite_toSet D).to_subtype
  have hwf : WellFounded R := Finite.wellFounded_of_trans_of_irrefl R
  have hacc : ∀ x : {x // x ∈ D}, Acc (fun b a => dep a b) x.1 := by
    intro x
    induction x using hwf.induction with
    | _ x ih => exact ⟨_, fun y hy => ih ⟨y, hD _ _ hy⟩ (.single hy)⟩
  exact ⟨fun a => ⟨_, fun b hb => hacc ⟨b, hD _ _ hb⟩⟩⟩

section Acyclic

variable {next} {dep : α → α → Prop} {root s d x p : α} {ds : List α} {K : Set α}
  {vs : List (α × α)}

/-- The walk comes to an end. -/
theorem exists_walk (hwf : WellFounded fun b a => b ∈ next a) (s : α) (ds : List α) (K : Set α) :
    ∃ vs, Walk next s ds K vs := by
  have hlist : ∀ ds : List α, (∀ d ∈ ds, ∀ K, ∃ vs, Walk next d (next d) K vs) →
      ∀ s K, ∃ vs, Walk next s ds K vs := by
    intro ds
    induction ds with
    | nil => exact fun _ _ _ => ⟨[], .nil⟩
    | cons d ds ih =>
      intro h s K
      have ih := ih fun d hd => h d (List.mem_cons_of_mem _ hd)
      by_cases hd : d ∈ K
      · obtain ⟨vs, hvs⟩ := ih s K
        exact ⟨vs, .skip hd hvs⟩
      · obtain ⟨vs, hvs⟩ := h d List.mem_cons_self K
        obtain ⟨ws, hws⟩ := ih s (seenAfter K ((s, d) :: vs))
        exact ⟨_, .visit hd hvs hws⟩
  have hnode : ∀ d K, ∃ vs, Walk next d (next d) K vs := by
    intro d
    induction d using hwf.induction with
    | _ d ih => exact fun K => hlist (next d) ih d K
  exact hlist ds (fun d _ => hnode d) s K

theorem Leads.transGen (hnext : ∀ a, ∀ b ∈ next a, dep a b) (h : Leads next d x) :
    ReflTransGen dep d x := ReflTransGen.mono (fun a b => hnext a b) _ _ h

/-- What a node's successors lead to depends on it. -/
theorem LedTo.transGen (hnext : ∀ a, ∀ b ∈ next a, dep a b) (h : LedTo next (next d) x) :
    TransGen dep d x := by
  obtain ⟨c, hc, hcx⟩ := h
  exact TransGen.head' (hnext d c hc) (Leads.transGen hnext hcx)

/-- **It visits nothing twice.** -/
theorem Walk.nodup (hnext : ∀ a, ∀ b ∈ next a, dep a b) (hac : ∀ a, ¬ TransGen dep a a)
    (h : Walk next s ds K vs) (hK : Closed next K) : (vs.map Prod.snd).Nodup := by
  induction h with
  | nil => exact List.nodup_nil
  | skip seen rest ih => exact ih hK
  | @visit s d ds K vs ws new below rest ihbelow ihrest =>
    have hmem : ∀ y, y ∈ vs.map Prod.snd ↔ _ := fun y => below.mem_iff hK
    have hcl : Closed next (seenAfter K ((s, d) :: vs)) := closed_visit hK (below.closed hK) hmem
    rw [List.map_append]
    refine List.nodup_append.mpr ⟨List.nodup_cons.mpr ⟨fun hd => ?_, ihbelow hK⟩, ihrest hcl, ?_⟩
    · exact hac d (LedTo.transGen hnext ((hmem d).mp hd).2)
    · rintro x hx _ hx' rfl
      exact ((rest.mem_iff hcl).mp hx').1 (.inr hx)

/-! ## The order of the visits -/

/-- Of two successors of `u`, if the earlier leads to `d` and the later to something that `d`
depends on, then the earlier one, or one before it, leads there too. -/
def Nested (next : α → List α) (dep : α → α → Prop) (u : α) : Prop :=
  ∀ pre a post, next u = pre ++ a :: post → ∀ b ∈ post, ∀ d t, Leads next a d → Leads next b t →
    dep t d → LedTo next (pre ++ [a]) t

/-- No other successor of `p` leads to `d`. -/
def Direct (next : α → List α) (p d : α) : Prop :=
  d ∈ next p ∧ ∀ c ∈ next p, c ≠ d → ¬ Leads next c d

/-- The nesting of what is left of a node's successors. -/
def NestedFrom (next : α → List α) (dep : α → α → Prop) (K : Set α) (ds : List α) : Prop :=
  ∀ pre a post, ds = pre ++ a :: post → ∀ b ∈ post, ∀ d t, Leads next a d → Leads next b t →
    dep t d → t ∈ K ∨ LedTo next (pre ++ [a]) t

theorem Nested.nestedFrom (h : Nested next dep s) : NestedFrom next dep K (next s) :=
  fun pre a post hsplit b hb d t had hbt hdep => .inr (h pre a post hsplit b hb d t had hbt hdep)

/-- It is kept when the first of them has been seen, with all it leads to. -/
theorem NestedFrom.tail {K' : Set α} (h : NestedFrom next dep K (d :: ds))
    (hsub : ∀ x ∈ K, x ∈ K') (hd : ∀ x, Leads next d x → x ∈ K') : NestedFrom next dep K' ds := by
  intro pre a post hsplit b hb e t hae hbt hdep
  rcases h (d :: pre) a post (congrArg (d :: ·) hsplit) b hb e t hae hbt hdep with ht | ht
  · exact .inl (hsub t ht)
  · rcases ledTo_cons.mp ht with ht | ht
    · exact .inl (hd t ht)
    · exact .inr ht

/-- What the first of them leads to depends on nothing that the others lead to and that is still
to be seen. -/
theorem NestedFrom.head {y t : α} (h : NestedFrom next dep K (d :: ds)) (hy : Leads next d y)
    (ht : LedTo next ds t) (hdep : dep t y) : t ∈ K ∨ Leads next d t := by
  obtain ⟨b, hb, hbt⟩ := ht
  refine (h [] d ds rfl b hb y t hy hbt hdep).imp_right fun ht => ?_
  rcases ledTo_cons.mp ht with ht | ⟨c, hc, -⟩
  · exact ht
  · cases hc

/-- What a node leads to has been seen after the visit of the node. -/
theorem mem_seenAfter_visit (hmem : ∀ y, y ∈ vs.map Prod.snd ↔ y ∉ K ∧ LedTo next (next d) y)
    (h : Leads next d x) : x ∈ seenAfter K ((s, d) :: vs) := by
  by_cases hx : x ∈ K
  · exact .inl hx
  · rcases leads_iff.mp h with rfl | h
    · exact .inr List.mem_cons_self
    · exact .inr (List.mem_cons_of_mem _ ((hmem x).mpr ⟨hx, h⟩))

/-- Nested branches are visited in an order that goes with the dependencies. -/
theorem Walk.pairwise (hnext : ∀ a, ∀ b ∈ next a, dep a b) (hac : ∀ a, ¬ TransGen dep a a)
    (h : Walk next s ds K vs) (hK : Closed next K)
    (hnested : ∀ u, LedTo next ds u → Nested next dep u) (hfrom : NestedFrom next dep K ds) :
    (vs.map Prod.snd).Pairwise fun x y => ¬ dep y x := by
  induction h with
  | nil => exact .nil
  | skip seen rest ih =>
    refine ih hK (fun u hu => hnested u (ledTo_cons.mpr (.inr hu))) (hfrom.tail (fun _ h => h) ?_)
    exact fun x hx => hK.leads seen hx
  | @visit s d ds K vs ws new below rest ihbelow ihrest =>
    have hmem : ∀ y, y ∈ vs.map Prod.snd ↔ y ∉ K ∧ LedTo next (next d) y :=
      fun y => below.mem_iff hK
    have hcl : Closed next (seenAfter K ((s, d) :: vs)) := closed_visit hK (below.closed hK) hmem
    have hself : Nested next dep d := hnested d ⟨d, List.mem_cons_self, .refl⟩
    have hbelow := ihbelow hK
      (fun u hu => hnested u (ledTo_cons.mpr (.inl (leads_iff.mpr (.inr hu))))) hself.nestedFrom
    have hrest := ihrest hcl (fun u hu => hnested u (ledTo_cons.mpr (.inr hu)))
      (hfrom.tail (fun _ h => .inl h) fun x hx => mem_seenAfter_visit hmem hx)
    rw [List.map_append]
    refine List.pairwise_append.mpr ⟨List.pairwise_cons.mpr ⟨fun y hy hdep => ?_, hbelow⟩,
      hrest, fun y hy t ht hdep => ?_⟩
    -- what is visited below `d` depends on `d`, so `d` does not depend on it
    · exact hac d ((LedTo.transGen hnext ((hmem y).mp hy).2).tail hdep)
    · obtain ⟨hnot, hled⟩ := (rest.mem_iff hcl).mp ht
      have hdy : Leads next d y := by
        rcases List.mem_cons.mp hy with rfl | hy
        · exact .refl
        · exact leads_iff.mpr (.inr ((hmem y).mp hy).2)
      rcases hfrom.head hdy hled hdep with h | h
      · exact hnot (.inl h)
      · exact hnot (mem_seenAfter_visit hmem h)

/-- Where branches nest, a node is visited from a node no other successor of which leads to
it. -/
theorem Walk.direct (hnext : ∀ a, ∀ b ∈ next a, dep a b) (hac : ∀ a, ¬ TransGen dep a a)
    (h : Walk next s ds K vs) (hK : Closed next K)
    (hnested : ∀ u, LedTo next ds u → Nested next dep u) (hfrom : NestedFrom next dep K ds)
    (hsub : ∀ c ∈ ds, c ∈ next s)
    (hdone : ∀ c ∈ next s, c ∈ ds ∨ ∀ x, Leads next c x → x ∈ K) (hx : (p, x) ∈ vs) :
    Direct next p x := by
  induction h with
  | nil => cases hx
  | @skip s d ds K vs seen rest ih =>
    refine ih hK (fun u hu => hnested u (ledTo_cons.mpr (.inr hu)))
      (hfrom.tail (fun _ h => h) fun x hx => hK.leads seen hx)
      (fun c hc => hsub c (List.mem_cons_of_mem _ hc)) (fun c hc => ?_) hx
    rcases hdone c hc with h | h
    · rcases List.mem_cons.mp h with rfl | h
      · exact .inr fun x hx => hK.leads seen hx
      · exact .inl h
    · exact .inr h
  | @visit s d ds K vs ws new below rest ihbelow ihrest =>
    have hmem : ∀ y, y ∈ vs.map Prod.snd ↔ y ∉ K ∧ LedTo next (next d) y :=
      fun y => below.mem_iff hK
    have hcl : Closed next (seenAfter K ((s, d) :: vs)) := closed_visit hK (below.closed hK) hmem
    rcases List.mem_append.mp hx with hx | hx
    · rcases List.mem_cons.mp hx with heq | hx
      · obtain ⟨rfl, rfl⟩ := Prod.mk.inj heq
        refine ⟨hsub x List.mem_cons_self, fun c hc hne hcx => ?_⟩
        rcases hdone c hc with h | h
        · rcases List.mem_cons.mp h with rfl | h
          · exact hne rfl
          -- the last step of the way from `c`
          rcases ReflTransGen.cases_tail hcx with heq | ⟨t, hct, htx⟩
          · exact hne heq.symm
          rcases hfrom.head .refl ⟨c, h, hct⟩ (hnext t x htx) with hk | hk
          · exact new (hK t hk x htx)
          · exact hac x (TransGen.tail' (Leads.transGen hnext hk) (hnext t x htx))
        · exact new (h x hcx)
      · exact ihbelow hK
          (fun u hu => hnested u (ledTo_cons.mpr (.inl (leads_iff.mpr (.inr hu)))))
          (Nested.nestedFrom (hnested d ⟨d, List.mem_cons_self, .refl⟩)) (fun _ hc => hc)
          (fun _ hc => .inl hc) hx
    · refine ihrest hcl (fun u hu => hnested u (ledTo_cons.mpr (.inr hu)))
        (hfrom.tail (fun _ h => .inl h) fun x hx => mem_seenAfter_visit hmem hx)
        (fun c hc => hsub c (List.mem_cons_of_mem _ hc)) (fun c hc => ?_) hx
      rcases hdone c hc with h | h
      · rcases List.mem_cons.mp h with rfl | h
        · exact .inr fun x hx => mem_seenAfter_visit hmem hx
        · exact .inl h
      · exact .inr fun x hx => .inl (h x hx)

/-! ## Walks from a root -/

/-- Everything a root leads to stands among the visits, as `Walk.around` says of the nodes that
are visited. -/
theorem Walk.around_root (h : Walk next root (next root) ∅ vs) (hx : Leads next root x) :
    ∃ before below after K', root :: vs.map Prod.snd =
        before ++ x :: below.map Prod.snd ++ after ∧
      Walk next x (next x) K' below ∧ Closed next K' ∧ (∀ y ∈ K', y ∈ before) ∧
      ∀ v ∈ below, v ∈ vs := by
  have hK : Closed next (∅ : Set α) := fun _ hx => absurd hx (Set.notMem_empty _)
  rcases leads_iff.mp hx with rfl | hx
  · exact ⟨[], vs, [], ∅, by simp, h, hK, fun y hy => absurd hy (Set.notMem_empty _),
      fun _ hv => hv⟩
  · have hmem := (h.mem_iff hK).mpr ⟨Set.notMem_empty _, hx⟩
    obtain ⟨before, p, below, after, K', rfl, hw, hcl, hsub⟩ := h.around hK hmem
    refine ⟨root :: before.map Prod.snd, below, after.map Prod.snd, K', by simp, hw, hcl,
      fun y hy => ?_, fun v hv => ?_⟩
    · rcases hsub y hy with h | h
      · exact absurd h (Set.notMem_empty _)
      · exact List.mem_cons_of_mem _ h
    · exact List.mem_append_left _ (List.mem_append_right _ (List.mem_cons_of_mem _ hv))

/-- Where the order goes with the dependencies, what comes after a node contains all it leads
to. -/
theorem mem_after {before after : List α} (hnext : ∀ a, ∀ b ∈ next a, dep a b)
    (hpair : (before ++ after).Pairwise fun x y => ¬ dep y x)
    (hall : ∀ y, Leads next d y → y ∈ before ++ after) (hd : d ∈ after) (hx : Leads next d x) :
    x ∈ after := by
  induction hx with
  | refl => exact hd
  | @tail b c hdb hbc ih =>
    rcases List.mem_append.mp (hall c (hdb.tail hbc)) with h | h
    · exact absurd (hnext b c hbc) ((List.pairwise_append.mp hpair).2.2 c h b ih)
    · exact h

/-- **A visit comes after everything it depends on exactly if all branches nest.** -/
theorem Walk.order_iff (hnext : ∀ a, ∀ b ∈ next a, dep a b) (hac : ∀ a, ¬ TransGen dep a a)
    (h : Walk next root (next root) ∅ vs) :
    (root :: vs.map Prod.snd).Pairwise (fun x y => ¬ dep y x) ↔
      ∀ u, Leads next root u → Nested next dep u := by
  have hK : Closed next (∅ : Set α) := fun _ hx => absurd hx (Set.notMem_empty _)
  have hall : ∀ y, Leads next root y → y ∈ root :: vs.map Prod.snd := by
    intro y hy
    rcases leads_iff.mp hy with rfl | hy
    · exact List.mem_cons_self
    · exact List.mem_cons_of_mem _ ((h.mem_iff hK).mpr ⟨Set.notMem_empty _, hy⟩)
  constructor
  · intro hpair u hu pre a post hsplit b hb d t had hbt hdep
    obtain ⟨before, below, after, K', heq, hw, hcl, hsub, -⟩ := h.around_root hu
    have hmem : ∀ c ∈ next u, ∀ x, Leads next c x → Leads next root x :=
      fun c hc x hcx => (hu.tail hc).trans hcx
    have ha : a ∈ next u := hsplit ▸ List.mem_append_right _ List.mem_cons_self
    have hb' : b ∈ next u := hsplit ▸ List.mem_append_right _ (List.mem_cons_of_mem _ hb)
    rw [show pre ++ a :: post = (pre ++ [a]) ++ post by simp] at hsplit
    rw [hsplit] at hw
    obtain ⟨vs₁, vs₂, rfl, hw₁, -⟩ := hw.split
    have hmem₁ : ∀ x, x ∈ vs₁.map Prod.snd ↔ _ := fun x => hw₁.mem_iff hcl
    rw [show before ++ u :: (vs₁ ++ vs₂).map Prod.snd ++ after =
      (before ++ u :: vs₁.map Prod.snd) ++ (vs₂.map Prod.snd ++ after) by simp] at heq
    rw [heq] at hpair hall
    by_contra hno
    -- `t` comes after `u`, and nothing walked so far is `t`
    have ht : t ∈ u :: vs₁.map Prod.snd ++ (vs₂.map Prod.snd ++ after) := by
      rw [List.append_assoc] at hpair hall
      exact mem_after hnext hpair (fun y hy => hall y (hu.trans hy)) List.mem_cons_self
        (ReflTransGen.head hb' hbt)
    have ht : t ∈ vs₂.map Prod.snd ++ after := by
      rcases List.mem_append.mp ht with ht | ht
      · rcases List.mem_cons.mp ht with rfl | ht
        · exact absurd (LedTo.transGen hnext ⟨b, hb', hbt⟩) (hac t)
        · exact absurd ((hmem₁ t).mp ht).2 hno
      · exact ht
    have hd : d ∈ before ++ u :: vs₁.map Prod.snd := by
      by_cases hseen : d ∈ K'
      · exact List.mem_append_left _ (hsub d hseen)
      · have hled : LedTo next (pre ++ [a]) d := ledTo_append.mpr (.inr had)
        exact List.mem_append_right _ (List.mem_cons_of_mem _ ((hmem₁ d).mpr ⟨hseen, hled⟩))
    exact (List.pairwise_append.mp hpair).2.2 d hd t ht hdep
  · intro hnested
    refine List.pairwise_cons.mpr ⟨fun y hy hdep => ?_, h.pairwise hnext hac hK ?_ ?_⟩
    · exact hac root ((LedTo.transGen hnext ((h.mem_iff hK).mp hy).2).tail hdep)
    · exact fun u hu => hnested u (leads_iff.mpr (.inr hu))
    · exact (hnested root .refl).nestedFrom

/-- **Where all branches nest, a node is visited from the node that leads to it directly.** -/
theorem Walk.mem_iff_direct (hnext : ∀ a, ∀ b ∈ next a, dep a b)
    (hac : ∀ a, ¬ TransGen dep a a) (h : Walk next root (next root) ∅ vs)
    (hnested : ∀ u, Leads next root u → Nested next dep u) :
    (p, x) ∈ vs ↔ Leads next root p ∧ Direct next p x := by
  have hK : Closed next (∅ : Set α) := fun _ hx => absurd hx (Set.notMem_empty _)
  constructor
  · intro hx
    refine ⟨?_, h.direct hnext hac hK (fun u hu => hnested u (leads_iff.mpr (.inr hu)))
      (hnested root .refl).nestedFrom (fun _ hc => hc) (fun _ hc => .inl hc) hx⟩
    rcases h.from_mem hx with ⟨rfl, -⟩ | ⟨hp, -⟩
    · exact .refl
    · exact leads_iff.mpr (.inr ((h.mem_iff hK).mp hp).2)
  · rintro ⟨hp, hx, hdirect⟩
    obtain ⟨before, below, after, K', heq, hw, hcl, hsub, hbelow⟩ := h.around_root hp
    have hpair := (h.order_iff hnext hac).mpr hnested
    rw [heq, List.append_assoc] at hpair
    obtain ⟨pre, post, hsplit, hpre⟩ := List.eq_append_cons_of_mem hx
    rw [hsplit] at hw
    obtain ⟨vs₁, vs₂, rfl, hw₁, hw₂⟩ := hw.split
    refine hbelow _ (List.mem_append_right _ ?_)
    cases hw₂ with
    | visit new below rest => exact List.mem_append_left _ List.mem_cons_self
    | skip seen rest =>
      rcases seen with hk | hk
      -- seen before `p`, on which it depends
      · exact absurd (hnext p x hx)
          ((List.pairwise_append.mp hpair).2.2 x (hsub x hk) p List.mem_cons_self)
      · obtain ⟨-, c, hc, hcx⟩ := (hw₁.mem_iff hcl).mp hk
        have hcp : c ∈ next p := hsplit ▸ List.mem_append_left _ hc
        exact absurd hcx (hdirect c hcp fun h => hpre (h ▸ hc))

end Acyclic

end Theory
