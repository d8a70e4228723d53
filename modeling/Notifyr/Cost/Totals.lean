import Mathlib.Algebra.BigOperators.Group.List.Lemmas
import Notifyr.Cost.Bill
import Notifyr.Theory.Runs

/-!
# The running totals of cost objects

A request works on several `Cost` objects, which it charges, refunds, empties and adds to one
another. An operation names the objects by reference, so that an object may be added to itself.

- `CostOp`, `CostHeap.step`: one operation on the objects.
- `Bill.AddsUp`: the items of a bill add up to its totals; `Cost.TotalsAgree` is what it takes of
  the cost object.
- `Contributes`: what adding a cost object owes: the items of both, each once.
- `CostsSound`: both, along a run.
- `costsSound_iff`: `Cost.__add__` repeats the receiver's refund items, so a run is sound exactly
  if at each addition the two objects hold the same refund items.
-/

namespace Notifyr

open Theory

/-- `Cost.__inner__init__`. -/
def Cost.inner (issuer requestId createdAt creditKey : String) (plan version : Option String) :
    Cost where
  issuer := issuer
  requestId := requestId
  createdAt := createdAt
  creditKey := creditKey
  plan := plan
  version := version

/-- An operation on cost objects, given by reference. -/
inductive CostOp
  | purchase (self : Nat) (description : String) (amount quantity : ℚ)
  | refund (self : Nat) (description : String) (amount quantity : ℚ)
  | resetBill (self : Nat) (force : Bool)
  | add (self other : Nat)

/-- The cost objects by reference. -/
abbrev CostHeap := Nat → Cost

/-- New cost objects. -/
def CostHeap.inner (issuer requestId createdAt creditKey : Nat → String)
    (plan version : Nat → Option String) : CostHeap := fun i =>
  Cost.inner (issuer i) (requestId i) (createdAt i) (creditKey i) (plan i) (version i)

/-- One operation. -/
def CostHeap.step (h : CostHeap) : CostOp → CostHeap
  | .purchase i d a q => Function.update h i ((h i).purchase d a q)
  | .refund i d a q => Function.update h i ((h i).refund d a q)
  | .resetBill i force => Function.update h i ((h i).resetBill force)
  | .add i j => Function.update h i ((h i).add (h j))

/-- The items of a bill add up to its totals. -/
def Bill.AddsUp (b : Bill) : Prop :=
  b.purchaseTotal = (b.pItems.map BillItem.subtotal).sum ∧
    b.refundTotal = (b.rItems.map BillItem.subtotal).sum ∧
      b.total = b.purchaseTotal - b.refundTotal

/-- The running totals are the sums of the subtotals. -/
structure Cost.TotalsAgree (c : Cost) : Prop where
  purchase : c.purchaseCost = (c.purchaseItems.map BillItem.subtotal).sum
  refund : c.refundCost = (c.refundItems.map BillItem.subtotal).sum

/-- The object `c'` is `c` with the items of `other`, each once and in whatever order. -/
structure Contributes (c other c' : Cost) : Prop where
  purchase : c'.purchaseItems.Perm (c.purchaseItems ++ other.purchaseItems)
  refund : c'.refundItems.Perm (c.refundItems ++ other.refundItems)

/-- What an operation owes: an addition contributes the other object's items. -/
def OpSound (h : CostHeap) : CostOp → Prop
  | .add i j => Contributes (h i) (h j) (CostHeap.step h (.add i j) i)
  | _ => True

/-- A run of operations keeps every object's totals and bill in step with its items, in every
state reached, and its additions contribute what they should. -/
structure CostsSound (h : CostHeap) (ops : List CostOp) : Prop where
  totals : ∀ before after, ops = before ++ after → ∀ i,
    (runFrom CostHeap.step h before i).TotalsAgree
  bills : ∀ before after, ops = before ++ after → ∀ i,
    (runFrom CostHeap.step h before i).generateBill.AddsUp
  adds : Always CostHeap.step OpSound h ops

/-- The condition on an addition: the two objects hold the same refund items. -/
def SameRefunds (h : CostHeap) : CostOp → Prop
  | .add i j => (h i).refundItems.Perm (h j).refundItems
  | _ => True

/-! ## One operation -/

section Operations

variable {c other : Cost}

theorem Cost.TotalsAgree.addsUp (h : c.TotalsAgree) : c.generateBill.AddsUp :=
  ⟨h.purchase, h.refund, rfl⟩

theorem totalsAgree_purchase (h : c.TotalsAgree) (d : String) (a q : ℚ) :
    (c.purchase d a q).TotalsAgree where
  purchase := by
    show c.purchaseCost + _ = ((c.purchaseItems ++ [_]).map BillItem.subtotal).sum
    rw [List.map_append, List.sum_append, h.purchase]
    simp
  refund := h.refund

theorem totalsAgree_refund (h : c.TotalsAgree) (d : String) (a q : ℚ) :
    (c.refund d a q).TotalsAgree where
  purchase := h.purchase
  refund := by
    show c.refundCost + _ = ((c.refundItems ++ [_]).map BillItem.subtotal).sum
    rw [List.map_append, List.sum_append, h.refund]
    simp

theorem totalsAgree_resetBill (c : Cost) (force : Bool) : (c.resetBill force).TotalsAgree :=
  ⟨rfl, rfl⟩

/-- An addition keeps the totals if the refund items it repeats are worth what it adds. -/
theorem totalsAgree_add (h : c.TotalsAgree) (hother : other.TotalsAgree)
    (hsame : c.refundItems.Perm other.refundItems) : (c.add other).TotalsAgree where
  purchase := by
    show c.purchaseCost + other.purchaseCost =
      ((c.purchaseItems ++ other.purchaseItems).map BillItem.subtotal).sum
    rw [List.map_append, List.sum_append, h.purchase, hother.purchase]
  refund := by
    have hworth : (other.refundItems.map BillItem.subtotal).sum =
        (c.refundItems.map BillItem.subtotal).sum := (hsame.map _).sum_eq.symm
    show c.refundCost + other.refundCost =
      ((c.refundItems ++ c.refundItems).map BillItem.subtotal).sum
    rw [List.map_append, List.sum_append, h.refund, hother.refund, hworth]

/-- An addition contributes the other object's items exactly if they are the receiver's. -/
theorem contributes_add_iff :
    Contributes c other (c.add other) ↔ c.refundItems.Perm other.refundItems := by
  constructor
  · intro h
    have hperm : (c.refundItems ++ c.refundItems).Perm (c.refundItems ++ other.refundItems) :=
      h.refund
    exact (List.perm_append_left_iff _).mp hperm
  · intro h
    refine ⟨List.Perm.refl _, ?_⟩
    show (c.refundItems ++ c.refundItems).Perm (c.refundItems ++ other.refundItems)
    exact (List.perm_append_left_iff _).mpr h

/-- Changing one object keeps what holds of all. -/
theorem forall_update {P : Cost → Prop} {h : CostHeap} (hall : ∀ i, P (h i)) {j : Nat}
    (hc : P c) : ∀ i, P (Function.update h j c i) := by
  intro i
  by_cases hi : i = j
  · subst hi
    rw [Function.update_self]
    exact hc
  · rw [Function.update_of_ne hi]
    exact hall i

end Operations

/-- An operation that owes nothing or meets the condition keeps all totals. -/
theorem totalsAgree_step {h : CostHeap} (op : CostOp) (hall : ∀ i, (h i).TotalsAgree)
    (hop : SameRefunds h op) : ∀ i, (CostHeap.step h op i).TotalsAgree := by
  cases op with
  | purchase j d a q => exact forall_update hall (totalsAgree_purchase (hall j) d a q)
  | refund j d a q => exact forall_update hall (totalsAgree_refund (hall j) d a q)
  | resetBill j force => exact forall_update hall (totalsAgree_resetBill (h j) force)
  | add j k => exact forall_update hall (totalsAgree_add (hall j) (hall k) hop)

/-- What an operation owes, by its condition. -/
theorem opSound_iff (h : CostHeap) (op : CostOp) : OpSound h op ↔ SameRefunds h op := by
  cases op with
  | add i j =>
    show Contributes (h i) (h j) (Function.update h i ((h i).add (h j)) i) ↔ _
    rw [Function.update_self]
    exact contributes_add_iff
  | purchase | refund | resetBill => exact Iff.rfl

/-! ## Runs -/

/-- Along a run whose additions meet the condition the totals agree. -/
theorem totalsAgree_runFrom {h : CostHeap} {ops : List CostOp}
    (hall : ∀ i, (h i).TotalsAgree) (hops : Always CostHeap.step SameRefunds h ops) :
    ∀ i, (runFrom CostHeap.step h ops i).TotalsAgree :=
  (always_of_inv (I := fun h : CostHeap => ∀ i, (h i).TotalsAgree) (Q := fun _ _ => True)
    (fun _ op hall hop => ⟨trivial, totalsAgree_step op hall hop⟩) hall hops).2

/-- **Cost objects.** From new objects, a run is sound exactly if at each of its additions the
receiver and the other object hold the same refund items. -/
theorem costsSound_iff (issuer requestId createdAt creditKey : Nat → String)
    (plan version : Nat → Option String) (ops : List CostOp) :
    CostsSound (.inner issuer requestId createdAt creditKey plan version) ops ↔
      Always CostHeap.step SameRefunds
        (.inner issuer requestId createdAt creditKey plan version) ops := by
  constructor
  · intro h
    exact h.adds.mono fun h op => (opSound_iff h op).mp
  · intro hops
    have hagree : ∀ before after, ops = before ++ after → ∀ i, (runFrom CostHeap.step
        (.inner issuer requestId createdAt creditKey plan version) before i).TotalsAgree := by
      rintro before after rfl
      exact totalsAgree_runFrom (fun i => ⟨rfl, rfl⟩) hops.of_append
    exact ⟨hagree, fun before after h i => (hagree before after h i).addsUp,
      hops.mono fun h op => (opSound_iff h op).mpr⟩

/-- A refund of five credits, another of three, and the second object added to the first. -/
theorem not_costsSound :
    ¬ CostsSound (.inner (fun _ => "client") (fun _ => "r1") (fun _ => "now")
        (fun _ => "document") (fun _ => none) fun _ => none)
      [.refund 0 "a" 5 1, .refund 1 "b" 3 1, .add 0 1] := by
  intro h
  have htotal := (h.totals [.refund 0 "a" 5 1, .refund 1 "b" 3 1, .add 0 1] [] rfl 0).refund
  revert htotal
  decide +kernel

end Notifyr
