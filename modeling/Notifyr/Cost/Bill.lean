import Mathlib.Data.Rat.Floor
import Notifyr.Runtime.Python

/-!
# Bills and cost objects

`app/classes/cost_definition.py` (`BillItem`, `Bill`) and `app/definition/_cost.py` (`Cost`,
`DataCost`). A cost object collects purchase and refund items, keeps their running totals and
writes them out as a bill. Amounts and quantities may be fractional (prices per token are);
an item's subtotal is rounded up to a whole number of credits.
-/

namespace Notifyr

/-- A line of a bill (`BillItem`). -/
structure BillItem where
  description : String
  amount : ℚ
  quantity : ℚ
  deriving DecidableEq, Repr

/-- `math.ceil(amount * quantity)`, computed once in `__post_init__`. -/
def BillItem.subtotal (it : BillItem) : ℤ := ⌈it.amount * it.quantity⌉

/-- The dictionary `Cost.generate_bill` returns; `refundType` is the key `Merchant.refund`
adds to it. -/
structure Bill where
  requestId : String
  issuer : String
  definition : Option String
  createdAt : String
  pItems : List BillItem
  rItems : List BillItem
  purchaseTotal : ℤ
  refundTotal : ℤ
  total : ℤ
  balanceBefore : ℤ
  balanceAfter : ℤ
  plan : Option String
  version : Option String
  refundType : Option String := none
  deriving DecidableEq, Repr

/-- `CostService.set_balance`. -/
def Bill.setBalance (bill : Bill) (balance : ℤ) : Bill :=
  { bill with balanceBefore := balance, balanceAfter := balance - bill.total }

@[simp] theorem Bill.setBalance_total (bill : Bill) (balance : ℤ) :
    (bill.setBalance balance).total = bill.total := rfl

/-- The state of a `Cost` object. -/
structure Cost where
  purchaseCost : ℤ := 0
  refundCost : ℤ := 0
  lastTotal : ℤ := 0
  issuer : String
  requestId : String
  createdAt : String
  purchaseItems : List BillItem := []
  refundItems : List BillItem := []
  creditKey : String
  definitionName : Option String := none
  /-- `costService.plan` and `costService.version`, read when a bill is written. -/
  plan : Option String
  version : Option String
  deriving DecidableEq, Repr

namespace Cost

/-- `Cost.purchase`. -/
def purchase (c : Cost) (description : String) (amount quantity : ℚ) : Cost :=
  let item : BillItem := { description, amount, quantity }
  { c with
    purchaseItems := c.purchaseItems ++ [item]
    purchaseCost := c.purchaseCost + item.subtotal }

/-- `Cost.refund`. -/
def refund (c : Cost) (description : String) (amount quantity : ℚ) : Cost :=
  let item : BillItem := { description, amount, quantity }
  { c with
    refundItems := c.refundItems ++ [item]
    refundCost := c.refundCost + item.subtotal }

/-- `Cost.reset_bill`; `last_total` survives unless forced. -/
def resetBill (c : Cost) (force : Bool := false) : Cost :=
  { c with
    purchaseItems := []
    refundItems := []
    purchaseCost := 0
    refundCost := 0
    lastTotal := if force then 0 else c.lastTotal }

/-- `Cost.generate_bill`. -/
def generateBill (c : Cost) : Bill where
  requestId := c.requestId
  issuer := c.issuer
  definition := c.definitionName
  createdAt := c.createdAt
  pItems := c.purchaseItems
  rItems := c.refundItems
  purchaseTotal := c.purchaseCost
  refundTotal := c.refundCost
  total := c.purchaseCost - c.refundCost
  balanceBefore := 0
  balanceAfter := 0
  plan := c.plan
  version := c.version

/-- `Cost.__add__`: the receiver's own refund items are appended to themselves, where the
other cost's were meant. -/
def add (c other : Cost) : Cost :=
  { c with
    purchaseItems := c.purchaseItems ++ other.purchaseItems
    refundItems := c.refundItems ++ c.refundItems
    purchaseCost := c.purchaseCost + other.purchaseCost
    refundCost := c.refundCost + other.refundCost }

@[simp] theorem purchase_purchaseCost (c : Cost) (d : String) (a q : ℚ) :
    (c.purchase d a q).purchaseCost = c.purchaseCost + ⌈a * q⌉ := rfl

@[simp] theorem refund_refundCost (c : Cost) (d : String) (a q : ℚ) :
    (c.refund d a q).refundCost = c.refundCost + ⌈a * q⌉ := rfl

@[simp] theorem generateBill_total (c : Cost) :
    c.generateBill.total = c.purchaseCost - c.refundCost := rfl

end Cost

end Notifyr
