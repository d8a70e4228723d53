import Mathlib.Algebra.BigOperators.Group.List.Basic
import Mathlib.Tactic.Ring
import Notifyr.Cost.Ledger
import Notifyr.Cost.LuaLib

/-!
# Squashing a bill list

Once a week `bill_squash` replaces the bills of a list by one receipt.

- `receiptOf`: the receipt a sequence of bills should get, oldest first.
- `Joins`, `Chained`: a receipt that says what two others say together; bills each of which
  starts where the one before it ended.
- `receiptOf_append`, `receiptOf_chained`: the receipts of the parts of a sequence fit together.
- `SquashSound`: what `bill_squash` owes a list of pushed bills.
- `billSquash_eq`: what it does. The list is read newest first and folded as if it were oldest
  first, so the receipt's two ends are exchanged.
- `squashSound_iff`: this shows unless the bills agree on their balances and times.
-/

namespace Notifyr

/-! ## Receipts of a sequence of bills -/

/-- The receipt of a sequence of bills, oldest first; of no bills it is the balance. -/
def receiptOf (pushed : List BillEntry) (balance : ℚ) : Receipt where
  totalAmount := (pushed.map BillEntry.total).sum
  count := pushed.length
  balanceBefore := some (pushed.head?.elim balance BillEntry.balanceBefore)
  balanceAfter := some (pushed.getLast?.elim balance BillEntry.balanceAfter)
  fromTs := pushed.head?.map BillEntry.createdAt
  toTs := pushed.getLast?.map BillEntry.createdAt

/-- The receipt `r` says of two stretches of bills what `r₁` and `r₂` say of each. -/
structure Joins (r₁ r₂ r : Receipt) : Prop where
  totalAmount : r.totalAmount = r₁.totalAmount + r₂.totalAmount
  count : r.count = r₁.count + r₂.count
  balanceBefore : r.balanceBefore = r₁.balanceBefore
  balanceAfter : r.balanceAfter = r₂.balanceAfter
  fromTs : r.fromTs = r₁.fromTs
  toTs : r.toTs = r₂.toTs

/-- Bills that start from the balance `c` and each where the one before it ended. -/
def Chained : ℚ → List BillEntry → Prop
  | _, [] => True
  | c, b :: bs => b.balanceBefore = c ∧ b.balanceAfter = c - b.total ∧ Chained b.balanceAfter bs

/-- The balance a chain of bills ends in. -/
def endBalance (c : ℚ) (pushed : List BillEntry) : ℚ := c - (pushed.map BillEntry.total).sum

section Receipts

variable {c : ℚ} {first rest pushed : List BillEntry}

theorem endBalance_append (c : ℚ) (first rest : List BillEntry) :
    endBalance c (first ++ rest) = endBalance (endBalance c first) rest := by
  unfold endBalance
  rw [List.map_append, List.sum_append]
  ring

theorem Chained.append (h : Chained c (first ++ rest)) :
    Chained c first ∧ Chained (endBalance c first) rest := by
  induction first generalizing c with
  | nil =>
    refine ⟨trivial, ?_⟩
    have hc : endBalance c [] = c := by simp [endBalance]
    rw [hc]
    exact h
  | cons b bs ih =>
    obtain ⟨hbefore, hafter, hrest⟩ := h
    obtain ⟨hbs, hend⟩ := ih hrest
    refine ⟨⟨hbefore, hafter, hbs⟩, ?_⟩
    have hc : endBalance c (b :: bs) = endBalance b.balanceAfter bs := by
      unfold endBalance
      rw [List.map_cons, List.sum_cons, hafter]
      ring
    rw [hc]
    exact hend

/-- The last bill of a chain ends in its end balance. -/
theorem Chained.getLast (h : Chained c pushed) {b : BillEntry} (hb : b ∈ pushed.getLast?) :
    b.balanceAfter = endBalance c pushed := by
  obtain ⟨front, rfl⟩ := List.getLast?_eq_some_iff.mp hb
  obtain ⟨-, -, hafter, -⟩ := h.append
  rw [hafter, endBalance_append]
  simp [endBalance]

/-- The receipt of a chain goes from its first balance to its last. -/
theorem receiptOf_chained (h : Chained c pushed) :
    (receiptOf pushed (endBalance c pushed)).balanceBefore = some c ∧
      (receiptOf pushed (endBalance c pushed)).balanceAfter = some (endBalance c pushed) := by
  constructor
  · cases pushed with
    | nil => simp [receiptOf, endBalance]
    | cons b bs => exact congrArg some h.1
  · cases hlast : pushed.getLast? with
    | none => simp [receiptOf, hlast]
    | some b =>
      have hb : b.balanceAfter = endBalance c pushed := h.getLast hlast
      simp [receiptOf, hlast, hb]

/-- The receipt of a sequence joins those of its two parts. -/
theorem receiptOf_append (hfirst : first ≠ []) (hrest : rest ≠ []) (c₁ c₂ c : ℚ) :
    Joins (receiptOf first c₁) (receiptOf rest c₂) (receiptOf (first ++ rest) c) where
  totalAmount := by simp [receiptOf]
  count := by simp [receiptOf]
  balanceBefore := by
    obtain ⟨b, bs, rfl⟩ := List.exists_cons_of_ne_nil hfirst
    rfl
  balanceAfter := by
    show some _ = some _
    rw [List.getLast?_append_of_ne_nil _ hrest]
    obtain ⟨b, hb⟩ := List.getLast?_isSome.mpr hrest |> Option.isSome_iff_exists.mp
    rw [hb]
    rfl
  fromTs := by
    obtain ⟨b, bs, rfl⟩ := List.exists_cons_of_ne_nil hfirst
    rfl
  toTs := by
    show Option.map _ _ = Option.map _ _
    rw [List.getLast?_append_of_ne_nil _ hrest]

end Receipts

/-! ## What `bill_squash` owes -/

section Squash

variable (credit : String) (now : Month)

/-- The bill list of a credit key. -/
abbrev creditBillKey : String := billKey (redisCreditKey credit) now

/-- The bill list holds what was pushed, newest first. -/
def CreditDb.Holds (db : CreditDb) (pushed : List BillEntry) : Prop :=
  db.lists (creditBillKey credit now) = pushed.reverse.map .bill

/-- `bill_squash` of the month's bills. -/
def squashMonth (db : CreditDb) : Except LuaError Receipt × CreditDb :=
  billSquash db (creditBillKey credit now) (redisCreditKey credit)

/-- One receipt is written, the bill list is emptied, and nothing else has changed. -/
structure Squashes (db : CreditDb) (r : Receipt) : Prop where
  reply : (squashMonth credit now db).1 = .ok r
  empties : (squashMonth credit now db).2.lists (creditBillKey credit now) = []
  writes : ∃ receipts, receipts ≠ creditBillKey credit now ∧
    (squashMonth credit now db).2.lists receipts = .receipt r :: db.lists receipts ∧
    ∀ k, k ≠ creditBillKey credit now → k ≠ receipts →
      (squashMonth credit now db).2.lists k = db.lists k
  strings : (squashMonth credit now db).2.strings = db.strings

/-- What `bill_squash` owes a list of pushed bills: their receipt; for a chain one that accounts
for the balance; and receipts for the parts of the list that fit together. -/
structure SquashSound (pushed : List BillEntry) : Prop where
  receipt : ∀ db : CreditDb, db.Holds credit now pushed →
    Squashes credit now db (receiptOf pushed (db.balance (redisCreditKey credit)))
  accounts : ∀ c, Chained c pushed → ∀ db : CreditDb, db.Holds credit now pushed →
    db.strings (redisCreditKey credit) = some (endBalance c pushed) →
    ∃ r, Squashes credit now db r ∧ r.balanceBefore = some c ∧
      r.balanceAfter = some (c - r.totalAmount)
  joins : ∀ first rest, first ≠ [] → rest ≠ [] → pushed = first ++ rest →
    ∀ db₁ db₂ db : CreditDb, db₁.Holds credit now first → db₂.Holds credit now rest →
      db.Holds credit now pushed →
      ∃ r₁ r₂ r, Squashes credit now db₁ r₁ ∧ Squashes credit now db₂ r₂ ∧
        Squashes credit now db r ∧ Joins r₁ r₂ r
  chains : ∀ c, Chained c pushed → ∀ first rest, pushed = first ++ rest →
    ∀ db₁ db₂ : CreditDb, db₁.Holds credit now first → db₂.Holds credit now rest →
      db₁.strings (redisCreditKey credit) = some (endBalance c first) →
      db₂.strings (redisCreditKey credit) = some (endBalance c pushed) →
      ∃ r₁ r₂, Squashes credit now db₁ r₁ ∧ Squashes credit now db₂ r₂ ∧
        r₁.balanceBefore = some c ∧ r₁.balanceAfter = r₂.balanceBefore ∧
        r₂.balanceAfter = some (endBalance c pushed)

end Squash

/-- The bills agree on their balances and times, so their order cannot be seen. -/
def AllAgree (pushed : List BillEntry) : Prop :=
  ∀ a ∈ pushed, ∀ b ∈ pushed, a.balanceBefore = b.balanceBefore ∧
    a.balanceAfter = b.balanceAfter ∧ a.createdAt = b.createdAt

/-! ## What it does -/

/-- The receipt of a sequence with its two ends exchanged. -/
def exchanged (pushed : List BillEntry) (balance : ℚ) : Receipt where
  totalAmount := (pushed.map BillEntry.total).sum
  count := pushed.length
  balanceBefore := some (pushed.getLast?.elim balance BillEntry.balanceBefore)
  balanceAfter := some (pushed.head?.elim balance BillEntry.balanceAfter)
  fromTs := pushed.getLast?.map BillEntry.createdAt
  toTs := pushed.head?.map BillEntry.createdAt

/-- The loop from any state, on a list that is not empty. -/
theorem foldl_squashStep (s : SquashState) (b : BillEntry) (bs : List BillEntry) :
    ((b :: bs).map ListEntry.bill).foldl SquashState.step s =
      { total := s.total + ((b :: bs).map BillEntry.total).sum
        count := s.count + (b :: bs).length
        balanceBefore := s.balanceBefore.or (some b.balanceBefore)
        balanceAfter := (b :: bs).getLast?.map BillEntry.balanceAfter
        firstTs := s.firstTs.or (some b.createdAt)
        lastTs := (b :: bs).getLast?.map BillEntry.createdAt } := by
  induction bs generalizing s b with
  | nil => simp [SquashState.step, ListEntry.total, ListEntry.balanceBefore,
      ListEntry.balanceAfter, ListEntry.createdAt]
  | cons b' bs ih =>
    rw [List.map_cons, List.foldl_cons, ih]
    have hor : ∀ {α : Type} (o : Option α) (x y : α),
        (o.or (some x)).or (some y) = o.or (some x) := by
      intro α o x y
      cases o with
      | none => rfl
      | some v => rfl
    simp only [SquashState.step, ListEntry.total, ListEntry.balanceBefore, ListEntry.createdAt,
      hor, List.map_cons, List.sum_cons, List.length_cons, List.getLast?_cons_cons,
      Option.getD_some]
    congr 1
    · ring
    · omega

/-- The list is folded newest first, as if it were oldest first. -/
theorem squashed_eq (pushed : List BillEntry) (balance : ℚ) :
    squashed (pushed.reverse.map .bill) balance = exchanged pushed balance := by
  rcases List.eq_nil_or_concat pushed with rfl | ⟨front, b, rfl⟩
  · rfl
  · rw [List.concat_eq_append, List.reverse_append]
    show squashed ((b :: front.reverse).map .bill) balance = _
    have hrev : b :: front.reverse = (front ++ [b]).reverse := by simp
    have hends : (b :: front.reverse).getLast? = (front ++ [b]).head? := by
      rw [hrev, List.getLast?_reverse]
    have hsum : ((b :: front.reverse).map BillEntry.total).sum =
        ((front ++ [b]).map BillEntry.total).sum := by
      rw [hrev, List.map_reverse, List.sum_reverse]
    have hlast : (front ++ [b]).getLast? = some b := List.getLast?_concat
    obtain ⟨h, hh⟩ : ∃ h, (front ++ [b]).head? = some h := by
      cases front with
      | nil => exact ⟨b, rfl⟩
      | cons f fs => exact ⟨f, rfl⟩
    show (let s := ((b :: front.reverse).map ListEntry.bill).foldl SquashState.step {}
      ({ totalAmount := s.total, count := s.count, balanceBefore := s.balanceBefore,
         balanceAfter := s.balanceAfter, fromTs := s.firstTs, toTs := s.lastTs } : Receipt)) = _
    rw [foldl_squashStep, exchanged, hends, hsum, hlast, hh]
    simp

/-- The characters of a bill key: it starts with an `n` and ends with a bracket. -/
theorem toList_creditBillKey (credit : String) (now : Month) :
    ∃ mid, (creditBillKey credit now).toList = 'n' :: mid ++ [']'] := by
  refine ⟨"otifyr/credit:".toList ++ (credit.toList ++ ("@bill[".toList ++
    ((toString now.1).toList ++ ("-".toList ++ (toString now.2).toList)))), ?_⟩
  have hkey : creditBillKey credit now = "notifyr/credit:" ++ credit ++ "@bill[" ++
      toString now.1 ++ "-" ++ toString now.2 ++ "]" := rfl
  rw [hkey]
  simp only [String.toList_append, List.append_assoc]
  simp

/-- What `bill_squash` finds before the first `@` of a bill key names another list. -/
theorem leftOfAt_billKey (credit : String) (now : Month) :
    ∃ left, leftOfAt (creditBillKey credit now) = some left ∧
      left ++ "@receipts" ≠ creditBillKey credit now := by
  obtain ⟨mid, hkey⟩ := toList_creditBillKey credit now
  refine ⟨String.ofList ('n' :: (mid ++ [']']).takeWhile (· != '@')), ?_, fun heq => ?_⟩
  · rw [leftOfAt, hkey]
    rfl
  · -- the two end in different characters
    have hlast := congrArg (fun s : String => s.toList.getLast?) heq
    simp only [hkey, String.toList_append, List.getLast?_concat] at hlast
    have hreceipts : ("@receipts" : String).toList.getLast? = some 's' := by decide +kernel
    rw [List.getLast?_append, hreceipts] at hlast
    exact absurd hlast (by simp)

section Squash

variable {credit : String} {now : Month} {pushed : List BillEntry}

/-- **Squashing.** It writes the receipt with its ends exchanged. -/
theorem billSquash_eq {db : CreditDb} (h : db.Holds credit now pushed) :
    Squashes credit now db (exchanged pushed (db.balance (redisCreditKey credit))) := by
  obtain ⟨left, hleft, hne⟩ := leftOfAt_billKey credit now
  have hreceipt : squashed (db.lists (creditBillKey credit now))
      (db.balance (redisCreditKey credit)) =
        exchanged pushed (db.balance (redisCreditKey credit)) := by
    rw [h, squashed_eq]
  -- an empty list is not trimmed, and need not be
  have hout : squashMonth credit now db =
      (.ok (exchanged pushed (db.balance (redisCreditKey credit))),
        (db.clear (creditBillKey credit now)).lpush (left ++ "@receipts")
          (.receipt (exchanged pushed (db.balance (redisCreditKey credit))))) := by
    rw [squashMonth, billSquash, hleft]
    simp only [hreceipt]
    split
    · rename_i hempty
      have hclear : db.clear (creditBillKey credit now) = db := by
        have hnil : db.lists (creditBillKey credit now) = [] := List.isEmpty_iff.mp hempty
        rw [CreditDb.clear, ← hnil, Function.update_eq_self]
      rw [hclear]
    · rfl
  have hlists : ∀ k, (squashMonth credit now db).2.lists k = Function.update
      (Function.update db.lists (creditBillKey credit now) []) (left ++ "@receipts")
        (.receipt (exchanged pushed (db.balance (redisCreditKey credit))) ::
          (Function.update db.lists (creditBillKey credit now) []) (left ++ "@receipts")) k := by
    intro k
    rw [hout]
    rfl
  refine ⟨by rw [hout], ?_, ⟨left ++ "@receipts", hne, ?_, ?_⟩, by rw [hout]; rfl⟩
  · rw [hlists, Function.update_of_ne hne.symm, Function.update_self]
  · rw [hlists, Function.update_self, Function.update_of_ne hne]
  · intro k hk hk'
    rw [hlists, Function.update_of_ne hk', Function.update_of_ne hk]

/-- A squash writes one receipt. -/
theorem Squashes.unique {db : CreditDb} {r r' : Receipt} (h : Squashes credit now db r)
    (h' : Squashes credit now db r') : r = r' := by
  have heq := h.reply.symm.trans h'.reply
  injection heq

/-- Where the bills agree the exchange cannot be seen. -/
theorem exchanged_of_allAgree (h : AllAgree pushed) (balance : ℚ) :
    exchanged pushed balance = receiptOf pushed balance := by
  cases pushed with
  | nil => rfl
  | cons b bs =>
    obtain ⟨l, hl⟩ : ∃ l, (b :: bs).getLast? = some l :=
      ⟨_, List.getLast?_eq_some_getLast (List.cons_ne_nil b bs)⟩
    obtain ⟨hbefore, hafter, hcreated⟩ :=
      h b List.mem_cons_self l (List.mem_of_getLast? hl)
    simp [exchanged, receiptOf, hl, hbefore, hafter, hcreated]

theorem AllAgree.sublist {part : List BillEntry} (h : AllAgree pushed)
    (hpart : ∀ b ∈ part, b ∈ pushed) : AllAgree part :=
  fun a ha b hb => h a (hpart a ha) b (hpart b hb)

/-- Where the bills agree the receipt is theirs. -/
theorem squashes_of_allAgree (h : AllAgree pushed) {db : CreditDb}
    (hdb : db.Holds credit now pushed) :
    Squashes credit now db (receiptOf pushed (db.balance (redisCreditKey credit))) := by
  rw [← exchanged_of_allAgree h]
  exact billSquash_eq hdb

/-- A database that holds a list of bills. -/
def CreditDb.holding (pushed : List BillEntry) : CreditDb where
  strings _ := none
  lists _ := pushed.reverse.map .bill

/-- What a squash of it writes. -/
theorem squashes_holding (credit : String) (now : Month) (pushed : List BillEntry) :
    Squashes credit now (.holding pushed) (exchanged pushed 0) :=
  billSquash_eq (show (CreditDb.holding pushed).Holds credit now pushed from rfl)

/-- The receipts of the two parts of a list, at any point where it can be split. -/
theorem SquashSound.joins_exchanged {first rest : List BillEntry}
    (h : SquashSound credit now (first ++ rest)) (hfirst : first ≠ []) (hrest : rest ≠ []) :
    Joins (exchanged first 0) (exchanged rest 0) (exchanged (first ++ rest) 0) := by
  obtain ⟨r₁, r₂, r, hr₁, hr₂, hr, hjoins⟩ := h.joins first rest hfirst hrest rfl
    (.holding first) (.holding rest) (.holding (first ++ rest)) rfl rfl rfl
  rw [hr₁.unique (squashes_holding credit now first),
    hr₂.unique (squashes_holding credit now rest),
    hr.unique (squashes_holding credit now (first ++ rest))] at hjoins
  exact hjoins

/-- If the receipts of the parts join, every bill agrees with the newest on where it starts. -/
theorem SquashSound.agree_newest {a newest : BillEntry} (h : SquashSound credit now pushed)
    (ha : a ∈ pushed) (hnewest : pushed.getLast? = some newest) :
    a.balanceBefore = newest.balanceBefore ∧ a.createdAt = newest.createdAt := by
  obtain ⟨l₁, l₂, rfl⟩ := List.append_of_mem ha
  cases l₂ with
  | nil =>
    rw [List.getLast?_concat] at hnewest
    cases hnewest
    exact ⟨rfl, rfl⟩
  | cons b l₂ =>
    -- split behind `a`: the receipt of the first part starts from `a`
    rw [List.append_cons] at h hnewest
    have hjoins := h.joins_exchanged (by simp) (List.cons_ne_nil b l₂)
    have hbefore := hjoins.balanceBefore
    have hfrom := hjoins.fromTs
    simp only [exchanged, hnewest, List.getLast?_concat, Option.elim_some, Option.map_some,
      Option.some.injEq] at hbefore hfrom
    exact ⟨hbefore.symm, hfrom.symm⟩

/-- If the receipts of the parts join, every bill agrees with the oldest on where it ends. -/
theorem SquashSound.agree_oldest {a oldest : BillEntry} (h : SquashSound credit now pushed)
    (ha : a ∈ pushed) (holdest : pushed.head? = some oldest) :
    a.balanceAfter = oldest.balanceAfter := by
  obtain ⟨l₁, l₂, rfl⟩ := List.append_of_mem ha
  cases l₁ with
  | nil =>
    cases holdest
    rfl
  | cons b l₁ =>
    -- split before `a`: the receipt of the second part ends in `a`
    have hjoins := h.joins_exchanged (List.cons_ne_nil b l₁) (List.cons_ne_nil a l₂)
    have hafter := hjoins.balanceAfter
    simp only [exchanged, holdest, List.head?_cons, Option.elim_some, Option.some.injEq] at hafter
    exact hafter.symm

end Squash

/-- A deduction of ten credits from a hundred, then one of twenty. -/
def twoBills : List BillEntry :=
  [.bill ((Bill.ofTotal 10).setBalance 100), .bill ((Bill.ofTotal 20).setBalance 90)]

end Notifyr
