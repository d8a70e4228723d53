import Notifyr.Cost.IngestCost
import Notifyr.Cost.Ledger

/-!
# Cancelling an ingest request

A request for ingestion is charged at its admission (`DataCostInterceptor` with mode `purchase`)
and can be cancelled in three ways before a document is ingested: enqueueing fails
(`Merchant.safe_payment`), the queued job is aborted (`abort_job`, whose interceptor has mode
`refund`), or the worker ends before its processing step (`refund` in `RegisterTask`).

- `IngestRequest`: a request of one of the three tasks, with its definitions and sizes;
  `IngestRequest.price` is what it costs.
- `admission`: the admission, as a program of a ledger client.
- `CancelPath`, `cancel`: the three ways of cancelling.
- `refunded_iff`: cancelling gives the balance back exactly if there was nothing to give.
-/

namespace Notifyr

open Theory Theory.Prog

/-- `CostConstant.DOCUMENT_CREDIT`. -/
def documentCredit : String := "document"

/-- What a cost object is told of the request, of the clock and of the cost service. -/
structure CostInfo where
  requestId : String
  issuer : String
  createdAt : String
  plan : Option String
  version : Option String

/-- A request for ingestion, as the cost classes see it: the accepted files, the sizes of a
crawl, or the name and `top_k` of a research. -/
inductive IngestRequest
  | file (definition : FileCostDefinition) (db : DbConfig) (metadata : List UriMetadata)
  | crawl (definition : MarkdownCostDefinition) (db : DbConfig) (uri : String) (task : CrawlSizes)
  | research (definition : MarkdownCostDefinition) (name : String) (topK : ℤ)
      (metadata : UriMetadata)

namespace IngestRequest

/-- What the request costs by its definitions and sizes. -/
def price : IngestRequest → ℤ
  | file definition db metadata =>
    db.count * (metadata.map fun m => filePrice definition m.size).sum
  | crawl definition db _ task => db.count * crawlPrice definition task.urlSize task.pdfSize
  | research definition _ topK _ => researchPrice definition topK

/-- `definition_name` of the cost class. -/
def definitionName : IngestRequest → String
  | file .. => "Document Ingestion"
  | crawl .. => "Crawl Ingestion"
  | research .. => "Research Ingestion"

/-- The cost object of a request before it is charged. -/
def freshCost (r : IngestRequest) (info : CostInfo) : Cost where
  issuer := info.issuer
  requestId := info.requestId
  createdAt := info.createdAt
  creditKey := documentCredit
  definitionName := some r.definitionName
  plan := info.plan
  version := info.version

/-- The jobs that are enqueued for the request. -/
def jobs : IngestRequest → List UriMetadata
  | file _ _ metadata => metadata
  | crawl definition _ uri task =>
    [⟨uri, CrawlMarkdownIngestCost.totalSize (.init definition .partialRefund) task.urlSize
      task.pdfSize⟩]
  | research _ _ _ metadata => [metadata]

/-- `post_purchase` of the cost class. -/
def postPurchase (r : IngestRequest) (c : Cost) : Cost :=
  match r with
  | file definition db metadata => (FileIngestCost.init definition).postPurchase metadata db c
  | crawl definition db _ task =>
    CrawlMarkdownIngestCost.postPurchase (.init definition .partialRefund) task db c
  | research definition name topK _ =>
    ResearchMarkdownIngestCost.postPurchase (.init definition .partialRefund) name topK c

end IngestRequest

/-- `intercept_after` of the interceptor that purchases: the bill is deducted. -/
def admission (cfg : CostConfig) (r : IngestRequest) (cost : Cost) (clock : Nat → Month) :
    Client (Option ℤ) :=
  let cost := r.postPurchase cost
  let bill := cost.generateBill
  if bill.total < 0 then raise (.costLessThanZeroError cost.lastTotal)
  else deductCredits cfg (redisCreditKey documentCredit) bill clock 20

/-! ## The three ways of cancelling -/

/-- `Merchant.refund` with the factor 1. -/
def merchantRefund (cfg : CostConfig) (cost : Cost) (now : Month) : Client Unit := do
  let bill := cost.generateBill
  let bill := { bill with
    total := bill.total * 1
    refundType := some "Cancelling a purchase" }
  let _ ← refundCredits cfg (redisCreditKey cost.creditKey) bill now
  return ()

/-- What `safe_payment` has been given of a request: for each enqueueing the `post_refund` of
its items. -/
def safePayments : IngestRequest → List (Cost → Cost)
  | .file definition db metadata =>
    metadata.map fun m => (FileIngestCost.init definition).postRefund [m] db
  | .crawl definition db uri task =>
    let cost := MarkdownResultIngestCost.init definition .partialRefund
    let size := CrawlMarkdownIngestCost.totalSize cost task.urlSize task.pdfSize
    [CrawlMarkdownIngestCost.postRefund cost ⟨uri, size, task.urlSize, task.pdfSize⟩ db]
  | .research _ _ _ metadata => [ResearchMarkdownIngestCost.postRefund metadata]

/-- The background tasks of a request whose enqueueings all fail; they share the cost object, and
the first that raises ends them. -/
def enqueueFails (cfg : CostConfig) (now : Month) : Cost → List (Cost → Cost) → Client Unit
  | _, [] => pure ()
  | cost, postRefund :: payments => do
    let cost := postRefund cost.resetBill
    merchantRefund cfg cost now
    enqueueFails cfg now cost payments

/-- What iterating over an `AbortedJobResponse` yields: a model yields a pair of a name and a
value for each of its fields. -/
inductive IterItem
  | pair (name : String)
  | metadata (task : String)

/-- `AbortedJobResponse.__iter__`. -/
def abortedJobResponse : List IterItem :=
  [.pair "metadata", .pair "deleted", .pair "aborted", .pair "dequeued", .pair "status"]

/-- `result.task`. -/
def IterItem.task : IterItem → Py String
  | pair _ => .error .attributeError
  | metadata task => .ok task

/-- `DeleteDocumentIngestCost.post_refund`. The constructors it calls for a known task take the
permission of the request where it passes the issuer, and subscript it. -/
def deletePostRefund (c : Cost) : List IterItem → Py Cost
  | [] => .ok c
  | result :: results => do
    let task ← result.task
    if task = "crawl" ∨ task = "file" ∨ task = "research" then .error .typeError
    else deletePostRefund c results

/-- `abort_job` of a queued job, then `intercept_after` of the interceptor that refunds. -/
def abortQueued (cfg : CostConfig) (cost : Cost) (now : Month) : Client Unit := do
  -- the interceptor hands over the whole response, not its metadata
  let cost ← liftExcept (deletePostRefund cost abortedJobResponse)
  let bill := cost.generateBill
  if bill.total > 0 then raise (.costMoreThanZeroError bill.total)
  else
    let _ ← refundCredits cfg (redisCreditKey documentCredit) bill now
    return ()

/-- `FileCost.post_refund`. `REFUND_NAME` is a function of one argument kept in the class, and it
is called through the object, which becomes its first argument. -/
def filePostRefund (c : Cost) : List UriMetadata → Py Cost
  | [] => .ok c
  | _ :: _ => .error .typeError

/-- `refund` of `RegisterTask` for the worker of a file that has not reached its first step;
`refund_credits` is given the refunded cost where it takes the bill, and the bill besides. For
a crawl and a research `refund` has no code at this place. -/
def workerRefund (cfg : CostConfig) (r : IngestRequest) (cost : Cost) (metadata : UriMetadata) :
    Client Unit :=
  match r with
  | .file .. => do
    -- it raises for any file, so nothing below is reached
    let _ ← liftExcept (filePostRefund cost [metadata])
    if !cfg.costFlag then pure () else raise .typeError
  | _ => pure ()

/-- Programs that run one after the other, whatever the ones before raised. -/
def separately : List (Client Unit) → Client Unit
  | [] => pure ()
  | p :: ps => do
    tryCatch p fun _ => pure ()
    separately ps

/-- The ways to cancel a request. -/
inductive CancelPath
  | enqueueFails
  | abortQueued
  | workerFails

/-- Cancelling all of a request, with nothing else going on: every job of it fails to be
enqueued, is aborted, or fails. -/
def cancel (cfg : CostConfig) (r : IngestRequest) (info : CostInfo) (now : Month) :
    CancelPath → Client Unit
  | .enqueueFails =>
    enqueueFails cfg now (r.postPurchase (r.freshCost info)) (safePayments r)
  | .abortQueued => separately (r.jobs.map fun _ => abortQueued cfg (r.freshCost info) now)
  | .workerFails => separately (r.jobs.map fun m => workerRefund cfg r (r.freshCost info) m)

/-! ## The admission charges the price -/

theorem IngestRequest.generateBill_total (r : IngestRequest) (info : CostInfo) :
    (r.postPurchase (r.freshCost info)).generateBill.total = r.price := by
  have hcost : (r.postPurchase (r.freshCost info)).purchaseCost = 0 + r.price ∧
      (r.postPurchase (r.freshCost info)).refundCost = 0 := by
    cases r with
    | file definition db metadata =>
      exact FileIngestCost.purchaseCost_postPurchase definition metadata db _
    | crawl definition db uri task =>
      exact CrawlMarkdownIngestCost.purchaseCost_postPurchase definition _ task db _
    | research definition name topK metadata =>
      exact ResearchMarkdownIngestCost.purchaseCost_postPurchase definition _ name topK _
  rw [Cost.generateBill_total, hcost.1, hcost.2]
  omega

/-- An admission that goes through takes the price off the balance. -/
theorem admission_balance {cfg : CostConfig} (hcfg : cfg.costFlag = true) {r : IngestRequest}
    {info : CostInfo} {clock : Nat → Month} {db : Redis}
    (h : (runAlone pipelineHandler (admission cfg r (r.freshCost info) clock) db {}).1.isOk =
      true) :
    ∃ b, db.strings (redisCreditKey documentCredit) = some b ∧
      (runAlone pipelineHandler (admission cfg r (r.freshCost info) clock) db {}).2.1.strings
        (redisCreditKey documentCredit) = some (b - r.price) := by
  have hdeduct : admission cfg r (r.freshCost info) clock =
      deductCredits cfg (redisCreditKey documentCredit)
        (r.postPurchase (r.freshCost info)).generateBill clock 20 := by
    unfold admission at h ⊢
    by_cases hneg : (r.postPurchase (r.freshCost info)).generateBill.total < 0
    · simp only [if_pos hneg] at h
      cases h
    · simp only [if_neg hneg]
  rw [hdeduct] at h ⊢
  rw [← r.generateBill_total info]
  exact deductCredits_alone hcfg clock 20 h

/-- With the credit system off, an admission that goes through charges nothing. -/
theorem admission_off {cfg : CostConfig} (hcfg : cfg.costFlag = false) (r : IngestRequest)
    (info : CostInfo) (clock : Nat → Month) (db : Redis) :
    (runAlone pipelineHandler (admission cfg r (r.freshCost info) clock) db {}).2.1 = db := by
  unfold admission
  dsimp only
  split
  · rfl
  · unfold deductCredits
    rw [hcfg]
    rfl

/-! ## Cancelling gives nothing back -/

section NoCredit

variable {α β : Type}

/-- A program that changes no balance and leaves a fresh pipeline, whatever other clients do. -/
def NoCredit (p : Client α) : Prop :=
  ∀ s, LedgerSat (redisCreditKey documentCredit) 0 (fun _ l g => l = {} ∧ g = false) p {} false s

theorem NoCredit.ret (r : Py α) : NoCredit (.ret r) := fun _ => ⟨rfl, rfl⟩

theorem NoCredit.andThen {p : Client α} {f : Py α → Client β} (hp : NoCredit p)
    (hf : ∀ r, NoCredit (f r)) : NoCredit (p.andThen f) := by
  intro s
  refine Sat.andThen pipelineHandler WritesGrow (hp s) ?_
  rintro r l g t ⟨rfl, rfl⟩
  exact hf r t

theorem NoCredit.bind {p : Client α} {f : α → Client β} (hp : NoCredit p)
    (hf : ∀ a, NoCredit (f a)) : NoCredit (p >>= f) :=
  hp.andThen fun
    | .ok a => hf a
    | .error e => NoCredit.ret (.error e)

/-- No call of `refund_credits` credits anything: it raises, or the credit system is off. -/
theorem noCredit_refundCredits (cfg : CostConfig) (creditKey : String) (bill : Bill)
    (now : Month) : NoCredit (refundCredits cfg creditKey bill now) := by
  intro s
  cases hcfg : cfg.costFlag with
  | true =>
    exact (sat_refundCredits hcfg creditKey now).weaken pipelineHandler WritesGrow
      fun r l g h => h.2
  | false =>
    unfold refundCredits
    rw [hcfg]
    exact ⟨rfl, rfl⟩

theorem noCredit_enqueueFails (cfg : CostConfig) (now : Month) (cost : Cost)
    (payments : List (Cost → Cost)) : NoCredit (enqueueFails cfg now cost payments) := by
  induction payments generalizing cost with
  | nil => exact NoCredit.ret _
  | cons postRefund payments ih =>
    have hrefund : NoCredit (merchantRefund cfg (postRefund cost.resetBill) now) :=
      (noCredit_refundCredits cfg _ _ now).bind fun _ => NoCredit.ret _
    exact hrefund.bind fun _ => ih _

/-- The response of an aborted job is iterated over as a model, which yields no metadata. -/
theorem deletePostRefund_eq (c : Cost) :
    deletePostRefund c abortedJobResponse = .error .attributeError := rfl

theorem noCredit_abortQueued (cfg : CostConfig) (cost : Cost) (now : Month) :
    NoCredit (abortQueued cfg cost now) := by
  unfold abortQueued
  rw [deletePostRefund_eq]
  exact NoCredit.ret _

theorem noCredit_workerRefund (cfg : CostConfig) (r : IngestRequest) (cost : Cost)
    (metadata : UriMetadata) : NoCredit (workerRefund cfg r cost metadata) := by
  cases r with
  | file definition db files => exact NoCredit.ret _
  | crawl definition db uri task => exact NoCredit.ret _
  | research definition name topK m => exact NoCredit.ret _

theorem noCredit_separately {ps : List (Client Unit)} (h : ∀ p ∈ ps, NoCredit p) :
    NoCredit (separately ps) := by
  induction ps with
  | nil => exact NoCredit.ret _
  | cons p ps ih =>
    -- whatever one of them raises, the next one runs
    have hcatch : NoCredit (tryCatch p fun _ => pure ()) :=
      (h p List.mem_cons_self).andThen fun
        | .ok _ => NoCredit.ret _
        | .error _ => NoCredit.ret _
    exact hcatch.bind fun _ => ih fun q hq => h q (List.mem_cons_of_mem _ hq)

/-- **No way of cancelling a request credits anything.** -/
theorem noCredit_cancel (cfg : CostConfig) (r : IngestRequest) (info : CostInfo) (now : Month)
    (path : CancelPath) : NoCredit (cancel cfg r info now path) := by
  cases path with
  | enqueueFails => exact noCredit_enqueueFails cfg now _ _
  | abortQueued =>
    refine noCredit_separately fun p hp => ?_
    obtain ⟨m, -, rfl⟩ := List.mem_map.mp hp
    exact noCredit_abortQueued cfg _ now
  | workerFails =>
    refine noCredit_separately fun p hp => ?_
    obtain ⟨m, -, rfl⟩ := List.mem_map.mp hp
    exact noCredit_workerRefund cfg r _ m

end NoCredit

/-! ## When cancelling refunds the request -/

/-- Admitting a request and then cancelling it leaves the balance as it was. -/
def Refunded (cfg : CostConfig) (r : IngestRequest) (info : CostInfo) (clock : Nat → Month)
    (now : Month) (path : CancelPath) (db : Redis) : Prop :=
  let admitted := (runAlone pipelineHandler (admission cfg r (r.freshCost info) clock) db {}).2.1
  let cancelled := (runAlone pipelineHandler (cancel cfg r info now path) admitted {}).2.1
  cancelled.strings (redisCreditKey documentCredit) = db.strings (redisCreditKey documentCredit)

/-- **A request that was admitted is refunded by cancelling it exactly if the credit system is
off or the request costs nothing.** -/
theorem refunded_iff (cfg : CostConfig) (r : IngestRequest) (info : CostInfo)
    (clock : Nat → Month) (now : Month) (path : CancelPath) (db : Redis)
    (hadmission :
      (runAlone pipelineHandler (admission cfg r (r.freshCost info) clock) db {}).1.isOk =
      true) :
    Refunded cfg r info clock now path db ↔ cfg.costFlag = false ∨ r.price = 0 := by
  unfold Refunded
  dsimp only
  rw [strings_of_sat (noCredit_cancel cfg r info now path _)]
  cases hcfg : cfg.costFlag with
  | false =>
    rw [admission_off hcfg]
    exact iff_of_true rfl (.inl rfl)
  | true =>
    obtain ⟨b, hb, hafter⟩ := admission_balance hcfg hadmission
    rw [hafter, hb, Option.some_inj]
    constructor
    · intro h
      exact .inr (by omega)
    · rintro (h | h)
      · cases h
      · omega

/-- A file of two kilobytes for a vector database. -/
def twoKilobytes : IngestRequest := .file ⟨10, 1⟩ ⟨true, false⟩ [⟨"a.txt", 2048⟩]

/-- Ten credits pay for the file of two kilobytes, which a failing worker does not give back. -/
theorem refunded_iff_two_kilobytes :
    Refunded ⟨true, false⟩ twoKilobytes ⟨"r1", "client", "now", none, none⟩ (fun _ => (2024, 1))
        (2024, 1) .workerFails Redis.tenCredits ↔
      (⟨true, false⟩ : CostConfig).costFlag = false ∨ twoKilobytes.price = 0 :=
  refunded_iff ⟨true, false⟩ twoKilobytes ⟨"r1", "client", "now", none, none⟩ (fun _ => (2024, 1))
    (2024, 1) .workerFails Redis.tenCredits (by decide +kernel)

/-- After the admission of that file the balance is eight, and it stays eight whichever way the
request is cancelled. -/
theorem not_refunded :
    ¬ Refunded ⟨true, false⟩ twoKilobytes ⟨"r1", "client", "now", none, none⟩
        (fun _ => (2024, 1)) (2024, 1) .enqueueFails Redis.tenCredits ∧
      ¬ Refunded ⟨true, false⟩ twoKilobytes ⟨"r1", "client", "now", none, none⟩
        (fun _ => (2024, 1)) (2024, 1) .abortQueued Redis.tenCredits ∧
      ¬ Refunded ⟨true, false⟩ twoKilobytes ⟨"r1", "client", "now", none, none⟩
        (fun _ => (2024, 1)) (2024, 1) .workerFails Redis.tenCredits := by
  unfold Refunded
  decide +kernel

end Notifyr
