import Mathlib.Algebra.Order.BigOperators.Group.List
import Mathlib.Tactic.Linarith
import Notifyr.Cost.Cancellation

/-!
# The settlement of crawls and researches

`MarkdownResultIngestCost.post_refund` (`app/cost/ingest_cost.py`), with which the worker gives
back what a crawl or a research was charged too much (`app/data_ingest_tasks.py`). A request is
charged the largest size for each page and each pdf before any is known; afterwards the documents
that were produced are measured.

- `MarkdownResultIngestCost.postRefund`: the function, on the `Cost` it adds refunds to.
- `MarkdownIngest`: an accepted request; `charged` and `settled` are its two cost objects.
- `Refunds`: which amounts a cost object was given; `postRefund_refunds` says it of the function.
- `SettlementRight`: what a settlement owes; `settlementRight_iff` says for which documents it is
  paid.
-/

namespace Notifyr

/-! ## `post_refund` -/

/-- `DocType`. -/
inductive DocType
  | html
  | pdf
  deriving DecidableEq

/-- `MarkdownDocumentSize`; a size is in bytes. -/
structure MarkdownDocumentSize where
  size : ℤ
  description : String
  docType : DocType

/-- `crawl_type`. -/
inductive CrawlType
  | crawl
  | research

/-- The text of `crawl_type`. -/
def CrawlType.text : CrawlType → String
  | crawl => "Crawl"
  | research => "Research"

/-- A refund for each of the databases there are; the text says for which. -/
def refundEach (db : DbConfig) (description : String → String) (amount quantity : ℤ) (c : Cost) :
    Cost :=
  let c := if db.vector then c.refund (description "[Vector]") amount quantity else c
  if db.graph then c.refund (description "[Graph]") amount quantity else c

/-- The variables of the loop of `post_refund`. -/
structure RefundLoop where
  urlCptr : ℤ
  pdfCptr : ℤ
  totalCost : ℤ
  results : List MarkdownDocumentSize
  cost : Cost

namespace MarkdownResultIngestCost

/-- One document. Its `size` is overwritten by the kilobytes. -/
def refundDocument (self : MarkdownResultIngestCost) (crawlType : CrawlType) (db : DbConfig)
    (s : RefundLoop) (document : MarkdownDocumentSize) : RefundLoop :=
  let document := { document with size := bytesConversion (some document.size) .b .kb }
  let s := { s with results := s.results ++ [document] }
  -- both branches take `max_html_kb`
  let (s, costSize) :=
    if document.docType = .pdf then
      ({ s with pdfCptr := s.pdfCptr + 1 }, self.maxHtmlKb - document.size)
    else ({ s with urlCptr := s.urlCptr + 1 }, self.maxHtmlKb - document.size)
  if self.refundDetail = .fullRefund then { s with totalCost := s.totalCost + costSize }
  else
    { s with
      cost := refundEach db
        (fun name => s!"{crawlType.text} {name} Credit Refund: {document.description}")
        1 costSize s.cost }

/-- `MarkdownResultIngestCost.post_refund`: the documents as they are left, and the cost. -/
def postRefund (self : MarkdownResultIngestCost) (crawlType : CrawlType)
    (results : List MarkdownDocumentSize) (db : DbConfig) (urlSize pdfSize : ℤ) (c : Cost) :
    List MarkdownDocumentSize × Cost :=
  let s := results.foldl (self.refundDocument crawlType db) ⟨0, 0, 0, [], c⟩
  let c := if self.refundDetail = .fullRefund then
      refundEach db (fun name => s!"{crawlType.text} {name} Credit Refund") s.totalCost 1 s.cost
    else s.cost
  let diffUrl := urlSize - s.urlCptr
  let diffPdf := pdfSize - s.pdfCptr
  let c := if diffUrl > 0 then
      refundEach db (fun name => s!"{crawlType.text} {name} HTML Top Up Refund")
        self.maxHtmlKb diffUrl c
    else c
  let c := if diffPdf > 0 then
      refundEach db (fun name => s!"{crawlType.text} {name} PDF Top Up Refund")
        self.maxPdfKb diffPdf c
    else c
  (s.results, c)

end MarkdownResultIngestCost

/-! ## Requests -/

/-- A crawl, or a research with its `name` and `top_k`. -/
inductive MarkdownKind
  | crawl (task : CrawlSizes)
  | research (name : String) (topK : ℤ)

/-- The number of pages that are charged. -/
def MarkdownKind.urlSize : MarkdownKind → ℤ
  | crawl task => task.urlSize
  | research _ topK => topK

/-- The number of pdf documents that are charged. -/
def MarkdownKind.pdfSize : MarkdownKind → ℤ
  | crawl task => task.pdfSize
  | research _ _ => 0

/-- An accepted request with its cost definition. -/
structure MarkdownIngest where
  definition : MarkdownCostDefinition
  kind : MarkdownKind
  db : DbConfig
  /-- `DataIngestModel.config_validation`. -/
  config_validation : db.vector = true ∨ db.graph = true
  /-- A length, one, or a `top` or a `top_k` from one on. -/
  urlSize_nonneg : 0 ≤ kind.urlSize
  /-- Zero, or a `max_links` from one on. -/
  pdfSize_nonneg : 0 ≤ kind.pdfSize

/-- A new cost object for document credits. -/
def documentCost (info : CostInfo) (definitionName : String) : Cost where
  issuer := info.issuer
  requestId := info.requestId
  createdAt := info.createdAt
  creditKey := documentCredit
  definitionName := some definitionName
  plan := info.plan
  version := info.version

namespace MarkdownIngest

/-- The cost object of the request, charged. -/
def charged (r : MarkdownIngest) (info : CostInfo) : Cost :=
  match r.kind with
  | .crawl task =>
    CrawlMarkdownIngestCost.postPurchase (.init r.definition .partialRefund) task r.db
      (documentCost info "Crawl Ingestion")
  | .research name topK =>
    ResearchMarkdownIngestCost.postPurchase (.init r.definition .partialRefund) name topK
      (documentCost info "Research Ingestion")

/-- The databases that the worker passes to `post_refund`: for a research the graph alone. -/
def settledDb (r : MarkdownIngest) : DbConfig :=
  match r.kind with
  | .crawl _ => r.db
  | .research _ _ => ⟨false, true⟩

/-- The cost object of the worker, after `post_refund`. -/
def settled (r : MarkdownIngest) (detail : RefundDetail) (documents : List MarkdownDocumentSize)
    (info : CostInfo) : Cost :=
  let cost := MarkdownResultIngestCost.init r.definition detail
  match r.kind with
  | .crawl _ =>
    (cost.postRefund .crawl documents r.settledDb r.kind.urlSize r.kind.pdfSize
      (documentCost info "Crawl Credit Refund")).2
  | .research _ _ =>
    (cost.postRefund .research documents r.settledDb r.kind.urlSize r.kind.pdfSize
      (documentCost info "Research Credit Refund")).2

end MarkdownIngest

/-! ## What a settlement owes -/

/-- The kilobytes of a document. -/
def MarkdownDocumentSize.kb (d : MarkdownDocumentSize) : ℤ := bytesConversion (some d.size) .b .kb

/-- The kilobytes that were ingested. -/
def ingestedKb (documents : List MarkdownDocumentSize) : ℤ := (documents.map (·.kb)).sum

/-- How many documents are of a type. -/
def typeCount (t : DocType) (documents : List MarkdownDocumentSize) : ℤ :=
  documents.countP (·.docType = t)

/-- The largest size of a document of a type, in megabytes. -/
def MarkdownCostDefinition.maxMb (definition : MarkdownCostDefinition) : DocType → ℤ
  | .html => definition.maxHtmlMb
  | .pdf => definition.maxPdfMb

/-- The document is no larger than what was charged for one of its type. -/
def MarkdownCostDefinition.Within (definition : MarkdownCostDefinition)
    (d : MarkdownDocumentSize) : Prop :=
  0 ≤ d.size ∧ d.size ≤ 1024 * 1024 * definition.maxMb d.docType

instance (definition : MarkdownCostDefinition) (d : MarkdownDocumentSize) :
    Decidable (definition.Within d) :=
  inferInstanceAs (Decidable (_ ∧ _))

/-- The amounts that refund, once for each database, the kilobytes that each document is below
the `limit` of its type: one by one, or together. -/
def documentAmounts (detail : RefundDetail) (db : DbConfig) (limit : DocType → ℤ)
    (documents : List MarkdownDocumentSize) : List ℤ :=
  match detail with
  | .fullRefund =>
    List.replicate db.count.toNat (documents.map fun d => limit d.docType - d.kb).sum
  | .partialRefund =>
    documents.flatMap fun d => List.replicate db.count.toNat (limit d.docType - d.kb)

/-- The amounts that refund, once for each database, the documents of a type that were charged
and not produced. -/
def topUpAmounts (definition : MarkdownCostDefinition) (db : DbConfig) (t : DocType) (size : ℤ)
    (documents : List MarkdownDocumentSize) : List ℤ :=
  let diff := size - typeCount t documents
  if diff > 0 then List.replicate db.count.toNat (1024 * definition.maxMb t * diff) else []

/-- All amounts of a refund. -/
def refundAmounts (definition : MarkdownCostDefinition) (detail : RefundDetail) (db : DbConfig)
    (limit : DocType → ℤ) (documents : List MarkdownDocumentSize) (urlSize pdfSize : ℤ) :
    List ℤ :=
  documentAmounts detail db limit documents ++
    topUpAmounts definition db .html urlSize documents ++
    topUpAmounts definition db .pdf pdfSize documents

/-- The subtotals of the refunds of a cost object. -/
def Cost.refundedAmounts (c : Cost) : List ℤ := c.refundItems.map (·.subtotal)

/-- A settlement of `documents` is right. -/
structure SettlementRight (r : MarkdownIngest) (detail : RefundDetail)
    (documents : List MarkdownDocumentSize) (info info' : CostInfo) : Prop where
  /-- What remains charged is what was ingested, once for each database. -/
  net : (r.charged info).generateBill.total + (r.settled detail documents info').generateBill.total
    = r.db.count * ingestedKb documents
  /-- A document is refunded against the maximum of its own type. -/
  own : (r.settled detail documents info').refundedAmounts =
    refundAmounts r.definition detail r.settledDb (fun t => 1024 * r.definition.maxMb t) documents
      r.kind.urlSize r.kind.pdfSize
  nonneg : ∀ amount ∈ (r.settled detail documents info').refundedAmounts, 0 ≤ amount

/-- When a settlement is right. -/
structure SettlementGuard (r : MarkdownIngest) (documents : List MarkdownDocumentSize) : Prop where
  pdf : typeCount .pdf documents = 0 ∨ r.definition.maxPdfMb = r.definition.maxHtmlMb
  urlCount : typeCount .html documents ≤ r.kind.urlSize ∨ r.definition.maxHtmlMb = 0
  pdfCount : typeCount .pdf documents ≤ r.kind.pdfSize ∨ r.definition.maxPdfMb = 0
  htmlMax : typeCount .html documents < r.kind.urlSize → 0 ≤ r.definition.maxHtmlMb
  pdfMax : typeCount .pdf documents < r.kind.pdfSize → 0 ≤ r.definition.maxPdfMb
  databases : r.settledDb.count = r.db.count ∨ ingestedKb documents = 0

/-! ## The amounts of a settlement -/

/-- `c'` is `c` with refunds of `amounts` added. -/
structure Refunds (c c' : Cost) (amounts : List ℤ) : Prop where
  refunded : c'.refundedAmounts = c.refundedAmounts ++ amounts
  refundCost : c'.refundCost = c.refundCost + amounts.sum
  purchaseCost : c'.purchaseCost = c.purchaseCost

theorem Refunds.refl (c : Cost) : Refunds c c [] := ⟨by simp, by simp, rfl⟩

theorem Refunds.trans {c₁ c₂ c₃ : Cost} {l₁ l₂ : List ℤ} (h₁ : Refunds c₁ c₂ l₁)
    (h₂ : Refunds c₂ c₃ l₂) : Refunds c₁ c₃ (l₁ ++ l₂) where
  refunded := by rw [h₂.refunded, h₁.refunded, List.append_assoc]
  refundCost := by rw [h₂.refundCost, h₁.refundCost, List.sum_append, add_assoc]
  purchaseCost := h₂.purchaseCost.trans h₁.purchaseCost

theorem refund_refunds (c : Cost) (description : String) (amount quantity : ℤ) :
    Refunds c (c.refund description amount quantity) [amount * quantity] := by
  have hceil : ⌈(amount : ℚ) * (quantity : ℚ)⌉ = amount * quantity := by
    rw [← Int.cast_mul, Int.ceil_intCast]
  refine ⟨?_, ?_, rfl⟩
  · simp [Cost.refundedAmounts, Cost.refund, BillItem.subtotal, hceil]
  · simp [hceil]

/-- One refund for each database. -/
theorem refundEach_refunds (db : DbConfig) (description : String → String)
    (amount quantity : ℤ) (c : Cost) :
    Refunds c (refundEach db description amount quantity c)
      (List.replicate db.count.toNat (amount * quantity)) := by
  have h (d : String) (c : Cost) := refund_refunds c d amount quantity
  unfold refundEach
  obtain ⟨vector, graph⟩ := db
  cases vector <;> cases graph
  · exact Refunds.refl c
  · exact h _ c
  · exact h _ c
  · exact (h _ c).trans (h _ _)

/-- A top-up is refunded when there is one. -/
theorem topUp_refunds (db : DbConfig) (description : String → String) (max diff : ℤ) (c : Cost) :
    Refunds c (if diff > 0 then refundEach db description max diff c else c)
      (if diff > 0 then List.replicate db.count.toNat (max * diff) else []) := by
  by_cases h : diff > 0
  · rw [if_pos h, if_pos h]
    exact refundEach_refunds db description max diff c
  · rw [if_neg h, if_neg h]
    exact Refunds.refl c

namespace MarkdownResultIngestCost

/-- What the code refunds for a document, of whichever type. -/
def below (self : MarkdownResultIngestCost) (d : MarkdownDocumentSize) : ℤ :=
  self.maxHtmlKb - d.kb

/-- What the loop has done to its variables when it has gone through `documents`. -/
structure LoopRefunds (m : MarkdownResultIngestCost) (db : DbConfig) (s s' : RefundLoop)
    (documents : List MarkdownDocumentSize) : Prop where
  urlCptr : s'.urlCptr = s.urlCptr + typeCount .html documents
  pdfCptr : s'.pdfCptr = s.pdfCptr + typeCount .pdf documents
  inFull : m.refundDetail = .fullRefund →
    s'.totalCost = s.totalCost + (documents.map m.below).sum ∧ s'.cost = s.cost
  inPart : m.refundDetail = .partialRefund → Refunds s.cost s'.cost
    (documents.flatMap fun d => List.replicate db.count.toNat (m.below d))

theorem LoopRefunds.trans {m : MarkdownResultIngestCost} {db : DbConfig}
    {s₁ s₂ s₃ : RefundLoop} {l₁ l₂ : List MarkdownDocumentSize}
    (h₁ : m.LoopRefunds db s₁ s₂ l₁) (h₂ : m.LoopRefunds db s₂ s₃ l₂) :
    m.LoopRefunds db s₁ s₃ (l₁ ++ l₂) where
  urlCptr := by
    have hcount : typeCount .html (l₁ ++ l₂) = typeCount .html l₁ + typeCount .html l₂ := by
      simp [typeCount]
    rw [h₂.urlCptr, h₁.urlCptr, hcount, add_assoc]
  pdfCptr := by
    have hcount : typeCount .pdf (l₁ ++ l₂) = typeCount .pdf l₁ + typeCount .pdf l₂ := by
      simp [typeCount]
    rw [h₂.pdfCptr, h₁.pdfCptr, hcount, add_assoc]
  inFull hfull := by
    obtain ⟨htotal₁, hcost₁⟩ := h₁.inFull hfull
    obtain ⟨htotal₂, hcost₂⟩ := h₂.inFull hfull
    refine ⟨?_, hcost₂.trans hcost₁⟩
    rw [htotal₂, htotal₁, List.map_append, List.sum_append, add_assoc]
  inPart hpart := by
    rw [List.flatMap_append]
    exact (h₁.inPart hpart).trans (h₂.inPart hpart)

/-- One round of the loop. -/
theorem refundDocument_refunds (m : MarkdownResultIngestCost) (crawlType : CrawlType)
    (db : DbConfig) (s : RefundLoop) (d : MarkdownDocumentSize) :
    m.LoopRefunds db s (m.refundDocument crawlType db s d) [d] := by
  have heach (description : String → String) :
      Refunds s.cost (refundEach db description 1 (m.below d) s.cost)
        ([d].flatMap fun d => List.replicate db.count.toNat (m.below d)) := by
    have h := refundEach_refunds db description 1 (m.below d) s.cost
    rw [one_mul] at h
    simpa using h
  obtain ⟨maxHtmlKb, maxPdfKb, detail⟩ := m
  obtain ⟨size, description, docType⟩ := d
  cases detail with
  | fullRefund =>
    cases docType <;>
      exact ⟨by simp [refundDocument, typeCount], by simp [refundDocument, typeCount],
        fun _ => ⟨by simp [refundDocument, below, MarkdownDocumentSize.kb], rfl⟩,
        fun h => nomatch h⟩
  | partialRefund =>
    cases docType <;>
      exact ⟨by simp [refundDocument, typeCount], by simp [refundDocument, typeCount],
        fun h => (nomatch h),
        fun _ => heach fun name => s!"{crawlType.text} {name} Credit Refund: {description}"⟩

theorem foldl_refundDocument (m : MarkdownResultIngestCost) (crawlType : CrawlType)
    (db : DbConfig) (documents : List MarkdownDocumentSize) (s : RefundLoop) :
    m.LoopRefunds db s (documents.foldl (m.refundDocument crawlType db) s) documents := by
  induction documents generalizing s with
  | nil => exact ⟨by simp [typeCount], by simp [typeCount], by simp, fun _ => Refunds.refl s.cost⟩
  | cons d documents ih =>
    exact (m.refundDocument_refunds crawlType db s d).trans
      (ih (m.refundDocument crawlType db s d))

end MarkdownResultIngestCost

/-- **What `post_refund` refunds**: every document against the maximum of a page. -/
theorem postRefund_refunds (definition : MarkdownCostDefinition) (detail : RefundDetail)
    (crawlType : CrawlType) (documents : List MarkdownDocumentSize) (db : DbConfig)
    (urlSize pdfSize : ℤ) (c : Cost) :
    Refunds c
      ((MarkdownResultIngestCost.init definition detail).postRefund crawlType documents db
        urlSize pdfSize c).2
      (refundAmounts definition detail db (fun _ => 1024 * definition.maxHtmlMb) documents
        urlSize pdfSize) := by
  have hhtml : (MarkdownResultIngestCost.init definition detail).maxHtmlKb =
      1024 * definition.maxHtmlMb := bytesConversion_mb definition.maxHtmlMb
  have hpdf : (MarkdownResultIngestCost.init definition detail).maxPdfKb =
      1024 * definition.maxPdfMb := bytesConversion_mb definition.maxPdfMb
  have hloop := MarkdownResultIngestCost.foldl_refundDocument
    (MarkdownResultIngestCost.init definition detail) crawlType db documents ⟨0, 0, 0, [], c⟩
  unfold MarkdownResultIngestCost.postRefund refundAmounts topUpAmounts
  generalize hs : documents.foldl _ (⟨0, 0, 0, [], c⟩ : RefundLoop) = s at hloop ⊢
  simp only [hloop.urlCptr, hloop.pdfCptr, zero_add, hhtml, hpdf]
  refine Refunds.trans (Refunds.trans ?_ (topUp_refunds db _ _ _ _)) (topUp_refunds db _ _ _ _)
  have hbelow : (MarkdownResultIngestCost.init definition detail).below =
      fun d => 1024 * definition.maxHtmlMb - d.kb := by
    unfold MarkdownResultIngestCost.below
    rw [hhtml]
  cases detail with
  | fullRefund =>
    obtain ⟨htotal, hcost⟩ := hloop.inFull rfl
    have h := refundEach_refunds db (fun name => s!"{crawlType.text} {name} Credit Refund")
      s.totalCost 1 s.cost
    rw [mul_one, hcost, htotal, zero_add, hbelow] at h
    rw [hcost, htotal, zero_add, hbelow]
    exact h
  | partialRefund =>
    have h := hloop.inPart rfl
    rw [hbelow] at h
    exact h

/-! ## What remains charged -/

theorem typeCount_cons (t : DocType) (d : MarkdownDocumentSize)
    (documents : List MarkdownDocumentSize) :
    typeCount t (d :: documents) = typeCount t documents + if d.docType = t then 1 else 0 := by
  simp [typeCount, List.countP_cons]

/-- The documents of a list are below their limits by the limits less their size. -/
theorem sum_below (limit : DocType → ℤ) (documents : List MarkdownDocumentSize) :
    (documents.map fun d => limit d.docType - d.kb).sum =
      limit .html * typeCount .html documents + limit .pdf * typeCount .pdf documents -
        ingestedKb documents := by
  induction documents with
  | nil => simp [typeCount, ingestedKb]
  | cons d documents ih =>
    have hkb : ingestedKb (d :: documents) = d.kb + ingestedKb documents := by
      simp [ingestedKb]
    rw [List.map_cons, List.sum_cons, ih, hkb, typeCount_cons, typeCount_cons]
    cases h : d.docType <;> simp <;> ring

theorem sum_each (db : DbConfig) (amount : ℤ) :
    (List.replicate db.count.toNat amount).sum = db.count * amount := by
  have hcount : (db.count.toNat : ℤ) = db.count := by
    obtain ⟨vector, graph⟩ := db
    cases vector <;> cases graph <;> rfl
  rw [List.sum_replicate, nsmul_eq_mul, hcount]

theorem sum_flatMap_each (db : DbConfig) (f : MarkdownDocumentSize → ℤ)
    (documents : List MarkdownDocumentSize) :
    (documents.flatMap fun d => List.replicate db.count.toNat (f d)).sum =
      db.count * (documents.map f).sum := by
  induction documents with
  | nil => simp
  | cons d documents ih =>
    rw [List.flatMap_cons, List.sum_append, ih, sum_each, List.map_cons, List.sum_cons, mul_add]

theorem sum_documentAmounts (detail : RefundDetail) (db : DbConfig) (limit : DocType → ℤ)
    (documents : List MarkdownDocumentSize) :
    (documentAmounts detail db limit documents).sum = db.count *
      (limit .html * typeCount .html documents + limit .pdf * typeCount .pdf documents -
        ingestedKb documents) := by
  rw [← sum_below]
  cases detail with
  | fullRefund => exact sum_each db _
  | partialRefund => exact sum_flatMap_each db _ documents

theorem sum_topUpAmounts (definition : MarkdownCostDefinition) (db : DbConfig) (t : DocType)
    (size : ℤ) (documents : List MarkdownDocumentSize) :
    (topUpAmounts definition db t size documents).sum =
      db.count * (1024 * definition.maxMb t * max 0 (size - typeCount t documents)) := by
  unfold topUpAmounts
  by_cases h : size - typeCount t documents > 0
  · rw [if_pos h, sum_each, max_eq_right (by omega)]
  · rw [if_neg h, max_eq_left (by omega)]
    simp

/-- What the amounts of a refund add up to. -/
theorem sum_refundAmounts (definition : MarkdownCostDefinition) (detail : RefundDetail)
    (db : DbConfig) (limit : DocType → ℤ) (documents : List MarkdownDocumentSize)
    (urlSize pdfSize : ℤ) :
    (refundAmounts definition detail db limit documents urlSize pdfSize).sum = db.count *
      (limit .html * typeCount .html documents + limit .pdf * typeCount .pdf documents -
          ingestedKb documents +
        1024 * definition.maxHtmlMb * max 0 (urlSize - typeCount .html documents) +
        1024 * definition.maxPdfMb * max 0 (pdfSize - typeCount .pdf documents)) := by
  unfold refundAmounts
  rw [List.sum_append, List.sum_append, sum_documentAmounts, sum_topUpAmounts, sum_topUpAmounts]
  unfold MarkdownCostDefinition.maxMb
  ring

namespace MarkdownIngest

/-- What a request is charged. -/
theorem charged_total (r : MarkdownIngest) (info : CostInfo) :
    (r.charged info).generateBill.total =
      r.settledDb.count * crawlPrice r.definition r.kind.urlSize r.kind.pdfSize := by
  obtain ⟨definition, kind, db, hdb, hurls, hpdfs⟩ := r
  cases kind with
  | crawl task =>
    obtain ⟨hp, hr⟩ := CrawlMarkdownIngestCost.purchaseCost_postPurchase definition .partialRefund
      task db (documentCost info "Crawl Ingestion")
    refine (congrArg₂ (· - ·) hp hr).trans ?_
    simp [documentCost, MarkdownKind.urlSize, MarkdownKind.pdfSize, settledDb]
  | research name topK =>
    obtain ⟨hp, hr⟩ := ResearchMarkdownIngestCost.purchaseCost_postPurchase definition
      .partialRefund name topK (documentCost info "Research Ingestion")
    refine (congrArg₂ (· - ·) hp hr).trans ?_
    simp [documentCost, MarkdownKind.urlSize, MarkdownKind.pdfSize, settledDb, DbConfig.count,
      researchPrice, crawlPrice]
    ring

/-- The amounts that the worker refunds, and the total of its bill. -/
theorem settled_amounts (r : MarkdownIngest) (detail : RefundDetail)
    (documents : List MarkdownDocumentSize) (info : CostInfo) :
    let amounts := refundAmounts r.definition detail r.settledDb
      (fun _ => 1024 * r.definition.maxHtmlMb) documents r.kind.urlSize r.kind.pdfSize
    (r.settled detail documents info).refundedAmounts = amounts ∧
      (r.settled detail documents info).generateBill.total = -amounts.sum := by
  have hof {name : String} {c' : Cost} {l : List ℤ} (h : Refunds (documentCost info name) c' l) :
      c'.refundedAmounts = l ∧ c'.generateBill.total = -l.sum := by
    refine ⟨h.refunded, ?_⟩
    rw [Cost.generateBill_total, h.purchaseCost, h.refundCost]
    simp [documentCost]
  obtain ⟨definition, kind, db, hdb, hurls, hpdfs⟩ := r
  cases kind with
  | crawl task => exact hof (postRefund_refunds definition detail .crawl documents _ _ _ _)
  | research name topK =>
    exact hof (postRefund_refunds definition detail .research documents _ _ _ _)

/-- **What remains charged after a settlement.** -/
theorem net_total (r : MarkdownIngest) (detail : RefundDetail)
    (documents : List MarkdownDocumentSize) (info info' : CostInfo) :
    (r.charged info).generateBill.total + (r.settled detail documents info').generateBill.total =
      r.settledDb.count * (ingestedKb documents -
        1024 * (r.definition.maxHtmlMb * max 0 (typeCount .html documents - r.kind.urlSize)) -
        1024 * (r.definition.maxPdfMb * max 0 (typeCount .pdf documents - r.kind.pdfSize)) +
        1024 * ((r.definition.maxPdfMb - r.definition.maxHtmlMb) * typeCount .pdf documents)) := by
  have hmax (a b : ℤ) : max 0 (a - b) = a - b + max 0 (b - a) := by omega
  rw [r.charged_total, (r.settled_amounts detail documents info').2, sum_refundAmounts,
    hmax r.kind.urlSize, hmax r.kind.pdfSize]
  unfold crawlPrice
  ring

end MarkdownIngest

/-! ## Documents within the maxima -/

section

variable {definition : MarkdownCostDefinition} {documents : List MarkdownDocumentSize}

theorem MarkdownCostDefinition.Within.kb_le {d : MarkdownDocumentSize} (h : definition.Within d) :
    d.kb ≤ 1024 * definition.maxMb d.docType := by
  have hsize : (d.size : ℚ) ≤ ((1024 * 1024 * definition.maxMb d.docType : ℤ) : ℚ) := by
    exact_mod_cast h.2
  unfold MarkdownDocumentSize.kb
  rw [bytesConversion_b, Int.ceil_le]
  push_cast at hsize ⊢
  linarith

theorem MarkdownCostDefinition.Within.kb_nonneg {d : MarkdownDocumentSize}
    (h : definition.Within d) : 0 ≤ d.kb := by
  have hsize : (0 : ℚ) ≤ (d.size : ℚ) := by exact_mod_cast h.1
  unfold MarkdownDocumentSize.kb
  rw [bytesConversion_b]
  exact Int.ceil_nonneg (by positivity)

theorem ingestedKb_nonneg (h : ∀ d ∈ documents, definition.Within d) :
    0 ≤ ingestedKb documents := by
  refine List.sum_nonneg fun kb hkb => ?_
  obtain ⟨d, hd, rfl⟩ := List.mem_map.1 hkb
  exact (h d hd).kb_nonneg

/-- A document of a type shows that the maximum of the type is not negative. -/
theorem maxMb_nonneg (h : ∀ d ∈ documents, definition.Within d) {t : DocType}
    (hcount : 0 < typeCount t documents) : 0 ≤ definition.maxMb t := by
  have hpos : 0 < documents.countP (·.docType = t) := by
    unfold typeCount at hcount
    omega
  obtain ⟨d, hd, htype⟩ := List.countP_pos_iff.1 hpos
  obtain ⟨hsize, hmax⟩ := h d hd
  rw [of_decide_eq_true htype] at hmax
  omega

/-- What is missing when more documents were produced than charged. -/
theorem overrun_nonneg (h : ∀ d ∈ documents, definition.Within d) (t : DocType) {size : ℤ}
    (hsize : 0 ≤ size) :
    0 ≤ definition.maxMb t * max 0 (typeCount t documents - size) := by
  by_cases hle : typeCount t documents ≤ size
  · rw [max_eq_left (by omega), mul_zero]
  · exact mul_nonneg (maxMb_nonneg h (by omega)) (le_max_left _ _)

theorem overrun_eq_zero_iff (t : DocType) (size : ℤ) :
    definition.maxMb t * max 0 (typeCount t documents - size) = 0 ↔
      typeCount t documents ≤ size ∨ definition.maxMb t = 0 := by
  rw [mul_eq_zero, or_comm]
  refine or_congr_left ?_
  omega

/-- The maximum of a page does for the pdf documents when there is none, or when the maxima are
the same. -/
theorem refundAmounts_own_iff (detail : RefundDetail) {db : DbConfig} (hdb : db.count ≠ 0)
    (urlSize pdfSize : ℤ) :
    refundAmounts definition detail db (fun _ => 1024 * definition.maxHtmlMb) documents
        urlSize pdfSize =
      refundAmounts definition detail db (fun t => 1024 * definition.maxMb t) documents
        urlSize pdfSize ↔
      typeCount .pdf documents = 0 ∨ definition.maxPdfMb = definition.maxHtmlMb := by
  constructor
  · intro heq
    have hsum := congrArg List.sum heq
    rw [sum_refundAmounts, sum_refundAmounts] at hsum
    have hsame := mul_left_cancel₀ hdb hsum
    simp only [MarkdownCostDefinition.maxMb] at hsame
    have hzero : typeCount .pdf documents * (definition.maxPdfMb - definition.maxHtmlMb) = 0 := by
      linarith
    exact (mul_eq_zero.1 hzero).imp_right fun h => by omega
  · intro h
    have hlimit : ∀ d ∈ documents,
        1024 * definition.maxHtmlMb = 1024 * definition.maxMb d.docType := by
      intro d hd
      cases htype : d.docType with
      | html => rfl
      | pdf =>
        have hne : typeCount .pdf documents ≠ 0 := by
          have hpos : 0 < documents.countP (·.docType = .pdf) :=
            List.countP_pos_iff.2 ⟨d, hd, decide_eq_true htype⟩
          unfold typeCount
          omega
        rw [← h.resolve_left hne]
        rfl
    have hsame : documentAmounts detail db (fun _ => 1024 * definition.maxHtmlMb) documents =
        documentAmounts detail db (fun t => 1024 * definition.maxMb t) documents := by
      cases detail with
      | fullRefund =>
        exact congrArg (fun l => List.replicate db.count.toNat (List.sum l))
          (List.map_congr_left fun d hd => congrArg (· - d.kb) (hlimit d hd))
      | partialRefund =>
        exact List.flatMap_congr fun d hd =>
          congrArg (fun m => List.replicate db.count.toNat (m - d.kb)) (hlimit d hd)
    unfold refundAmounts
    rw [hsame]

/-- Documents within the maxima are refunded nothing negative. -/
theorem documentAmounts_nonneg (h : ∀ d ∈ documents, definition.Within d) (detail : RefundDetail)
    (db : DbConfig) : ∀ amount ∈ documentAmounts detail db (fun t => 1024 * definition.maxMb t)
      documents, 0 ≤ amount := by
  have hbelow : ∀ d ∈ documents, 0 ≤ 1024 * definition.maxMb d.docType - d.kb :=
    fun d hd => sub_nonneg.2 (h d hd).kb_le
  intro amount hamount
  cases detail with
  | fullRefund =>
    rw [List.eq_of_mem_replicate hamount]
    refine List.sum_nonneg fun x hx => ?_
    obtain ⟨d, hd, rfl⟩ := List.mem_map.1 hx
    exact hbelow d hd
  | partialRefund =>
    obtain ⟨d, hd, hmem⟩ := List.mem_flatMap.1 hamount
    rw [List.eq_of_mem_replicate hmem]
    exact hbelow d hd

theorem topUpAmounts_nonneg_iff {db : DbConfig} (hdb : 0 < db.count) (t : DocType) (size : ℤ) :
    (∀ amount ∈ topUpAmounts definition db t size documents, 0 ≤ amount) ↔
      (typeCount t documents < size → 0 ≤ definition.maxMb t) := by
  unfold topUpAmounts
  by_cases hlt : typeCount t documents < size
  · have hdiff : 0 < size - typeCount t documents := by omega
    have hdbs : db.count.toNat ≠ 0 := by omega
    rw [if_pos hdiff]
    simp only [List.mem_replicate, hdbs, hlt, ne_eq, not_false_eq_true, true_and, forall_eq,
      true_imp_iff]
    rw [mul_nonneg_iff_of_pos_right hdiff]
    omega
  · rw [if_neg (by omega)]
    simp [hlt]

/-- What is refunded against the maxima is negative only for a negative maximum. -/
theorem refundAmounts_nonneg_iff (h : ∀ d ∈ documents, definition.Within d)
    (detail : RefundDetail) {db : DbConfig} (hdb : 0 < db.count) (urlSize pdfSize : ℤ) :
    (∀ amount ∈ refundAmounts definition detail db (fun t => 1024 * definition.maxMb t) documents
        urlSize pdfSize, 0 ≤ amount) ↔
      (typeCount .html documents < urlSize → 0 ≤ definition.maxHtmlMb) ∧
        (typeCount .pdf documents < pdfSize → 0 ≤ definition.maxPdfMb) := by
  have hdocuments := documentAmounts_nonneg h detail db
  unfold refundAmounts
  simp only [List.mem_append, or_imp, forall_and]
  exact ⟨fun h => ⟨(topUpAmounts_nonneg_iff hdb .html urlSize).1 h.1.2,
      (topUpAmounts_nonneg_iff hdb .pdf pdfSize).1 h.2⟩,
    fun h => ⟨⟨hdocuments, (topUpAmounts_nonneg_iff hdb .html urlSize).2 h.1⟩,
      (topUpAmounts_nonneg_iff hdb .pdf pdfSize).2 h.2⟩⟩

end

/-! ## When a settlement is right -/

namespace MarkdownIngest

/-- A research has one database refunded, whichever there are. -/
theorem settledDb_count (r : MarkdownIngest) :
    r.settledDb.count = r.db.count ∧ (r.db.count = 1 ∨ r.db.count = 2) ∨
      r.settledDb.count = 1 ∧ r.db.count = 2 := by
  obtain ⟨definition, kind, db, hdb, hurls, hpdfs⟩ := r
  have hcount : db.count = 1 ∨ db.count = 2 := by
    obtain ⟨vector, graph⟩ := db
    cases vector <;> cases graph <;> simp_all [DbConfig.count]
  cases kind with
  | crawl task => exact .inl ⟨rfl, hcount⟩
  | research name topK =>
    have hone : (⟨false, true⟩ : DbConfig).count = 1 := rfl
    refine hcount.imp (fun h => ⟨hone.trans h.symm, .inl h⟩) fun h => ⟨hone, h⟩

theorem settledDb_count_pos (r : MarkdownIngest) : 0 < r.settledDb.count := by
  have h := r.settledDb_count
  omega

/-- With the maximum of a page as good as that of a pdf, what remains charged is right when no
more was produced than charged, and each database was. -/
theorem net_iff (r : MarkdownIngest) (detail : RefundDetail)
    {documents : List MarkdownDocumentSize} (h : ∀ d ∈ documents, r.definition.Within d)
    (hpdf : typeCount .pdf documents = 0 ∨ r.definition.maxPdfMb = r.definition.maxHtmlMb)
    (info info' : CostInfo) :
    (r.charged info).generateBill.total + (r.settled detail documents info').generateBill.total =
        r.db.count * ingestedKb documents ↔
      (typeCount .html documents ≤ r.kind.urlSize ∨ r.definition.maxHtmlMb = 0) ∧
        (typeCount .pdf documents ≤ r.kind.pdfSize ∨ r.definition.maxPdfMb = 0) ∧
        (r.settledDb.count = r.db.count ∨ ingestedKb documents = 0) := by
  have hown : (r.definition.maxPdfMb - r.definition.maxHtmlMb) * typeCount .pdf documents = 0 :=
    mul_eq_zero.2 (hpdf.symm.imp_left sub_eq_zero.2)
  have hkb : 0 ≤ ingestedKb documents := ingestedKb_nonneg h
  have hurls := overrun_nonneg h .html r.urlSize_nonneg
  have hpdfs := overrun_nonneg h .pdf r.pdfSize_nonneg
  have hn := r.settledDb_count
  have hhtmlMb : r.definition.maxHtmlMb = r.definition.maxMb .html := rfl
  have hpdfMb : r.definition.maxPdfMb = r.definition.maxMb .pdf := rfl
  rw [r.net_total, hown, hhtmlMb, hpdfMb, ← overrun_eq_zero_iff, ← overrun_eq_zero_iff]
  generalize r.definition.maxMb .html * max 0 _ = a at *
  generalize r.definition.maxMb .pdf * max 0 _ = b at *
  generalize ingestedKb documents = kb at *
  obtain ⟨hsame, hone | htwo⟩ | ⟨hone, htwo⟩ := hn
  · rw [hsame, hone]
    omega
  · rw [hsame, htwo]
    omega
  · rw [hone, htwo]
    omega

end MarkdownIngest

/-- **A settlement is right** when no pdf was produced, or the maxima of pages and pdf documents
are the same, no more was produced than charged, and each of the databases was charged. -/
theorem settlementRight_iff (r : MarkdownIngest) (detail : RefundDetail)
    (documents : List MarkdownDocumentSize) (h : ∀ d ∈ documents, r.definition.Within d)
    (info info' : CostInfo) :
    SettlementRight r detail documents info info' ↔ SettlementGuard r documents := by
  have hamounts := (r.settled_amounts detail documents info').1
  have hdb := r.settledDb_count_pos
  constructor
  · intro ⟨hnet, hown, hnonneg⟩
    have hpdf := (refundAmounts_own_iff detail hdb.ne' _ _).1 (hamounts.symm.trans hown)
    obtain ⟨hurls, hpdfs, hdbs⟩ := (r.net_iff detail h hpdf info info').1 hnet
    rw [hown] at hnonneg
    obtain ⟨hhtmlMax, hpdfMax⟩ := (refundAmounts_nonneg_iff h detail hdb _ _).1 hnonneg
    exact ⟨hpdf, hurls, hpdfs, hhtmlMax, hpdfMax, hdbs⟩
  · intro ⟨hpdf, hurls, hpdfs, hhtmlMax, hpdfMax, hdbs⟩
    have hown := hamounts.trans ((refundAmounts_own_iff detail hdb.ne' _ _).2 hpdf)
    refine ⟨(r.net_iff detail h hpdf info info').2 ⟨hurls, hpdfs, hdbs⟩, hown, ?_⟩
    rw [hown]
    exact (refundAmounts_nonneg_iff h detail hdb _ _).2 ⟨hhtmlMax, hpdfMax⟩

/-- One page and one pdf for a vector database, with the maxima of `costs.json`. -/
def pageAndPdf : MarkdownIngest where
  definition := ⟨5, 12⟩
  kind := .crawl ⟨"Defined urls", 1, 1⟩
  db := ⟨true, false⟩
  config_validation := .inl rfl
  urlSize_nonneg := by decide
  pdfSize_nonneg := by decide

/-- A page of 1500 bytes. -/
def smallPage : MarkdownDocumentSize := ⟨1500, "Markdown size of a page", .html⟩

/-- A pdf of six megabytes. -/
def largePdf : MarkdownDocumentSize := ⟨6 * 1024 * 1024, "Markdown size of a pdf", .pdf⟩

/-- The costs of one client. -/
def pageInfo : CostInfo := ⟨"request", "client", "2026-01-01T00:00:00", none, none⟩

/-- A page alone is settled right, with the pdf that was not found. -/
theorem settlementRight_page :
    SettlementRight pageAndPdf .fullRefund [smallPage] pageInfo pageInfo :=
  (settlementRight_iff pageAndPdf .fullRefund [smallPage] (by decide) pageInfo pageInfo).2
    ⟨.inl rfl, .inl (by decide), .inl (by decide), by decide, by decide, .inl rfl⟩

/-- **A pdf is measured against the maximum of a page**: one of six megabytes, of which twelve
were charged, is refunded a negative amount. -/
theorem not_settlementRight_pdf :
    (∀ d ∈ [smallPage, largePdf], pageAndPdf.definition.Within d) ∧
      (pageAndPdf.settled .partialRefund [smallPage, largePdf] pageInfo).refundedAmounts =
        [5118, -1024] ∧
      ∀ detail, ¬ SettlementRight pageAndPdf detail [smallPage, largePdf] pageInfo pageInfo := by
  refine ⟨by decide, ?_, fun detail h => ?_⟩
  · rw [(pageAndPdf.settled_amounts .partialRefund [smallPage, largePdf] pageInfo).1]
    decide +kernel
  · have hnet := h.net
    have hurls : typeCount .html [smallPage, largePdf] = 1 := rfl
    have hpdfs : typeCount .pdf [smallPage, largePdf] = 1 := rfl
    rw [MarkdownIngest.net_total, hurls, hpdfs] at hnet
    simp [pageAndPdf, MarkdownIngest.settledDb, MarkdownKind.urlSize, MarkdownKind.pdfSize,
      DbConfig.count] at hnet

end Notifyr
