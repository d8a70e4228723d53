import Mathlib.Algebra.BigOperators.Group.List.Basic
import Notifyr.Cost.Bill

/-!
# The costs of ingestion

The cost classes of `app/cost/file_cost.py` and `app/cost/ingest_cost.py` for the three ingest
tasks, as functions on the `Cost` they add items to.

- `bytesConversion`: `FileService.bytes_conversion`.
- `FileIngestCost`, `CrawlMarkdownIngestCost`, `ResearchMarkdownIngestCost`: the classes, with
  what `init` gets from the definitions; `postPurchase` charges a request and `postRefund`
  takes the charge back.
- `filePrice`, `crawlPrice`, `researchPrice`: what a request costs by its sizes.
- `FileIngestCost.purchaseCost_postPurchase` and its siblings: a request is charged its price.
- `FileIngestCost.refundCost_postRefund`, `CrawlMarkdownIngestCost.refundCost_postRefund`: and
  as much is taken back.
-/

namespace Notifyr

/-- `BytesSize`. -/
inductive BytesSize
  | b
  | kb
  | mb
  deriving DecidableEq

/-- `BYTES_UNITS`. -/
def BytesSize.units : BytesSize → ℚ
  | b => 1
  | kb => 1024
  | mb => 1024 * 1024

/-- `FileService.bytes_conversion`; `int` truncates towards zero. -/
def bytesConversion (size : Option ℚ) (source target : BytesSize) : ℤ :=
  match size with
  | none => 0
  | some size =>
    if source = target then ⌈size⌉
    else
      let targetValue := size * source.units / target.units
      if target = .b then targetValue.num.tdiv targetValue.den else ⌈targetValue⌉

/-- `UriMetadata`; a size is in bytes. -/
structure UriMetadata where
  uri : String
  size : ℚ

/-- A pair of a vector and a graph database, `db_config`. -/
structure DbConfig where
  vector : Bool
  graph : Bool

/-- The number of databases. -/
def DbConfig.count (db : DbConfig) : ℤ :=
  (if db.vector then 1 else 0) + if db.graph then 1 else 0

/-- Purchase all prices of a list. -/
def purchaseAll (c : Cost) (prices : List (String × ℤ × ℤ)) : Cost :=
  prices.foldl (fun c (d, p, q) => c.purchase d p q) c

/-- Refund all prices of a list. -/
def refundAll (c : Cost) (prices : List (String × ℤ × ℤ)) : Cost :=
  prices.foldl (fun c (d, p, q) => c.refund d p q) c

/-! ## Files -/

/-- `FileCostDefinition`. -/
structure FileCostDefinition where
  maxFileSize : ℤ
  maxFileSizeExtraPerMb : ℤ

/-- What `FileCost.init` gets from the definition. -/
structure FileIngestCost where
  maxFileSize : ℤ
  costPerExtraMb : ℤ

namespace FileIngestCost

/-- `FileCost.init`. -/
def init (definition : FileCostDefinition) : FileIngestCost where
  maxFileSize := bytesConversion (some definition.maxFileSize) .mb .kb
  costPerExtraMb := definition.maxFileSizeExtraPerMb

/-- `FileCost.compute_prices`: descriptions, amounts and quantities. -/
def computePrices (self : FileIngestCost) (name filename : String) (size : Option ℚ) :
    List (String × ℤ × ℤ) :=
  let fileSizeKb := bytesConversion size .b .kb
  let filename := if filename = "" then "unknown" else filename
  let delta := self.maxFileSize - fileSizeKb
  let exceeds := if delta < 0 then
      [(s!"{name} {filename} ({fileSizeKb}.00 KB, exceeds limit of {self.maxFileSize} KB)",
        self.costPerExtraMb, delta * -1)]
    else []
  exceeds ++ [(s!"{name} {filename} ({fileSizeKb}.00 KB)", 1, fileSizeKb)]

/-- The prices of a file for the databases of a request. -/
def dbPrices (self : FileIngestCost) (name : String) (db : DbConfig) (metadata : UriMetadata) :
    List (String × ℤ × ℤ) :=
  (if db.vector then
    self.computePrices s!"[Vector] - {name}" metadata.uri (some metadata.size) else []) ++
  if db.graph then
    self.computePrices s!"[K-Graph] - {name}" metadata.uri (some metadata.size) else []

/-- `FileIngestCost.post_purchase`. -/
def postPurchase (self : FileIngestCost) (result : List UriMetadata) (db : DbConfig) (c : Cost) :
    Cost :=
  result.foldl (fun c metadata =>
    purchaseAll c (self.dbPrices "Document processing:" db metadata)) c

/-- `FileIngestCost.post_refund`. -/
def postRefund (self : FileIngestCost) (result : List UriMetadata) (db : DbConfig) (c : Cost) :
    Cost :=
  result.foldl (fun c metadata =>
    refundAll c (self.dbPrices "Document refund:" db metadata)) c

end FileIngestCost

/-! ## Web crawling and research -/

/-- `MarkdownCostDefinition`. -/
structure MarkdownCostDefinition where
  maxHtmlMb : ℤ
  maxPdfMb : ℤ

/-- `RefundDetail`. -/
inductive RefundDetail
  | fullRefund
  | partialRefund
  deriving DecidableEq

/-- What `MarkdownResultIngestCost.init` gets from the definition. -/
structure MarkdownResultIngestCost where
  maxHtmlKb : ℤ
  maxPdfKb : ℤ
  refundDetail : RefundDetail

/-- `MarkdownResultIngestCost.init`. -/
def MarkdownResultIngestCost.init (definition : MarkdownCostDefinition)
    (refundDetail : RefundDetail) : MarkdownResultIngestCost where
  maxHtmlKb := bytesConversion (some definition.maxHtmlMb) .mb .kb
  maxPdfKb := bytesConversion (some definition.maxPdfMb) .mb .kb
  refundDetail := refundDetail

/-- What the cost of a crawl reads of a `WebCrawlingDataIngestModel` with its sizes computed. -/
structure CrawlSizes where
  description : String
  urlSize : ℤ
  pdfSize : ℤ

/-- `WebCrawlingUriMetadata`. -/
structure WebCrawlingUriMetadata where
  uri : String
  size : ℚ
  urlSize : ℤ
  pdfSize : ℤ

namespace CrawlMarkdownIngestCost

/-- `CrawlMarkdownIngestCost.total_size`. -/
def totalSize (self : MarkdownResultIngestCost) (url pdf : ℤ) : ℤ :=
  url * self.maxHtmlKb + pdf * self.maxPdfKb

/-- `CrawlMarkdownIngestCost.compute`. -/
def compute (self : MarkdownResultIngestCost) (task : CrawlSizes) (db : DbConfig) (c : Cost) :
    Cost :=
  purchaseAll c <|
    (if db.vector then [(s!"[Vector] - {task.description}", self.maxHtmlKb, task.urlSize)]
      else []) ++
    (if db.graph then [(s!"[K-Graph] - {task.description}", self.maxHtmlKb, task.urlSize)]
      else []) ++
    (if db.vector then [("[Vector] - pdf", self.maxPdfKb, task.pdfSize)] else []) ++
    if db.graph then [("[K-Graph] - pdf", self.maxPdfKb, task.pdfSize)] else []

/-- `CrawlMarkdownIngestCost.post_purchase`. -/
def postPurchase (self : MarkdownResultIngestCost) (task : CrawlSizes) (db : DbConfig) (c : Cost) :
    Cost := compute self task db c

/-- `CrawlMarkdownIngestCost.post_refund`. -/
def postRefund (self : MarkdownResultIngestCost) (metadata : WebCrawlingUriMetadata)
    (db : DbConfig) (c : Cost) : Cost :=
  if self.refundDetail = .fullRefund then
    let c := if db.vector then c.refund "[Crawl Refund Vector]" metadata.size 1 else c
    if db.graph then c.refund "[Crawl Refund Vector]" metadata.size 1 else c
  else
    refundAll c <|
      (if db.vector then
        [("[Crawl Refund Vector] - website url", self.maxHtmlKb, metadata.urlSize),
          ("[Crawl Refund Vector] - pdf url", self.maxPdfKb, metadata.pdfSize)] else []) ++
      if db.graph then
        [("[Crawl Refund K-Graph] - website url", self.maxHtmlKb, metadata.urlSize),
          ("[Crawl Refund K-Graph] - pdf url", self.maxPdfKb, metadata.pdfSize)] else []

end CrawlMarkdownIngestCost

namespace ResearchMarkdownIngestCost

/-- `ResearchMarkdownIngestCost.pre_purchase`, which `post_purchase` calls. -/
def postPurchase (self : MarkdownResultIngestCost) (name : String) (topK : ℤ) (c : Cost) : Cost :=
  c.purchase s!"Ingest of the {name}" topK self.maxHtmlKb

/-- `ResearchMarkdownIngestCost.post_refund`. -/
def postRefund (metadata : UriMetadata) (c : Cost) : Cost :=
  c.refund s!"Refund of the research: {metadata.uri}" metadata.size 1

end ResearchMarkdownIngestCost

/-! ## Prices -/

/-- The price of a file in one database: a credit for each kilobyte, and the extra price for
each kilobyte above the limit. -/
def filePrice (definition : FileCostDefinition) (size : ℚ) : ℤ :=
  let kb := ⌈size / 1024⌉
  kb + definition.maxFileSizeExtraPerMb * max 0 (kb - 1024 * definition.maxFileSize)

/-- The price of a crawl in one database: the largest size a page may have for each page. -/
def crawlPrice (definition : MarkdownCostDefinition) (urlSize pdfSize : ℤ) : ℤ :=
  1024 * definition.maxHtmlMb * urlSize + 1024 * definition.maxPdfMb * pdfSize

/-- The price of a research. -/
def researchPrice (definition : MarkdownCostDefinition) (topK : ℤ) : ℤ :=
  topK * (1024 * definition.maxHtmlMb)

/-- What a list of prices adds up to. -/
def pricesTotal (prices : List (String × ℤ × ℤ)) : ℤ :=
  (prices.map fun (_, p, q) => p * q).sum

theorem bytesConversion_mb (n : ℤ) : bytesConversion (some n) .mb .kb = 1024 * n := by
  have hvalue : (n : ℚ) * BytesSize.units .mb / BytesSize.units .kb = ((1024 * n : ℤ) : ℚ) := by
    unfold BytesSize.units
    push_cast
    ring
  show ⌈(n : ℚ) * BytesSize.units .mb / BytesSize.units .kb⌉ = _
  rw [hvalue, Int.ceil_intCast]

theorem bytesConversion_b (size : ℚ) : bytesConversion (some size) .b .kb = ⌈size / 1024⌉ := by
  show ⌈size * BytesSize.units .b / BytesSize.units .kb⌉ = _
  unfold BytesSize.units
  rw [mul_one]

theorem purchaseAll_purchaseCost (c : Cost) (prices : List (String × ℤ × ℤ)) :
    (purchaseAll c prices).purchaseCost = c.purchaseCost + pricesTotal prices ∧
      (purchaseAll c prices).refundCost = c.refundCost := by
  induction prices generalizing c with
  | nil => simp [purchaseAll, pricesTotal]
  | cons e prices ih =>
    obtain ⟨d, p, q⟩ := e
    obtain ⟨hp, hr⟩ := ih (c.purchase d p q)
    constructor
    · show (purchaseAll (c.purchase d p q) prices).purchaseCost = _
      have hceil : ⌈(p : ℚ) * (q : ℚ)⌉ = p * q := by
        rw [← Int.cast_mul, Int.ceil_intCast]
      rw [hp, Cost.purchase_purchaseCost, hceil]
      simp [pricesTotal]
      ring
    · exact hr

theorem refundAll_refundCost (c : Cost) (prices : List (String × ℤ × ℤ)) :
    (refundAll c prices).refundCost = c.refundCost + pricesTotal prices ∧
      (refundAll c prices).purchaseCost = c.purchaseCost := by
  induction prices generalizing c with
  | nil => simp [refundAll, pricesTotal]
  | cons e prices ih =>
    obtain ⟨d, p, q⟩ := e
    obtain ⟨hr, hp⟩ := ih (c.refund d p q)
    constructor
    · show (refundAll (c.refund d p q) prices).refundCost = _
      have hceil : ⌈(p : ℚ) * (q : ℚ)⌉ = p * q := by
        rw [← Int.cast_mul, Int.ceil_intCast]
      rw [hr, Cost.refund_refundCost, hceil]
      simp [pricesTotal]
      ring
    · exact hp

theorem pricesTotal_append (l₁ l₂ : List (String × ℤ × ℤ)) :
    pricesTotal (l₁ ++ l₂) = pricesTotal l₁ + pricesTotal l₂ := by
  simp [pricesTotal]

/-- A list of prices for each of the databases there are. -/
theorem pricesTotal_db (db : DbConfig) (price : ℤ) {l₁ l₂ : List (String × ℤ × ℤ)}
    (h₁ : pricesTotal l₁ = price) (h₂ : pricesTotal l₂ = price) :
    pricesTotal ((if db.vector then l₁ else []) ++ if db.graph then l₂ else []) =
      db.count * price := by
  have hnil : pricesTotal [] = 0 := rfl
  rw [pricesTotal_append]
  unfold DbConfig.count
  cases db.vector <;> cases db.graph <;> simp [h₁, h₂, hnil]
  ring

namespace FileIngestCost

theorem pricesTotal_computePrices (definition : FileCostDefinition) (name filename : String)
    (size : ℚ) : pricesTotal ((init definition).computePrices name filename (some size)) =
      filePrice definition size := by
  unfold computePrices init filePrice
  simp only [bytesConversion_mb, bytesConversion_b]
  rw [pricesTotal_append]
  by_cases h : 1024 * definition.maxFileSize - ⌈size / 1024⌉ < 0
  · have hmax : max 0 (⌈size / 1024⌉ - 1024 * definition.maxFileSize) =
        ⌈size / 1024⌉ - 1024 * definition.maxFileSize := max_eq_right (by omega)
    rw [if_pos h, hmax]
    simp [pricesTotal]
    ring
  · have hmax : max 0 (⌈size / 1024⌉ - 1024 * definition.maxFileSize) = 0 :=
      max_eq_left (by omega)
    rw [if_neg h, hmax]
    simp [pricesTotal]

theorem pricesTotal_dbPrices (definition : FileCostDefinition) (name : String) (db : DbConfig)
    (metadata : UriMetadata) :
    pricesTotal ((init definition).dbPrices name db metadata) =
      db.count * filePrice definition metadata.size :=
  pricesTotal_db db _ (pricesTotal_computePrices definition _ _ _)
    (pricesTotal_computePrices definition _ _ _)

/-- **Files are charged their price.** -/
theorem purchaseCost_postPurchase (definition : FileCostDefinition) (result : List UriMetadata)
    (db : DbConfig) (c : Cost) :
    let c' := (init definition).postPurchase result db c
    c'.purchaseCost = c.purchaseCost +
        db.count * (result.map fun m => filePrice definition m.size).sum ∧
      c'.refundCost = c.refundCost := by
  induction result generalizing c with
  | nil => simp [postPurchase]
  | cons m result ih =>
    obtain ⟨hp, hr⟩ := purchaseAll_purchaseCost c
      ((init definition).dbPrices "Document processing:" db m)
    obtain ⟨hp', hr'⟩ := ih (purchaseAll c
      ((init definition).dbPrices "Document processing:" db m))
    constructor
    · refine hp'.trans ?_
      rw [hp, pricesTotal_dbPrices, List.map_cons, List.sum_cons]
      ring
    · exact hr'.trans hr

/-- **As much is taken back for files.** -/
theorem refundCost_postRefund (definition : FileCostDefinition) (result : List UriMetadata)
    (db : DbConfig) (c : Cost) :
    let c' := (init definition).postRefund result db c
    c'.refundCost = c.refundCost +
        db.count * (result.map fun m => filePrice definition m.size).sum ∧
      c'.purchaseCost = c.purchaseCost := by
  induction result generalizing c with
  | nil => simp [postRefund]
  | cons m result ih =>
    obtain ⟨hr, hp⟩ := refundAll_refundCost c
      ((init definition).dbPrices "Document refund:" db m)
    obtain ⟨hr', hp'⟩ := ih (refundAll c ((init definition).dbPrices "Document refund:" db m))
    constructor
    · refine hr'.trans ?_
      rw [hr, pricesTotal_dbPrices, List.map_cons, List.sum_cons]
      ring
    · exact hp'.trans hp

end FileIngestCost

namespace CrawlMarkdownIngestCost

/-- **A crawl is charged its price.** -/
theorem purchaseCost_postPurchase (definition : MarkdownCostDefinition) (detail : RefundDetail)
    (task : CrawlSizes) (db : DbConfig) (c : Cost) :
    let c' := postPurchase (.init definition detail) task db c
    c'.purchaseCost = c.purchaseCost +
        db.count * crawlPrice definition task.urlSize task.pdfSize ∧
      c'.refundCost = c.refundCost := by
  obtain ⟨hp, hr⟩ := purchaseAll_purchaseCost c _
  refine ⟨hp.trans ?_, hr⟩
  unfold MarkdownResultIngestCost.init
  simp only [bytesConversion_mb]
  rw [List.append_assoc, pricesTotal_append]
  unfold DbConfig.count crawlPrice
  cases db.vector <;> cases db.graph <;> simp [pricesTotal]
  all_goals ring

/-- **As much is taken back for a crawl that failed to be queued.** -/
theorem refundCost_postRefund (definition : MarkdownCostDefinition)
    (metadata : WebCrawlingUriMetadata) (db : DbConfig) (c : Cost) :
    let c' := postRefund (.init definition .partialRefund) metadata db c
    c'.refundCost = c.refundCost +
        db.count * crawlPrice definition metadata.urlSize metadata.pdfSize ∧
      c'.purchaseCost = c.purchaseCost := by
  obtain ⟨hr, hp⟩ := refundAll_refundCost c _
  refine ⟨hr.trans ?_, hp⟩
  unfold MarkdownResultIngestCost.init
  simp only [bytesConversion_mb]
  rw [pricesTotal_db db (crawlPrice definition metadata.urlSize metadata.pdfSize)]
  · simp [pricesTotal, crawlPrice]
  · simp [pricesTotal, crawlPrice]

end CrawlMarkdownIngestCost

/-- **A research is charged its price.** -/
theorem ResearchMarkdownIngestCost.purchaseCost_postPurchase (definition : MarkdownCostDefinition)
    (detail : RefundDetail) (name : String) (topK : ℤ) (c : Cost) :
    let c' := postPurchase (.init definition detail) name topK c
    c'.purchaseCost = c.purchaseCost + researchPrice definition topK ∧
      c'.refundCost = c.refundCost := by
  refine ⟨?_, rfl⟩
  have hceil : ⌈(topK : ℚ) * ((1024 * definition.maxHtmlMb : ℤ) : ℚ)⌉ =
      researchPrice definition topK := by
    rw [← Int.cast_mul, Int.ceil_intCast]
    rfl
  unfold ResearchMarkdownIngestCost.postPurchase MarkdownResultIngestCost.init
  rw [Cost.purchase_purchaseCost]
  simp only [bytesConversion_mb, hceil]

end Notifyr
