import Notifyr.Ingest.SliceMarkdown
import Notifyr.Runtime.JsonLoads

/-!
# The results of a crawl

`crawl`, `process_result` and `process_content` of `WebCrawlerIngestion`
(`app/ingestion/crawl_ingestion.py`). An exception is its message here, which is all that
`process_result` keeps of it.

- `processContent`: takes the content out of a result and records the size of its markdown.
- `linkLoop`: the loop over the links of a page; `linkLoop_eq`: it collects nothing.
- `crawl`: the pages, and the documents behind the links collected.
- `CrawlRight`: one record for each success and no other; the links to PDFs are followed.
- `crawlRight_iff`: the crawls that are so.
-/

namespace Notifyr

open Theory

namespace Crawl

/-! ## What is crawled -/

/-- `result.markdown`: nothing (also an empty text), an object without `fit_markdown`, or one. -/
inductive PageMarkdown
  | empty
  | plain
  | generated (fitMarkdown : Option PyStr)

/-- `result.metadata`: a key may be missing, and its value `None`. -/
structure PageMetadata where
  title : Option (Option PyStr)
  description : Option (Option PyStr)

/-- `result.links`, by the `href` of each. -/
structure PageLinks where
  internal : List (Option PyStr)
  external : List (Option PyStr)

/-- `CrawlResult`. -/
structure CrawlResult where
  url : PyStr
  success : Bool
  errorMessage : Option PyStr
  metadata : Option PageMetadata
  markdown : PageMarkdown
  extractedContent : Option PyStr
  links : Option PageLinks

/-- `ingestTask.extraction`. -/
inductive ExtractionConfig
  | texts
  | schema
  | knowledgeGraph

/-- A size, or the letter that is taken for one. -/
inductive DocumentSize
  | bytes (n : ℕ)
  | letter (s : PyStr)
  deriving DecidableEq

/-- `MarkdownDocumentSize` as it is recorded here. -/
structure RecordedDocument where
  size : DocumentSize
  description : PyStr
  docType : DocType

/-- `CrawlResultMetadata`; `σ` are the items of a schema. Its chunks are never filled. -/
structure CrawlResultMetadata (σ : Type) where
  url : PyStr
  title : Option PyStr
  source : Option PyStr
  description : Option PyStr
  success : Bool
  error : Option PyStr
  extractedContent : Option (List σ)
  markdownContent : Option PyStr
  docType : DocType

/-- What the interpreter and the packages decide. -/
structure CrawlEnv (φ σ : Type) where
  json : JsonEnv φ
  isZero : φ → Bool
  jsonError : JsonExc → PyStr
  unicodeError : PyStr → PyStr
  /-- `urlparse`: scheme and host. -/
  urlparse : PyStr → Except PyStr (PyStr × PyStr)
  /-- The texts of `CrawlTextModel.model_validate(**content)`. -/
  validateTexts : PyJson φ → Except PyStr (List PyStr)
  /-- `TextDetector(text).analyze()`. -/
  analyze : PyStr → Except PyStr Unit
  /-- Validation by `CrawlSchemaModel` and the schema of the task. -/
  validateItem : PyJson φ → Option σ

/-- `WebCrawlerIngestion`. -/
structure WebCrawlerIngestion (φ σ : Type) where
  env : CrawlEnv φ σ
  extraction : ExtractionConfig
  /-- `ingestTask.pdf`, by its `max_links`. -/
  pdf : Option ℕ
  maxMarkdownDef : Dict String ℤ

/-- A text that is there and not empty. -/
def filled (s : Option PyStr) : Option PyStr := s.filter (· ≠ [])

/-- `result.markdown.fit_markdown`, if there is any. -/
def CrawlResult.fitMarkdown (result : CrawlResult) : Option PyStr :=
  match result.markdown with
  | .generated fitMarkdown => filled fitMarkdown
  | _ => none

/-! ## The content of a result -/

/-- How a part of a function is left. -/
inductive Leave
  | raised (e : PyStr)
  | returned
  | on

/-- `markdown, size = ...`; a text is taken apart into its letters. -/
def unpack : Sliced → Except PyStr (PyStr × DocumentSize)
  | .pair text size => .ok (text, .bytes size)
  | .text [markdown, size] => .ok ([markdown], .letter [size])
  | .text s =>
    if s.length < 2 then
      .error (pyText s!"not enough values to unpack (expected 2, got {s.length})")
    else .error (pyText "too many values to unpack (expected 2)")

section Functions

variable {φ σ : Type}

/-- `markdown, size = self.slice_markdown(markdown, doctype)`. -/
def sliced (self : WebCrawlerIngestion φ σ) (markdown : PyStr) (doctype : DocType) :
    Except PyStr (PyStr × DocumentSize) :=
  match sliceMarkdown self.maxMarkdownDef markdown doctype with
  | .error _ => .error (self.env.unicodeError markdown)
  | .ok r => unpack r

/-- `not content`. -/
def isFalse (env : CrawlEnv φ σ) : PyJson φ → Bool
  | .atom .none => true
  | .atom (.bool b) => !b
  | .atom (.int n) => n = 0
  | .atom (.float x) => env.isZero x
  | .atom (.str s) => s.isEmpty
  | .list items => items.isEmpty
  | .dict entries => entries.isEmpty

/-- A text of `CrawlTextModel`. `Chunk` is called without `vector` and `category`. -/
def addChunk (env : CrawlEnv φ σ) (text : PyStr) : Except PyStr Unit := do
  env.analyze text
  .error (pyText
    "Chunk.__init__() missing 2 required positional arguments: 'vector' and 'category'")

/-- The branch of `TextsExtractionConfig`. -/
def extractTexts (env : CrawlEnv φ σ) (extractedContent : Option PyStr) : Leave :=
  match extractedContent with
  | none => .raised (pyText "the JSON object must be str, bytes or bytearray, not NoneType")
  | some text =>
    match loads env.json text with
    | .error e => .raised (env.jsonError e)
    | .ok semanticsTexts =>
      if isFalse env semanticsTexts then .returned
      else
        match env.validateTexts semanticsTexts >>= fun texts => texts.forM (addChunk env) with
        | .error e => .raised e
        | .ok _ => .on

/-- The members `for` finds in a value. -/
def iterate : PyJson φ → Except PyStr (List (PyJson φ))
  | .list items => .ok items
  | .dict entries => .ok (entries.map fun e => .str e.1)
  | .atom (.str s) => .ok (s.map fun c => .str [c])
  | .atom .none => .error (pyText "'NoneType' object is not iterable")
  | .atom (.bool _) => .error (pyText "'bool' object is not iterable")
  | .atom (.int _) => .error (pyText "'int' object is not iterable")
  | .atom (.float _) => .error (pyText "'float' object is not iterable")

/-- The branch of `SchemaExtractionConfig`; items that are not valid are passed over. -/
def extractSchema (env : CrawlEnv φ σ) (extractedContent : Option PyStr)
    (metadata : CrawlResultMetadata σ) : Leave × CrawlResultMetadata σ :=
  match filled extractedContent with
  | none => (.returned, metadata)
  | some text =>
    let metadata := { metadata with extractedContent := some [] }
    match loads env.json text with
    | .error _ => (.returned, { metadata with
        success := false
        error := some (pyText "Could not process extract the schema") })
    | .ok schemaContent =>
      match iterate schemaContent with
      | .error e => (.raised e, metadata)
      | .ok items =>
        (.on, { metadata with extractedContent := some (items.filterMap env.validateItem) })

/-- The branches of `process_content`. -/
def extract (self : WebCrawlerIngestion φ σ) (result : CrawlResult) (markdown : PyStr)
    (metadata : CrawlResultMetadata σ) : Leave × CrawlResultMetadata σ :=
  match self.extraction with
  | .texts => (extractTexts self.env result.extractedContent, metadata)
  | .schema => extractSchema self.env result.extractedContent metadata
  | .knowledgeGraph => (.on, { metadata with markdownContent := some markdown })

/-- The text of a `DocType`. -/
def docTypeText : DocType → PyStr
  | .html => pyText "html"
  | .pdf => pyText "pdf"

/-- `process_content`: how it ends, the metadata, and the documents recorded. -/
def processContent (self : WebCrawlerIngestion φ σ) (result : CrawlResult)
    (metadata : CrawlResultMetadata σ) (documents : List RecordedDocument) (doctype : DocType) :
    Except PyStr Unit × CrawlResultMetadata σ × List RecordedDocument :=
  match result.fitMarkdown with
  | none => (.ok (), { metadata with
      success := false
      error := some ((filled result.errorMessage).getD (pyText "No markdown content extracted")) },
      documents)
  | some markdown =>
    match sliced self markdown doctype with
    | .error e => (.error e, metadata, documents)
    | .ok (markdown, size) =>
      match extract self result markdown metadata with
      | (.raised e, metadata) => (.error e, metadata, documents)
      | (.returned, metadata) => (.ok (), metadata, documents)
      | (.on, metadata) => (.ok (), metadata, documents ++ [{
          size
          description := pyText "Markdown size of " ++ metadata.url ++ pyText " with title " ++
            metadata.title.getD (pyText "None") ++ pyText " from a " ++ docTypeText doctype ++
            pyText " source"
          docType := doctype }])

/-! ## The links of a page -/

/-- `link['href']`, where `link` is a text already. -/
def subscriptHref (_link : PyStr) : Except PyStr PyStr :=
  .error (pyText "string indices must be integers, not 'str'")

/-- The loop over the links of a page: how it ends, and the links collected. -/
def linkLoop (doctype : DocType) : List PyStr → List (Option PyStr) →
    Except PyStr Unit × List PyStr
  | pdfLinks, [] => (.ok (), pdfLinks)
  | pdfLinks, href :: links =>
    match filled href with
    | none => linkLoop doctype pdfLinks links
    | some link =>
      if doctype = .pdf ∧ pyText ".pdf" <:+ link ∨ doctype = .html ∧ ¬ pyText ".pdf" <:+ link then
        match subscriptHref link with
        | .error e => (.error e, pdfLinks)
        | .ok href => linkLoop doctype (pdfLinks ++ [href]) links
      else linkLoop doctype pdfLinks links

/-! ## A result -/

/-- What `process_result` changes. -/
structure CrawlState where
  documents : List RecordedDocument
  /-- `pdf_links`; `None` for documents. -/
  pdfLinks : Option (List PyStr)

/-- The body of the `try` of `process_result`. -/
def tryResult (self : WebCrawlerIngestion φ σ) (result : CrawlResult) (doctype : DocType)
    (metadata : CrawlResultMetadata σ) (s : CrawlState) :
    Except PyStr Unit × CrawlResultMetadata σ × CrawlState :=
  match self.env.urlparse result.url with
  | .error e => (.error e, metadata, s)
  | .ok (scheme, netloc) =>
    match result.metadata with
    | none => (.error (pyText "'NoneType' object has no attribute 'get'"), metadata, s)
    | some page =>
      let metadata := { metadata with
        title := page.title.getD (some result.url)
        description := page.description.getD (some [])
        source := some (scheme ++ pyText "://" ++ netloc) }
      match processContent self result metadata s.documents doctype with
      | (.error e, metadata, documents) => (.error e, metadata, { s with documents })
      | (.ok (), metadata, documents) =>
        let s := { s with documents }
        match s.pdfLinks, self.pdf, result.links with
        | some pdfLinks, some _, some links =>
          let (ended, pdfLinks) := linkLoop doctype pdfLinks (links.internal ++ links.external)
          (ended, metadata, { s with pdfLinks := some pdfLinks })
        | _, _, _ => (.ok (), metadata, s)

/-- `process_result`. -/
def processResult (self : WebCrawlerIngestion φ σ) (result : CrawlResult) (doctype : DocType)
    (s : CrawlState) : CrawlResultMetadata σ × CrawlState :=
  let metadata : CrawlResultMetadata σ :=
    { url := result.url, title := none, source := none, description := none
      success := result.success, error := none, extractedContent := none, markdownContent := none
      docType := doctype }
  if result.success = false then
    ({ metadata with error := some ((filled result.errorMessage).getD (pyText "Unknown error")) },
      s)
  else
    match tryResult self result doctype metadata s with
    | (.ok (), metadata, s) => (metadata, s)
    | (.error e, metadata, s) => ({ metadata with success := false, error := some e }, s)

/-! ## A crawl -/

/-- A result that was processed, what was yielded for it, and the documents before and after. -/
structure CrawlStep (σ : Type) where
  result : CrawlResult
  doctype : DocType
  yielded : CrawlResultMetadata σ
  before : List RecordedDocument
  after : List RecordedDocument

/-- The loop over the results of `arun_many`. -/
def resultLoop (self : WebCrawlerIngestion φ σ) (doctype : DocType) (s : CrawlState) :
    List CrawlResult → List (CrawlStep σ) × CrawlState
  | [] => ([], s)
  | result :: results =>
    let (yielded, s') := processResult self result doctype s
    let rest := resultLoop self doctype s' results
    (⟨result, doctype, yielded, s.documents, s'.documents⟩ :: rest.1, rest.2)

/-- What a crawl does: its steps, the documents recorded, and the links that it follows. -/
structure CrawlRun (σ : Type) where
  steps : List (CrawlStep σ)
  documents : List RecordedDocument
  followed : List PyStr

/-- `crawl`, with `arun_many` for the pages and for the documents. -/
def crawl (self : WebCrawlerIngestion φ σ) (order : SetOrder)
    (arunPages arunDocuments : List PyStr → List CrawlResult) (urls : List PyStr) : CrawlRun σ :=
  let (steps, s) := resultLoop self .html ⟨[], some []⟩ (arunPages urls)
  match s.pdfLinks with
  | some (link :: links) =>
    let pdfLinks := order.enum (link :: links).dedup
    let (documentSteps, s) := resultLoop self .pdf { s with pdfLinks := none }
      (arunDocuments pdfLinks)
    ⟨steps ++ documentSteps, s.documents, pdfLinks⟩
  | _ => ⟨steps, s.documents, []⟩

/-! ## What a crawl owes -/

/-- The links of a result to PDFs. -/
def CrawlResult.linksToPdf (result : CrawlResult) : List PyStr :=
  match result.links with
  | none => []
  | some links =>
    (links.internal ++ links.external).filterMap fun href => href.filter (pyText ".pdf" <:+ ·)

/-- The document of a step: its type, and as its size that of the markdown that is kept. -/
structure IsEntry (crawler : WebCrawlerIngestion φ σ) (step : CrawlStep σ)
    (entry : RecordedDocument) : Prop where
  docType : entry.docType = step.yielded.docType
  size : ∃ markdown kept size, step.result.fitMarkdown = some markdown ∧
    sliced crawler markdown step.doctype = .ok (kept, size) ∧ entry.size = .bytes kept.byteLength

/-- A success is recorded once, a failure is not recorded. -/
def StepRight (self : WebCrawlerIngestion φ σ) (step : CrawlStep σ) : Prop :=
  if step.yielded.success = true then
    ∃ entry, step.after = step.before ++ [entry] ∧ IsEntry self step entry
  else step.after = step.before

/-- The links to PDFs on the pages of a run. -/
def CrawlRun.found (run : CrawlRun σ) : List PyStr :=
  (run.steps.filter fun step => step.doctype = .html ∧ step.result.success = true).flatMap
    fun step => step.result.linksToPdf

/-- Each step is recorded right, and the links found are followed, up to the maximum bought. -/
structure CrawlRight (crawler : WebCrawlerIngestion φ σ) (run : CrawlRun σ) : Prop where
  steps : ∀ step ∈ run.steps, StepRight crawler step
  nodup : run.followed.Nodup
  found : ∀ link ∈ run.followed, link ∈ run.found
  followed : run.followed.length = min (crawler.pdf.getD 0) run.found.dedup.length

/-! ## When it does -/

/-- A result that comes to the extraction, with the markdown that is kept and its size. -/
structure Reaches (crawler : WebCrawlerIngestion φ σ) (result : CrawlResult) (kept : PyStr)
    (size : DocumentSize) : Prop where
  success : result.success = true
  url : ∃ parts, crawler.env.urlparse result.url = .ok parts
  metadata : result.metadata.isSome
  content : ∃ markdown, result.fitMarkdown = some markdown ∧
    sliced crawler markdown .html = .ok (kept, size)

/-- The extraction finds nothing, and the function returns. -/
def NothingExtracted (self : WebCrawlerIngestion φ σ) (result : CrawlResult) : Prop :=
  match self.extraction with
  | .texts => ∃ text content, result.extractedContent = some text ∧
      loads self.env.json text = .ok content ∧ isFalse self.env content = true
  | .schema => filled result.extractedContent = none
  | .knowledgeGraph => False

/-- The extraction comes to its end: the texts are none, or the content of a schema has members. -/
def Extracted (self : WebCrawlerIngestion φ σ) (result : CrawlResult) : Prop :=
  match self.extraction with
  | .texts => ∃ text content, result.extractedContent = some text ∧
      loads self.env.json text = .ok content ∧ isFalse self.env content = false ∧
        self.env.validateTexts content = .ok []
  | .schema => ∃ text content items, filled result.extractedContent = some text ∧
      loads self.env.json text = .ok content ∧ iterate content = .ok items
  | .knowledgeGraph => True

/-- Links to PDFs are looked for on the page, and it has a link to something else. -/
def HasPageLink (self : WebCrawlerIngestion φ σ) (result : CrawlResult) : Prop :=
  self.pdf.isSome ∧ ∃ links, result.links = some links ∧
    ∃ link, some link ∈ links.internal ++ links.external ∧ link ≠ [] ∧ ¬ pyText ".pdf" <:+ link

/-- A result that is recorded as it should be: if the extraction finds nothing, the loop over the
links must fail; if it comes to its end, that loop must not, and the size must be right. -/
def RecordedWell (self : WebCrawlerIngestion φ σ) (result : CrawlResult) : Prop :=
  ∀ kept size, Reaches self result kept size →
    (NothingExtracted self result → HasPageLink self result) ∧
      (Extracted self result → ¬ HasPageLink self result ∧ size = .bytes kept.byteLength)

section Steps

variable {self : WebCrawlerIngestion φ σ} {result : CrawlResult}

theorem Reaches.unique {kept kept' : PyStr} {size size' : DocumentSize}
    (h : Reaches self result kept size) (h' : Reaches self result kept' size') :
    kept = kept' ∧ size = size' := by
  obtain ⟨markdown, hfit, hsliced⟩ := h.content
  obtain ⟨markdown', hfit', hsliced'⟩ := h'.content
  cases hfit.symm.trans hfit'
  cases hsliced.symm.trans hsliced'
  exact ⟨rfl, rfl⟩

theorem not_extracted_of_nothing (h : NothingExtracted self result) :
    ¬ Extracted self result := by
  unfold NothingExtracted at h
  unfold Extracted
  cases hconfig : self.extraction with
  | texts =>
    rw [hconfig] at h
    rintro ⟨text', content', htext', hloads', hfalse', -⟩
    obtain ⟨text, content, htext, hloads, hfalse⟩ := h
    cases htext.symm.trans htext'
    cases hloads.symm.trans hloads'
    cases hfalse.symm.trans hfalse'
  | schema =>
    rw [hconfig] at h
    rintro ⟨text, -, -, htext, -⟩
    cases h.symm.trans htext
  | knowledgeGraph =>
    rw [hconfig] at h
    exact h.elim

/-- The loop over the links of a page collects nothing, and raises at a link to another page. -/
theorem linkLoop_eq (pdfLinks : List PyStr) (links : List (Option PyStr)) :
    ∃ ended, linkLoop .html pdfLinks links = (ended, pdfLinks) ∧
      (ended = .ok () ↔
        ¬ ∃ link, some link ∈ links ∧ link ≠ [] ∧ ¬ pyText ".pdf" <:+ link) := by
  induction links with
  | nil => exact ⟨.ok (), rfl, iff_of_true rfl (by simp)⟩
  | cons href links ih =>
    have hskip (hhref : ∀ link, href = some link → link ≠ [] → pyText ".pdf" <:+ link) :
        (∃ link, some link ∈ href :: links ∧ link ≠ [] ∧ ¬ pyText ".pdf" <:+ link) ↔
          ∃ link, some link ∈ links ∧ link ≠ [] ∧ ¬ pyText ".pdf" <:+ link := by
      constructor
      · rintro ⟨link, hmem, hne, hpdf⟩
        rcases List.mem_cons.mp hmem with hlink | hmem
        · exact absurd (hhref link hlink.symm hne) hpdf
        · exact ⟨link, hmem, hne, hpdf⟩
      · rintro ⟨link, hmem, hlink⟩
        exact ⟨link, List.mem_cons_of_mem _ hmem, hlink⟩
    rw [linkLoop]
    cases hfilled : filled href with
    | none =>
      rw [hskip fun link hlink hne => by
        rw [hlink] at hfilled
        exact absurd hne (by simpa [filled] using hfilled)]
      exact ih
    | some link =>
      obtain ⟨rfl, hne⟩ := Option.filter_eq_some_iff.mp hfilled
      by_cases hpdf : pyText ".pdf" <:+ link
      · rw [hskip fun link' hlink _ => Option.some.inj hlink ▸ hpdf]
        dsimp only
        rw [if_neg (by simp [hpdf])]
        exact ih
      · dsimp only
        rw [if_pos (.inr ⟨rfl, hpdf⟩)]
        refine ⟨_, rfl, iff_of_false nofun (not_not.mpr ⟨link, List.mem_cons_self, ?_, hpdf⟩)⟩
        exact of_decide_eq_true hne

theorem addChunk_error (env : CrawlEnv φ σ) (text : PyStr) : ∃ e, addChunk env text = .error e := by
  unfold addChunk
  cases env.analyze text with
  | error e => exact ⟨e, rfl⟩
  | ok _ => exact ⟨_, rfl⟩

/-- A chunk is never made, so that only no texts are gone through. -/
theorem forM_addChunk_ok_iff (env : CrawlEnv φ σ) (texts : List PyStr) :
    texts.forM (addChunk env) = .ok () ↔ texts = [] := by
  cases texts with
  | nil => exact iff_of_true rfl rfl
  | cons text texts =>
    obtain ⟨e, he⟩ := addChunk_error env text
    refine iff_of_false ?_ (List.cons_ne_nil _ _)
    show ¬ (addChunk env text >>= fun _ => texts.forM (addChunk env)) = .ok ()
    rw [he]
    nofun

theorem extract_of_extracted (h : Extracted self result) (markdown : PyStr)
    (metadata : CrawlResultMetadata σ) : ∃ metadata',
      extract self result markdown metadata = (.on, metadata') ∧
        metadata'.success = metadata.success ∧ metadata'.docType = metadata.docType := by
  unfold Extracted at h
  unfold extract
  cases hconfig : self.extraction with
  | texts =>
    rw [hconfig] at h
    obtain ⟨text, content, htext, hloads, hfalse, hvalid⟩ := h
    refine ⟨metadata, ?_, rfl, rfl⟩
    simp only [extractTexts, htext, hloads, hfalse, hvalid]
    rfl
  | schema =>
    rw [hconfig] at h
    obtain ⟨text, content, items, htext, hloads, hitems⟩ := h
    simp only [extractSchema, htext, hloads, hitems]
    exact ⟨_, rfl, rfl, rfl⟩
  | knowledgeGraph => exact ⟨_, rfl, rfl, rfl⟩

theorem extract_of_nothing (h : NothingExtracted self result) (markdown : PyStr)
    (metadata : CrawlResultMetadata σ) :
    extract self result markdown metadata = (.returned, metadata) := by
  unfold NothingExtracted at h
  unfold extract
  cases hconfig : self.extraction with
  | texts =>
    rw [hconfig] at h
    obtain ⟨text, content, htext, hloads, hfalse⟩ := h
    simp only [extractTexts, htext, hloads, hfalse]
    rfl
  | schema =>
    rw [hconfig] at h
    dsimp only
    rw [extractSchema, h]
  | knowledgeGraph =>
    rw [hconfig] at h
    exact h.elim

/-- Otherwise the extraction raises, or returns for a failure. -/
theorem extract_of_neither (hnothing : ¬ NothingExtracted self result)
    (hextracted : ¬ Extracted self result) (markdown : PyStr)
    (metadata : CrawlResultMetadata σ) : ∃ metadata', metadata'.docType = metadata.docType ∧
      ((∃ e, extract self result markdown metadata = (.raised e, metadata')) ∨
        extract self result markdown metadata = (.returned, metadata') ∧
          metadata'.success = false) := by
  unfold NothingExtracted at hnothing
  unfold Extracted at hextracted
  unfold extract
  cases hconfig : self.extraction with
  | texts =>
    rw [hconfig] at hnothing hextracted
    refine ⟨metadata, rfl, .inl ?_⟩
    dsimp only
    unfold extractTexts
    cases htext : result.extractedContent with
    | none => exact ⟨_, rfl⟩
    | some text =>
      dsimp only
      cases hloads : loads self.env.json text with
      | error e => exact ⟨_, rfl⟩
      | ok content =>
        dsimp only
        cases hfalse : isFalse self.env content with
        | true => exact absurd ⟨text, content, htext, hloads, hfalse⟩ hnothing
        | false =>
          rw [if_neg Bool.false_ne_true]
          cases hvalid : self.env.validateTexts content with
          | error e => exact ⟨e, rfl⟩
          | ok texts =>
            cases hchunks : texts.forM (addChunk self.env) with
            | error e =>
              refine ⟨e, ?_⟩
              have hbind : ((Except.ok texts : Except PyStr (List PyStr)) >>= fun texts =>
                texts.forM (addChunk self.env)) = .error e := hchunks
              rw [hbind]
            | ok _ =>
              have hnil := (forM_addChunk_ok_iff self.env texts).mp hchunks
              rw [hnil] at hvalid
              exact absurd ⟨text, content, htext, hloads, hfalse, hvalid⟩ hextracted
  | schema =>
    rw [hconfig] at hnothing hextracted
    dsimp only
    unfold extractSchema
    cases htext : filled result.extractedContent with
    | none => exact absurd htext hnothing
    | some text =>
      dsimp only
      cases hloads : loads self.env.json text with
      | error e =>
        refine ⟨{ metadata with
          success := false
          error := some (pyText "Could not process extract the schema")
          extractedContent := some [] }, rfl, .inr ⟨rfl, rfl⟩⟩
      | ok content =>
        dsimp only
        cases hitems : iterate content with
        | error e =>
          exact ⟨{ metadata with extractedContent := some [] }, rfl, .inl ⟨e, rfl⟩⟩
        | ok items => exact absurd ⟨text, content, items, htext, hloads, hitems⟩ hextracted
  | knowledgeGraph =>
    rw [hconfig] at hextracted
    exact absurd trivial hextracted

/-- Whether a result is a success, and the documents that are recorded for it. -/
inductive Outcome (self : WebCrawlerIngestion φ σ) (result : CrawlResult) :
    Bool → List RecordedDocument → Prop
  | recorded {kept : PyStr} {size : DocumentSize} {description : PyStr} {success : Bool}
      (reaches : Reaches self result kept size) (extracted : Extracted self result)
      (links : success = true ↔ ¬ HasPageLink self result) :
      Outcome self result success [⟨size, description, .html⟩]
  | nothing {kept : PyStr} {size : DocumentSize} {success : Bool}
      (reaches : Reaches self result kept size) (nothing : NothingExtracted self result)
      (links : success = true ↔ ¬ HasPageLink self result) : Outcome self result success []
  | failed (failed : ∀ kept size, Reaches self result kept size →
      ¬ NothingExtracted self result ∧ ¬ Extracted self result) : Outcome self result false []

/-- What `process_content` does with a result. -/
theorem processContent_cases (hsuccess : result.success = true)
    (hurl : ∃ parts, self.env.urlparse result.url = .ok parts) (hmeta : result.metadata.isSome)
    (metadata : CrawlResultMetadata σ) (hdoctype : metadata.docType = .html)
    (documents : List RecordedDocument) :
    ∃ ended metadata' recorded, processContent self result metadata documents .html =
        (ended, metadata', documents ++ recorded) ∧ metadata'.docType = .html ∧
      ((∃ kept size, Reaches self result kept size ∧ ended = .ok () ∧
          metadata'.success = metadata.success ∧
          (Extracted self result ∧ (∃ description, recorded = [⟨size, description, .html⟩]) ∨
            NothingExtracted self result ∧ recorded = [])) ∨
        (∀ kept size, Reaches self result kept size →
          ¬ NothingExtracted self result ∧ ¬ Extracted self result) ∧ recorded = [] ∧
          (ended = .ok () → metadata'.success = false)) := by
  unfold processContent
  cases hfit : result.fitMarkdown with
  | none =>
    refine ⟨.ok (), { metadata with
        success := false
        error := some
          ((filled result.errorMessage).getD (pyText "No markdown content extracted")) },
      [], by rw [List.append_nil], hdoctype, .inr ⟨fun kept size h => ?_, rfl, fun _ => rfl⟩⟩
    obtain ⟨markdown, hsome, -⟩ := h.content
    cases hfit.symm.trans hsome
  | some markdown =>
    dsimp only
    cases hsliced : sliced self markdown .html with
    | error e =>
      refine ⟨.error e, metadata, [], by rw [List.append_nil], hdoctype,
        .inr ⟨fun kept size h => ?_, rfl, nofun⟩⟩
      obtain ⟨markdown', hsome, hok⟩ := h.content
      cases hfit.symm.trans hsome
      cases hsliced.symm.trans hok
    | ok cut =>
      obtain ⟨kept, size⟩ := cut
      have hreaches : Reaches self result kept size :=
        ⟨hsuccess, hurl, hmeta, markdown, hfit, hsliced⟩
      dsimp only
      by_cases hnothing : NothingExtracted self result
      · rw [extract_of_nothing hnothing]
        exact ⟨.ok (), metadata, [], by rw [List.append_nil], hdoctype,
          .inl ⟨kept, size, hreaches, rfl, rfl, .inr ⟨hnothing, rfl⟩⟩⟩
      · by_cases hextracted : Extracted self result
        · obtain ⟨metadata', hextract, hkept, htype⟩ :=
            extract_of_extracted hextracted kept metadata
          rw [hextract]
          exact ⟨.ok (), metadata', _, rfl, htype.trans hdoctype,
            .inl ⟨kept, size, hreaches, rfl, hkept, .inl ⟨hextracted, _, rfl⟩⟩⟩
        · obtain ⟨metadata', htype, ⟨e, hextract⟩ | ⟨hextract, hfailed⟩⟩ :=
            extract_of_neither hnothing hextracted kept metadata
          · rw [hextract]
            exact ⟨.error e, metadata', [], by rw [List.append_nil], htype.trans hdoctype,
              .inr ⟨fun _ _ _ => ⟨hnothing, hextracted⟩, rfl, nofun⟩⟩
          · rw [hextract]
            exact ⟨.ok (), metadata', [], by rw [List.append_nil], htype.trans hdoctype,
              .inr ⟨fun _ _ _ => ⟨hnothing, hextracted⟩, rfl, fun _ => hfailed⟩⟩

/-- The links of a page after its content. -/
theorem linkStage_eq (self : WebCrawlerIngestion φ σ) (result : CrawlResult)
    (metadata : CrawlResultMetadata σ) (documents : List RecordedDocument)
    (pdfLinks : List PyStr) : ∃ ended,
    (match (some pdfLinks : Option (List PyStr)), self.pdf, result.links with
      | some pdfLinks, some _, some links =>
        let (ended, pdfLinks) := linkLoop .html pdfLinks (links.internal ++ links.external)
        (ended, metadata, ({ documents, pdfLinks := some pdfLinks } : CrawlState))
      | _, _, _ => (.ok (), metadata, { documents, pdfLinks := some pdfLinks })) =
      (ended, metadata, ⟨documents, some pdfLinks⟩) ∧
    (ended = .ok () ↔ ¬ HasPageLink self result) := by
  cases hpdf : self.pdf with
  | none =>
    refine ⟨.ok (), rfl, iff_of_true rfl fun h => ?_⟩
    rw [HasPageLink, hpdf] at h
    exact Bool.false_ne_true h.1
  | some maximum =>
    cases hlinks : result.links with
    | none =>
      refine ⟨.ok (), rfl, iff_of_true rfl ?_⟩
      rintro ⟨-, links, hsome, -⟩
      cases hlinks.symm.trans hsome
    | some links =>
      obtain ⟨ended, hloop, hended⟩ := linkLoop_eq pdfLinks (links.internal ++ links.external)
      refine ⟨ended, by dsimp only; rw [hloop], hended.trans (not_congr ⟨fun h => ?_, fun h => ?_⟩)⟩
      · exact ⟨by rw [hpdf]; rfl, links, hlinks, h⟩
      · obtain ⟨-, links', hsome, h⟩ := h
        cases hlinks.symm.trans hsome
        exact h

/-- What the body of the `try` does with the result of a page. -/
theorem tryResult_outcome (self : WebCrawlerIngestion φ σ) (hsuccess : result.success = true)
    (metadata : CrawlResultMetadata σ) (hgood : metadata.success = true)
    (hdoctype : metadata.docType = .html) (documents : List RecordedDocument)
    (pdfLinks : List PyStr) :
    ∃ ended metadata' recorded,
      tryResult self result .html metadata ⟨documents, some pdfLinks⟩ =
        (ended, metadata', ⟨documents ++ recorded, some pdfLinks⟩) ∧
      metadata'.docType = .html ∧
      ∀ success : Bool, (success = true ↔ ended = .ok () ∧ metadata'.success = true) →
        Outcome self result success recorded := by
  have hfailed {ended : Except PyStr Unit} {metadata' : CrawlResultMetadata σ}
      (hreach : ∀ kept size, Reaches self result kept size →
        ¬ NothingExtracted self result ∧ ¬ Extracted self result)
      (hend : ended = .ok () → metadata'.success = false) (success : Bool)
      (hiff : success = true ↔ ended = .ok () ∧ metadata'.success = true) :
      Outcome self result success [] := by
    have hfalse : success = false := by
      refine Bool.eq_false_iff.mpr fun htrue => ?_
      obtain ⟨hok, hgood⟩ := hiff.mp htrue
      exact Bool.false_ne_true ((hend hok).symm.trans hgood)
    rw [hfalse]
    exact .failed hreach
  unfold tryResult
  cases hurl : self.env.urlparse result.url with
  | error e =>
    refine ⟨.error e, metadata, [], by rw [List.append_nil], hdoctype,
      hfailed (fun _ _ h => ?_) nofun⟩
    obtain ⟨parts, hparts⟩ := h.url
    cases hurl.symm.trans hparts
  | ok parts =>
    dsimp only
    cases hmeta : result.metadata with
    | none =>
      refine ⟨.error (pyText "'NoneType' object has no attribute 'get'"), metadata, [],
        by rw [List.append_nil], hdoctype, hfailed (fun _ _ h => ?_) nofun⟩
      have hsome := h.metadata
      rw [hmeta] at hsome
      exact (Bool.false_ne_true hsome).elim
    | some page =>
      dsimp only
      obtain ⟨ended, metadata', recorded, hcontent, htype, hcases⟩ :=
        processContent_cases hsuccess ⟨parts, hurl⟩ (by rw [hmeta]; rfl)
          { metadata with
            title := page.title.getD (some result.url)
            description := page.description.getD (some [])
            source := some (parts.1 ++ pyText "://" ++ parts.2) } hdoctype documents
      rw [hcontent]
      obtain ⟨kept, size, hreaches, rfl, hkept, hrecorded⟩ | ⟨hreach, rfl, hend⟩ := hcases
      · dsimp only
        obtain ⟨ended, hstage, hended⟩ :=
          linkStage_eq self result metadata' (documents ++ recorded) pdfLinks
        refine ⟨ended, metadata', recorded, hstage, htype, fun success hiff => ?_⟩
        have hlinks : success = true ↔ ¬ HasPageLink self result :=
          hiff.trans ((and_iff_left (hkept.trans hgood)).trans hended)
        obtain ⟨hextracted, description, rfl⟩ | ⟨hnothing, rfl⟩ := hrecorded
        · exact .recorded hreaches hextracted hlinks
        · exact .nothing hreaches hnothing hlinks
      · cases ended with
        | error e => exact ⟨.error e, metadata', [], rfl, htype, hfailed hreach nofun⟩
        | ok u =>
          dsimp only
          obtain ⟨ended, hstage, -⟩ :=
            linkStage_eq self result metadata' (documents ++ []) pdfLinks
          exact ⟨ended, metadata', [], hstage, htype, hfailed hreach fun _ => hend rfl⟩

/-- What `process_result` does with the result of a page. -/
theorem processResult_outcome (self : WebCrawlerIngestion φ σ) (result : CrawlResult)
    (documents : List RecordedDocument) (pdfLinks : List PyStr) :
    ∃ metadata recorded, processResult self result .html ⟨documents, some pdfLinks⟩ =
        (metadata, ⟨documents ++ recorded, some pdfLinks⟩) ∧
      metadata.docType = .html ∧ Outcome self result metadata.success recorded := by
  unfold processResult
  dsimp only
  cases hsuccess : result.success with
  | false =>
    refine ⟨_, [], by rw [if_pos rfl, List.append_nil], rfl, .failed fun _ _ h => ?_⟩
    exact (Bool.false_ne_true (hsuccess.symm.trans h.success)).elim
  | true =>
    rw [if_neg (by simp)]
    obtain ⟨ended, metadata, recorded, htry, htype, houtcome⟩ :=
      tryResult_outcome self hsuccess {
        url := result.url, title := none, source := none, description := none
        success := true, error := none, extractedContent := none, markdownContent := none
        docType := .html } rfl rfl documents pdfLinks
    rw [htry]
    cases ended with
    | error e => exact ⟨_, recorded, rfl, htype, houtcome false (by simp)⟩
    | ok u => exact ⟨metadata, recorded, rfl, htype, houtcome _ (by simp)⟩

/-- Whether a step is recorded right is a matter of its result alone. -/
theorem stepRight_iff {step : CrawlStep σ} {recorded : List RecordedDocument}
    (hdoctype : step.doctype = .html) (htype : step.yielded.docType = .html)
    (hafter : step.after = step.before ++ recorded) {success : Bool}
    (hsuccess : step.yielded.success = success)
    (houtcome : Outcome self step.result success recorded) :
    StepRight self step ↔ RecordedWell self step.result := by
  unfold StepRight
  rw [hafter, hsuccess]
  cases houtcome with
  | @recorded kept size description _ reaches extracted links =>
    have hwell : RecordedWell self step.result ↔
        ¬ HasPageLink self step.result ∧ size = .bytes kept.byteLength := by
      refine ⟨fun h => (h kept size reaches).2 extracted, fun h kept' size' reaches' => ?_⟩
      obtain ⟨rfl, rfl⟩ := reaches.unique reaches'
      exact ⟨fun hnothing => absurd extracted (not_extracted_of_nothing hnothing), fun _ => h⟩
    rw [hwell]
    split_ifs with hyielded
    · rw [and_iff_right (links.mp hyielded)]
      constructor
      · rintro ⟨entry, hentry, hright⟩
        obtain rfl := List.singleton_injective (List.append_cancel_left hentry)
        obtain ⟨markdown, kept', size', hfit, hsliced, hsize⟩ := hright.size
        rw [hdoctype] at hsliced
        obtain ⟨rfl, rfl⟩ := reaches.unique
          ⟨reaches.success, reaches.url, reaches.metadata, markdown, hfit, hsliced⟩
        exact hsize
      · rintro rfl
        obtain ⟨markdown, hfit, hsliced⟩ := reaches.content
        exact ⟨_, rfl, htype.symm, markdown, kept, _, hfit, by rw [hdoctype]; exact hsliced, rfl⟩
    · refine iff_of_false (fun h => ?_) fun h => hyielded (links.mpr h.1)
      exact List.cons_ne_nil _ _ (List.append_right_eq_self.mp h)
  | @nothing kept size _ reaches nothing links =>
    have hwell : RecordedWell self step.result ↔ HasPageLink self step.result := by
      refine ⟨fun h => (h kept size reaches).1 nothing, fun h kept' size' _ => ⟨fun _ => h, ?_⟩⟩
      exact fun hextracted => absurd hextracted (not_extracted_of_nothing nothing)
    rw [hwell, List.append_nil]
    split_ifs with hyielded
    · refine iff_of_false ?_ (links.mp hyielded)
      rintro ⟨entry, hentry, -⟩
      exact List.cons_ne_nil _ _ (List.self_eq_append_right.mp hentry)
    · exact iff_of_true rfl (not_not.mp fun h => hyielded (links.mpr h))
  | failed failed =>
    rw [if_neg Bool.false_ne_true, List.append_nil]
    exact iff_of_true rfl fun kept size reaches =>
      ⟨fun h => absurd h (failed kept size reaches).1,
        fun h => absurd h (failed kept size reaches).2⟩

/-- The loop over the pages collects no link, and its steps go through the results. -/
theorem resultLoop_html (self : WebCrawlerIngestion φ σ) (results : List CrawlResult)
    (documents : List RecordedDocument) (pdfLinks : List PyStr) :
    ∃ steps documents', resultLoop self .html ⟨documents, some pdfLinks⟩ results =
        (steps, ⟨documents', some pdfLinks⟩) ∧
      steps.map (·.result) = results ∧
      ∀ step ∈ steps, step.doctype = .html ∧
        (StepRight self step ↔ RecordedWell self step.result) := by
  induction results generalizing documents with
  | nil => exact ⟨[], documents, rfl, rfl, List.forall_mem_nil _⟩
  | cons result results ih =>
    obtain ⟨metadata, recorded, hprocess, htype, houtcome⟩ :=
      processResult_outcome self result documents pdfLinks
    obtain ⟨steps, documents', hloop, hmap, hsteps⟩ := ih (documents ++ recorded)
    refine ⟨⟨result, .html, metadata, documents, documents ++ recorded⟩ :: steps, documents', ?_,
      by rw [List.map_cons, hmap], List.forall_mem_cons.mpr ⟨⟨rfl, ?_⟩, hsteps⟩⟩
    · rw [resultLoop, hprocess]
      dsimp only
      rw [hloop]
    · exact stepRight_iff rfl htype rfl rfl houtcome

/-- A crawl ends with its pages. -/
theorem crawl_eq (self : WebCrawlerIngestion φ σ) (order : SetOrder)
    (arunPages arunDocuments : List PyStr → List CrawlResult) (urls : List PyStr) :
    ∃ steps documents,
    crawl self order arunPages arunDocuments urls = ⟨steps, documents, []⟩ ∧
      resultLoop self .html ⟨[], some []⟩ (arunPages urls) = (steps, ⟨documents, some []⟩) ∧
      steps.map (·.result) = arunPages urls ∧
      ∀ step ∈ steps, step.doctype = .html ∧
        (StepRight self step ↔ RecordedWell self step.result) := by
  obtain ⟨steps, documents, hloop, hmap, hsteps⟩ :=
    resultLoop_html self (arunPages urls) [] []
  refine ⟨steps, documents, ?_, hloop, hmap, hsteps⟩
  unfold crawl
  rw [hloop]

/-- What the loop records, if its steps are right: an entry for each success, in their order. -/
theorem resultLoop_documents (doctype : DocType) (results : List CrawlResult) (s : CrawlState)
    (hright : ∀ step ∈ (resultLoop self doctype s results).1, StepRight self step) :
    ∃ entries, (resultLoop self doctype s results).2.documents = s.documents ++ entries ∧
      List.Forall₂ (IsEntry self)
        ((resultLoop self doctype s results).1.filter (·.yielded.success)) entries := by
  induction results generalizing s with
  | nil => exact ⟨[], (List.append_nil _).symm, .nil⟩
  | cons result results ih =>
    rw [resultLoop] at hright ⊢
    obtain ⟨hstep, hrest⟩ := List.forall_mem_cons.mp hright
    obtain ⟨entries, hdocuments, hentries⟩ := ih _ hrest
    dsimp only at hdocuments hentries ⊢
    unfold StepRight at hstep
    rw [hdocuments, List.filter_cons]
    split_ifs at hstep ⊢ with hsuccess
    · obtain ⟨entry, hafter, hentry⟩ := hstep
      have hdoc : (processResult self result doctype s).2.documents = s.documents ++ [entry] :=
        hafter
      exact ⟨entry :: entries, by rw [hdoc, List.append_assoc]; rfl, .cons hentry hentries⟩
    · have hdoc : (processResult self result doctype s).2.documents = s.documents := hstep
      exact ⟨entries, by rw [hdoc], hentries⟩

/-- The documents of a crawl that is right are the entries of its successes. -/
theorem CrawlRight.documents {order : SetOrder}
    {arunPages arunDocuments : List PyStr → List CrawlResult} {urls : List PyStr}
    (h : CrawlRight self (crawl self order arunPages arunDocuments urls)) :
    List.Forall₂ (IsEntry self)
      ((crawl self order arunPages arunDocuments urls).steps.filter (·.yielded.success))
      (crawl self order arunPages arunDocuments urls).documents := by
  obtain ⟨steps, documents, hcrawl, hloop, -, -⟩ :=
    crawl_eq self order arunPages arunDocuments urls
  have hsteps := h.steps
  rw [hcrawl] at hsteps ⊢
  obtain ⟨entries, hdocuments, hentries⟩ :=
    resultLoop_documents .html (arunPages urls) ⟨[], some []⟩ (by rw [hloop]; exact hsteps)
  rw [hloop] at hdocuments hentries
  obtain rfl : documents = entries := hdocuments
  exact hentries

/-- **A crawl is right exactly if each page is recorded well, and no links to PDFs are bought or
there are none.** -/
theorem crawlRight_iff (order : SetOrder) (arunPages arunDocuments : List PyStr → List CrawlResult)
    (urls : List PyStr) :
    CrawlRight self (crawl self order arunPages arunDocuments urls) ↔
      (∀ result ∈ arunPages urls, RecordedWell self result) ∧
      (self.pdf.getD 0 = 0 ∨
        ∀ result ∈ arunPages urls, result.success = true → result.linksToPdf = []) := by
  obtain ⟨steps, documents, hcrawl, -, hmap, hsteps⟩ :=
    crawl_eq self order arunPages arunDocuments urls
  rw [hcrawl, ← hmap]
  have hfound : (⟨steps, documents, []⟩ : CrawlRun σ).found = [] ↔
      ∀ result ∈ steps.map (·.result), result.success = true → result.linksToPdf = [] := by
    unfold CrawlRun.found
    rw [List.flatMap_eq_nil_iff, List.forall_mem_map]
    refine ⟨fun h step hstep hgood => ?_, fun h step hstep => ?_⟩
    · exact h step (List.mem_filter.mpr ⟨hstep, decide_eq_true ⟨(hsteps step hstep).1, hgood⟩⟩)
    · obtain ⟨hstep, hgood⟩ := List.mem_filter.mp hstep
      exact h step hstep (of_decide_eq_true hgood).2
  rw [← hfound, List.forall_mem_map]
  constructor
  · intro h
    refine ⟨fun step hstep => (hsteps step hstep).2.mp (h.steps step hstep), ?_⟩
    rcases Nat.min_eq_zero_iff.mp h.followed.symm with hmax | hlength
    · exact .inl hmax
    · exact .inr ((List.dedup_eq_nil _).mp (List.length_eq_zero_iff.mp hlength))
  · rintro ⟨hwell, hlinks⟩
    refine ⟨fun step hstep => (hsteps step hstep).2.mpr (hwell step hstep), List.nodup_nil,
      List.forall_mem_nil _, (Nat.min_eq_zero_iff.mpr ?_).symm⟩
    refine hlinks.imp_right fun hnone => ?_
    rw [hnone]
    rfl

end Steps

/-! ## Crawls that are not -/

/-- A crawl of pages, with one link to a document bought. -/
def exampleCrawler (extraction : ExtractionConfig) : WebCrawlerIngestion Unit Unit where
  env := {
    json := ⟨fun _ => (), 0, 1000⟩
    isZero _ := false
    jsonError _ := []
    unicodeError _ := []
    urlparse url := .ok (pyText "https", url)
    validateTexts _ := .ok []
    analyze _ := .ok ()
    validateItem _ := none }
  extraction
  pdf := some 1
  maxMarkdownDef := Dict.empty.set "max_html_mb" 2

/-- A page with one link. -/
def examplePage (link : PyStr) : CrawlResult where
  url := pyText "a.org"
  success := true
  errorMessage := none
  metadata := some ⟨none, none⟩
  markdown := .generated (some (pyText "A\n\nBC"))
  extractedContent := none
  links := some ⟨[some link], []⟩

/-- What is recorded in a step that is right, by its length. -/
theorem StepRight.length_after {self : WebCrawlerIngestion φ σ} {step : CrawlStep σ}
    (h : StepRight self step) :
    step.after.length = step.before.length + step.yielded.success.toNat := by
  unfold StepRight at h
  split_ifs at h with hsuccess
  · obtain ⟨entry, hafter, -⟩ := h
    rw [hafter, hsuccess, List.length_append]
    rfl
  · rw [h, Bool.eq_false_iff.mpr hsuccess]
    rfl

/-- A page with a link to another one is recorded and then fails. Without content for its schema it
is a success that is not recorded. A link to a PDF is not followed. -/
theorem not_crawlRight_examples :
    ¬ CrawlRight (exampleCrawler .knowledgeGraph) (crawl (exampleCrawler .knowledgeGraph)
      ⟨id, fun l => .refl l⟩ (fun _ => [examplePage (pyText "b.org")]) (fun _ => [])
      [pyText "a.org"]) ∧
    ¬ CrawlRight (exampleCrawler .schema) (crawl (exampleCrawler .schema)
      ⟨id, fun l => .refl l⟩ (fun _ => [examplePage (pyText "b.pdf")]) (fun _ => [])
      [pyText "a.org"]) ∧
    ¬ CrawlRight (exampleCrawler .knowledgeGraph) (crawl (exampleCrawler .knowledgeGraph)
      ⟨id, fun l => .refl l⟩ (fun _ => [examplePage (pyText "b.pdf")]) (fun _ => [])
      [pyText "a.org"]) := by
  refine ⟨fun h => ?_, fun h => ?_, fun h => ?_⟩
  · have hlength := fun step hstep => (h.steps step hstep).length_after
    revert hlength
    decide +kernel
  · have hlength := fun step hstep => (h.steps step hstep).length_after
    revert hlength
    decide +kernel
  · have hfollowed := h.followed
    revert hfollowed
    decide +kernel

end Functions

end Crawl

end Notifyr
