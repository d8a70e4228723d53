import Mathlib.Data.List.DropRight
import Notifyr.Cost.Settlement
import Notifyr.Runtime.PyStr
import Notifyr.Theory.Longest

/-!
# Slicing markdown

`WebCrawlerIngestion.slice_markdown` (`app/ingestion/crawl_ingestion.py`), which cuts a document
to the size that was paid for.

- `sentences`: `re.split(r'(?<=[.!?])\s+', para)`.
- `sliceMarkdown`: the function. It gives a text, or a text and a size.
- `Cut`: a beginning of a document that ends with a paragraph or with a sentence.
- `SliceRight`: the longest cut within the limit, with its size.
- `sliceRight_iff`: the documents that are sliced so.
-/

namespace Notifyr

open Theory

/-! ## Sizes -/

/-- The number of bytes of a code point in UTF-8. -/
def codeBytes (n : ℕ) : ℕ :=
  if n ≤ 0x7f then 1 else if n ≤ 0x7ff then 2 else if n ≤ 0xffff then 3 else 4

/-- `len(s.encode('utf-8'))`. -/
abbrev PyStr.byteLength (s : PyStr) : ℕ := weightSum codeBytes s

theorem codeBytes_pos (n : ℕ) : 0 < codeBytes n := by
  unfold codeBytes
  split_ifs <;> decide

theorem byteLength_append (s t : PyStr) : (s ++ t).byteLength = s.byteLength + t.byteLength :=
  weightSum_append codeBytes s t

theorem byteLength_le_of_prefix {s t : PyStr} (h : s <+: t) : s.byteLength ≤ t.byteLength :=
  weightSum_le_of_prefix codeBytes h

theorem byteLength_lt_of_prefix {s t : PyStr} (h : s <+: t) (hne : s ≠ t) :
    s.byteLength < t.byteLength := weightSum_lt_of_prefix codeBytes_pos h hne

theorem byteLength_eq_zero_iff {s : PyStr} : s.byteLength = 0 ↔ s = [] :=
  weightSum_eq_zero_iff codeBytes_pos

/-- The size of what `encode` gives. -/
theorem length_encode {s : PyStr} {b : Bytes} (h : s.encode = some b) :
    b.length = s.byteLength := by
  obtain ⟨t, ht, rfl⟩ := Option.map_eq_some_iff.mp h
  obtain rfl := pyText_of_text? ht
  rw [encodeUtf8_eq]
  unfold PyStr.byteLength pyText
  induction t.toList with
  | nil => rfl
  | cons c cs ih =>
    have hc : c.utf8Size = codeBytes (ord c) := by
      unfold Char.utf8Size codeBytes
      simp only [UInt32.le_iff_toNat_le]
      rfl
    rw [List.flatMap_cons, List.length_append, String.length_utf8EncodeChar, ih, hc, List.map_cons,
      weightSum_cons]

/-! ## The function -/

/-- `' '`. -/
def spaceCode : ℕ := ord ' '

/-- `'\n\n'`. -/
def blankLine : PyStr := [ord '\n', ord '\n']

theorem blankLine_ne_nil : blankLine ≠ [] := List.cons_ne_nil _ _

/-- The whitespace of `\s`. -/
def isSpaceCode (n : ℕ) : Bool :=
  n ∈ [9, 10, 11, 12, 13, 28, 29, 30, 31, 32, 133, 160, 5760, 8192, 8193, 8194, 8195, 8196, 8197,
    8198, 8199, 8200, 8201, 8202, 8232, 8233, 8239, 8287, 12288]

/-- `[.!?]`. -/
def endsSentence (n : ℕ) : Bool := n ∈ [ord '.', ord '!', ord '?']

/-- The sentences from where one has been read up to `read`, or from inside a gap between two. -/
def sentencesFrom : Bool → PyStr → PyStr → List PyStr
  | _, read, [] => [read]
  | true, read, c :: rest =>
    if isSpaceCode c then sentencesFrom true read rest else sentencesFrom false (read ++ [c]) rest
  | false, read, c :: rest =>
    if isSpaceCode c && read.getLast?.any endsSentence then
      read :: sentencesFrom true [] rest
    else sentencesFrom false (read ++ [c]) rest

-- its equations are derived here, once for all the proofs below
example (gap : Bool) (read : PyStr) : sentencesFrom gap read [] = [read] := by rw [sentencesFrom]

/-- `re.split(r'(?<=[.!?])\s+', para)`. -/
def sentences (para : PyStr) : List PyStr := sentencesFrom false [] para

/-- What `slice_markdown` returns: a text, or a text and its size. -/
inductive Sliced
  | text (s : PyStr)
  | pair (s : PyStr) (size : ℕ)
  deriving DecidableEq

/-- The variables of the loops. -/
structure SliceLoop where
  resultParts : List PyStr
  currentSize : ℕ

/-- The loop over the sentences of a paragraph. -/
def sentenceLoop (maxBytes : ℤ) : SliceLoop → List PyStr → SliceLoop
  | s, [] => s
  | s, sentence :: rest =>
    -- a space after each sentence but the last one
    let spaceBytes := if rest = [] then 0 else 1
    let totalSentBytes := sentence.byteLength + spaceBytes
    if ((s.currentSize + totalSentBytes : ℕ) : ℤ) ≤ maxBytes then
      sentenceLoop maxBytes
        ⟨s.resultParts ++ [sentence], s.currentSize + totalSentBytes⟩ rest
    else s

/-- The loop over the paragraphs, from the one with this index. -/
def paragraphLoop (maxBytes : ℤ) : ℕ → SliceLoop → List PyStr → SliceLoop
  | _, s, [] => s
  | paraIdx, s, para :: paras =>
    let separatorBytes := if 0 < paraIdx then blankLine.byteLength else 0
    let totalParaBytes := para.byteLength + separatorBytes
    if maxBytes < ((s.currentSize + totalParaBytes : ℕ) : ℤ) then
      sentenceLoop maxBytes s (sentences para)
    else
      paragraphLoop maxBytes (paraIdx + 1)
        ⟨s.resultParts ++ [para], s.currentSize + totalParaBytes⟩ paras

/-- One round of the last loop: `result.rsplit(' ', 1)[0]`, or `result[:-1]` without a space. -/
def shorten (result : PyStr) : PyStr :=
  if spaceCode ∈ result then (result.rdropWhile (· ≠ spaceCode)).dropLast else result.dropLast

/-- The last loop. -/
def trimLoop (maxBytes : ℤ) : ℕ → PyStr → PyStr
  | 0, result => result
  | rounds + 1, result =>
    if maxBytes < result.byteLength ∧ result ≠ [] then trimLoop maxBytes rounds (shorten result)
    else result

/-- Each round takes a letter away, so that there are no more rounds than letters. -/
def trim (maxBytes : ℤ) (result : PyStr) : PyStr := trimLoop maxBytes result.length result

/-- The decoder that leaves out what is no text, with the number of bytes to pass over. -/
def decodeIgnoreFrom : ℕ → Bytes → PyStr
  | _, [] => []
  | skip + 1, _ :: rest => decodeIgnoreFrom skip rest
  | 0, b :: rest =>
    match (b :: rest).toByteArray.utf8DecodeChar? 0 with
    | some c => ord c :: decodeIgnoreFrom (c.utf8Size - 1) rest
    | none => decodeIgnoreFrom 0 rest

/-- `b.decode('utf-8', errors='ignore')`. -/
def decodeIgnore (b : Bytes) : PyStr := decodeIgnoreFrom 0 b

/-- `b[:n]`. -/
def sliceTo (b : Bytes) (n : ℤ) : Bytes :=
  if 0 ≤ n then b.take n.toNat else b.take (b.length + n).toNat

/-- `self.max_markdown_def.get('max_html_mb' if doctype == 'html' else 'max_pdf_mb', 10)`. -/
def maxBytesOf (maxMarkdownDef : Dict String ℤ) (doctype : DocType) : ℤ :=
  (maxMarkdownDef.get? (if doctype = .html then "max_html_mb" else "max_pdf_mb")).getD 10

/-- `UnicodeEncodeError`. -/
structure UnicodeEncodeError where
  deriving DecidableEq

/-- `slice_markdown`. Only the first `encode` can raise: it meets all that the others do. -/
def sliceMarkdown (maxMarkdownDef : Dict String ℤ) (markdown : PyStr) (doctype : DocType) :
    Except UnicodeEncodeError Sliced :=
  let maxBytes := maxBytesOf maxMarkdownDef doctype
  match markdown.encode with
  | none => .error ⟨⟩
  | some markdownBytes =>
    if (markdownBytes.length : ℤ) ≤ maxBytes then .ok (.text markdown)
    else
      let s := paragraphLoop maxBytes 0 ⟨[], 0⟩ (PyStr.split blankLine markdown)
      if s.resultParts = [] then .ok (.text (decodeIgnore (sliceTo markdownBytes maxBytes)))
      else .ok (.pair (trim maxBytes (PyStr.join blankLine s.resultParts)) s.currentSize)

/-! ## Sentences -/

/-- A sentence ends here. -/
structure SentenceEnd (head tail : PyStr) : Prop where
  ends : head.getLast?.any endsSentence = true
  gap : tail.head?.any isSpaceCode = true

theorem sentencesFrom_ne_nil (gap : Bool) (read p : PyStr) : sentencesFrom gap read p ≠ [] := by
  induction p generalizing gap read with
  | nil =>
    rw [sentencesFrom]
    exact List.cons_ne_nil _ _
  | cons c rest ih =>
    cases gap with
    | true =>
      rw [sentencesFrom]
      split
      · exact ih true read
      · exact ih false _
    | false =>
      rw [sentencesFrom]
      split
      · exact List.cons_ne_nil _ _
      · exact ih false _

theorem prefix_first_sentence {read p s : PyStr} {r : List PyStr}
    (h : sentencesFrom false read p = s :: r) : read <+: s := by
  induction p generalizing read with
  | nil =>
    rw [sentencesFrom] at h
    cases h
    exact List.prefix_rfl
  | cons c rest ih =>
    rw [sentencesFrom] at h
    split at h
    · cases h
      exact List.prefix_rfl
    · exact (List.prefix_append read [c]).trans (ih h)

/-- The only sentence is all of the text. -/
theorem eq_of_sentencesFrom_singleton {read p s : PyStr} (h : sentencesFrom false read p = [s]) :
    s = read ++ p := by
  induction p generalizing read with
  | nil =>
    rw [sentencesFrom] at h
    cases h
    exact (List.append_nil _).symm
  | cons c rest ih =>
    rw [sentencesFrom] at h
    split at h
    · exact absurd (List.cons.inj h).2 (sentencesFrom_ne_nil _ _ _)
    · rw [ih h, List.append_assoc, List.singleton_append]

/-- A sentence that is not the last one ends like one. -/
theorem sentencesFrom_ends {gap : Bool} {read p s : PyStr} {r : List PyStr}
    (h : sentencesFrom gap read p = s :: r) (hr : r ≠ []) :
    s.getLast?.any endsSentence = true := by
  induction p generalizing gap read with
  | nil =>
    rw [sentencesFrom] at h
    exact absurd (List.cons.inj h).2.symm hr
  | cons c rest ih =>
    cases gap with
    | true =>
      rw [sentencesFrom] at h
      split at h
      · exact ih h
      · exact ih h
    | false =>
      rw [sentencesFrom] at h
      split at h
      · rename_i hend
        obtain ⟨rfl, -⟩ := List.cons.inj h
        exact (Bool.and_eq_true_iff.mp hend).2
      · exact ih h

/-- Where the first sentence ends and what follows the gap. -/
theorem first_sentence_end {read p s : PyStr} {r : List PyStr}
    (h : sentencesFrom false read p = s :: r) (hr : r ≠ []) :
    ∃ tail, read ++ p = s ++ tail ∧ SentenceEnd s tail ∧ ∃ p', r = sentencesFrom true [] p' := by
  induction p generalizing read with
  | nil =>
    rw [sentencesFrom] at h
    exact absurd (List.cons.inj h).2.symm hr
  | cons c rest ih =>
    rw [sentencesFrom] at h
    split at h
    · rename_i hend
      obtain ⟨rfl, rfl⟩ := List.cons.inj h
      obtain ⟨hspace, hends⟩ := Bool.and_eq_true_iff.mp hend
      exact ⟨c :: rest, rfl, ⟨hends, hspace⟩, rest, rfl⟩
    · obtain ⟨tail, htail, hend, hrest⟩ := ih h
      rw [List.append_assoc, List.singleton_append] at htail
      exact ⟨tail, htail, hend, hrest⟩

/-- No sentence ends before the first one. -/
theorem prefix_before_sentence_end {read p s head tail : PyStr} {r : List PyStr}
    (h : sentencesFrom false read p = s :: r) (hp : read ++ p = head ++ tail)
    (hread : read <+: head) (hend : SentenceEnd head tail) : s <+: head ∧ r ≠ [] := by
  obtain ⟨x, rfl⟩ := hread
  rw [List.append_assoc, List.append_cancel_left_eq] at hp
  induction p generalizing read x with
  | nil =>
    obtain ⟨-, rfl⟩ := List.append_eq_nil_iff.mp hp.symm
    cases hend.gap
  | cons c rest ih =>
    rw [sentencesFrom] at h
    split at h
    · obtain ⟨rfl, rfl⟩ := List.cons.inj h
      exact ⟨List.prefix_append _ _, sentencesFrom_ne_nil _ _ _⟩
    · rename_i hnot
      cases x with
      | nil =>
        rw [List.nil_append] at hp
        rw [List.append_nil, ← hp] at hend
        exact absurd (Bool.and_eq_true_iff.mpr ⟨hend.gap, hend.ends⟩) hnot
      | cons d x =>
        obtain ⟨rfl, hrest⟩ := List.cons.inj hp
        have happend : read ++ c :: x = read ++ [c] ++ x := List.append_cons read c x
        rw [happend] at hend ⊢
        exact ih h x hrest hend

/-- A sentence after a gap does not begin with a space. -/
theorem head_sentencesFrom_gap {p s : PyStr} {r : List PyStr}
    (h : sentencesFrom true [] p = s :: r) {c : ℕ} (hc : s.head? = some c) :
    isSpaceCode c = false := by
  induction p with
  | nil =>
    rw [sentencesFrom] at h
    cases h
    cases hc
  | cons d rest ih =>
    rw [sentencesFrom] at h
    split at h
    · exact ih h
    · rename_i hd
      obtain ⟨t, rfl⟩ := prefix_first_sentence h
      cases hc
      exact Bool.eq_false_iff.mpr hd

/-! ## Joined paragraphs -/

section Joined

variable (sep : PyStr)

theorem join_append_of_ne_nil {ps qs : List PyStr} (hp : ps ≠ []) (hq : qs ≠ []) :
    PyStr.join sep (ps ++ qs) = PyStr.join sep ps ++ (sep ++ PyStr.join sep qs) := by
  unfold PyStr.join
  induction ps with
  | nil => exact absurd rfl hp
  | cons p ps ih =>
    cases ps with
    | nil =>
      rw [List.singleton_append, List.intercalate_cons_of_ne_nil hq, List.intercalate_singleton,
        List.append_assoc]
    | cons p' ps =>
      have hne : p' :: ps ++ qs ≠ [] := List.cons_ne_nil _ _
      rw [List.cons_append, List.intercalate_cons_of_ne_nil hne, ih (List.cons_ne_nil _ _),
        List.intercalate_cons_cons, List.append_assoc, List.append_assoc, List.append_assoc]

theorem join_snoc {ps : List PyStr} (hp : ps ≠ []) (p : PyStr) :
    PyStr.join sep (ps ++ [p]) = PyStr.join sep ps ++ (sep ++ p) := by
  have hjoin : PyStr.join sep [p] = p := List.intercalate_singleton
  rw [join_append_of_ne_nil sep hp (List.cons_ne_nil p []), hjoin]

theorem prefix_join (ps qs : List PyStr) : PyStr.join sep ps <+: PyStr.join sep (ps ++ qs) := by
  by_cases hp : ps = []
  · rw [hp]
    exact List.nil_prefix
  · by_cases hq : qs = []
    · rw [hq, List.append_nil]
    · rw [join_append_of_ne_nil sep hp hq]
      exact List.prefix_append _ _

theorem join_prefix_snoc {ps : List PyStr} {p q : PyStr} (h : p <+: q) :
    PyStr.join sep (ps ++ [p]) <+: PyStr.join sep (ps ++ [q]) := by
  by_cases hp : ps = []
  · rw [hp]
    unfold PyStr.join
    rwa [List.nil_append, List.nil_append, List.intercalate_singleton, List.intercalate_singleton]
  · rwa [join_snoc sep hp, join_snoc sep hp, List.prefix_append_right_inj,
      List.prefix_append_right_inj]

/-- One part more. -/
theorem byteLength_join_snoc (ps : List PyStr) (p : PyStr) :
    (PyStr.join sep (ps ++ [p])).byteLength = (PyStr.join sep ps).byteLength +
      (p.byteLength + if 0 < ps.length then sep.byteLength else 0) := by
  by_cases hp : ps = []
  · rw [hp]
    unfold PyStr.join
    rw [List.nil_append, List.intercalate_singleton]
    simp
  · rw [join_snoc sep hp, if_pos (List.length_pos_iff.mpr hp), byteLength_append,
      byteLength_append]
    omega

end Joined

/-! ## The loops -/

section Loops

variable {maxBytes : ℤ}

/-- What the loop over sentences counts for the first ones, when others follow. -/
def countedBytes : List PyStr → List PyStr → ℕ
  | [], _ => 0
  | sentence :: taken, rest =>
    sentence.byteLength + (if taken ++ rest = [] then 0 else 1) + countedBytes taken rest

/-- The loop over sentences takes the first ones, as long as they fit. -/
theorem sentenceLoop_spec (maxBytes : ℤ) (s : SliceLoop) (ss : List PyStr) :
    ∃ taken rest, ss = taken ++ rest ∧
      sentenceLoop maxBytes s ss =
        ⟨s.resultParts ++ taken, s.currentSize + countedBytes taken rest⟩ ∧
      (taken ≠ [] → ((s.currentSize + countedBytes taken rest : ℕ) : ℤ) ≤ maxBytes) ∧
      ∀ next rest', rest = next :: rest' → maxBytes < ((s.currentSize + countedBytes taken rest +
        (next.byteLength + if rest' = [] then 0 else 1) : ℕ) : ℤ) := by
  induction ss generalizing s with
  | nil =>
    refine ⟨[], [], rfl, ?_, fun h => absurd rfl h, fun _ _ h => by cases h⟩
    rw [sentenceLoop, List.append_nil]
    rfl
  | cons sentence ss ih =>
    by_cases hfits : ((s.currentSize + (sentence.byteLength + if ss = [] then 0 else 1) : ℕ) : ℤ)
        ≤ maxBytes
    · obtain ⟨taken, rest, rfl, hloop, hle, hnext⟩ := ih ⟨s.resultParts ++ [sentence],
        s.currentSize + (sentence.byteLength + if ss = [] then 0 else 1)⟩
      have hcounted : s.currentSize + countedBytes (sentence :: taken) rest =
          s.currentSize + (sentence.byteLength + if taken ++ rest = [] then 0 else 1) +
            countedBytes taken rest := by
        rw [countedBytes]
        omega
      refine ⟨sentence :: taken, rest, rfl, ?_, fun _ => ?_, ?_⟩
      · rw [sentenceLoop, if_pos hfits, hloop, hcounted, List.append_assoc]
        rfl
      · rw [hcounted]
        by_cases htaken : taken = []
        · rw [htaken] at hfits ⊢
          exact hfits
        · exact hle htaken
      · rw [hcounted]
        exact hnext
    · refine ⟨[], sentence :: ss, rfl, ?_, fun h => absurd rfl h, ?_⟩
      · rw [sentenceLoop, if_neg hfits, List.append_nil]
        rfl
      · rintro next rest' h
        cases h
        exact Int.not_le.mp hfits

/-- The loop over paragraphs takes those that fit, and leaves the next one to the other loop. -/
theorem paragraphLoop_eq {before mid after : List PyStr} {para : PyStr}
    (hfits : before ++ mid = [] ∨
      ((PyStr.join blankLine (before ++ mid)).byteLength : ℤ) ≤ maxBytes)
    (hnot : maxBytes < ((PyStr.join blankLine (before ++ mid ++ [para])).byteLength : ℤ)) :
    paragraphLoop maxBytes before.length ⟨before, (PyStr.join blankLine before).byteLength⟩
      (mid ++ para :: after) =
      sentenceLoop maxBytes ⟨before ++ mid, (PyStr.join blankLine (before ++ mid)).byteLength⟩
        (sentences para) := by
  induction mid generalizing before with
  | nil =>
    rw [List.append_nil] at hnot ⊢
    rw [byteLength_join_snoc] at hnot
    rw [List.nil_append, paragraphLoop]
    exact if_pos hnot
  | cons m mid ih =>
    have hcons : before ++ m :: mid = before ++ [m] ++ mid := List.append_cons before m mid
    rw [hcons] at hfits hnot ⊢
    have hle := hfits.resolve_left (by simp)
    have hm : ¬ maxBytes < ((PyStr.join blankLine (before ++ [m])).byteLength : ℤ) := by
      have hpre := byteLength_le_of_prefix (prefix_join blankLine (before ++ [m]) mid)
      omega
    have hnext := ih (.inr hle) hnot
    rw [List.length_append, List.length_singleton] at hnext
    rw [List.cons_append, paragraphLoop]
    rw [byteLength_join_snoc] at hm hnext
    dsimp only
    rw [if_neg hm]
    exact hnext

/-- The first paragraph that does not fit. -/
theorem exists_first_unfit {ps : List PyStr} (hne : ps ≠ [])
    (h : maxBytes < ((PyStr.join blankLine ps).byteLength : ℤ)) :
    ∃ before para after, ps = before ++ para :: after ∧
      (before = [] ∨ ((PyStr.join blankLine before).byteLength : ℤ) ≤ maxBytes) ∧
      maxBytes < ((PyStr.join blankLine (before ++ [para])).byteLength : ℤ) := by
  induction ps using List.reverseRecOn with
  | nil => exact absurd rfl hne
  | append_singleton qs p ih =>
    by_cases hq : qs = [] ∨ ((PyStr.join blankLine qs).byteLength : ℤ) ≤ maxBytes
    · exact ⟨qs, p, [], rfl, hq, h⟩
    · obtain ⟨hqs, hlt⟩ := not_or.mp hq
      obtain ⟨before, para, after, rfl, hbefore, hpara⟩ := ih hqs (Int.not_le.mp hlt)
      exact ⟨before, para, after ++ [p], by rw [List.append_assoc, List.cons_append], hbefore,
        hpara⟩

end Loops

/-! ## Trimming -/

section Trimming

variable {maxBytes : ℤ}

theorem prefix_shorten (result : PyStr) : shorten result <+: result := by
  unfold shorten
  split
  · exact (List.dropLast_prefix _).trans (List.rdropWhile_prefix _ result)
  · exact List.dropLast_prefix _

theorem prefix_trimLoop (maxBytes : ℤ) (rounds : ℕ) (result : PyStr) :
    trimLoop maxBytes rounds result <+: result := by
  induction rounds generalizing result with
  | zero => exact List.prefix_rfl
  | succ rounds ih =>
    rw [trimLoop]
    split
    · exact (ih _).trans (prefix_shorten result)
    · exact List.prefix_rfl

theorem prefix_trim (maxBytes : ℤ) (result : PyStr) : trim maxBytes result <+: result :=
  prefix_trimLoop _ _ result

theorem trim_of_fits {result : PyStr} (h : (result.byteLength : ℤ) ≤ maxBytes) :
    trim maxBytes result = result := by
  unfold trim
  cases result.length with
  | zero => rfl
  | succ n =>
    rw [trimLoop]
    exact if_neg fun hlong => absurd hlong.1 (Int.not_lt.mpr h)

/-- Everything after the last space goes in one round. -/
theorem shorten_append {v rest : PyStr} (hv : spaceCode ∈ v) (hrest : spaceCode ∉ rest) :
    shorten (v ++ rest) = shorten v := by
  have hdrop : (v ++ rest).rdropWhile (· ≠ spaceCode) = v.rdropWhile (· ≠ spaceCode) := by
    induction rest using List.reverseRecOn with
    | nil => rw [List.append_nil]
    | append_singleton rest c ih =>
      have hc : c ≠ spaceCode :=
        fun hc => hrest (hc ▸ List.mem_append_right rest List.mem_cons_self)
      rw [← List.append_assoc, List.rdropWhile_concat, if_pos (decide_eq_true hc)]
      exact ih fun hmem => hrest (List.mem_append_left _ hmem)
  unfold shorten
  rw [if_pos (List.mem_append_left rest hv), if_pos hv, hdrop]

theorem length_shorten_lt {v : PyStr} (hv : v ≠ []) : (shorten v).length < v.length := by
  have hpos := List.length_pos_iff.mpr hv
  unfold shorten
  split
  · have hle := (List.rdropWhile_prefix (· ≠ spaceCode) v).length_le
    rw [List.length_dropLast]
    omega
  · rw [List.length_dropLast]
    omega

/-- Without a space, letters are taken away until the rest fits. -/
theorem longest_trimLoop {rounds : ℕ} {result : PyStr} (hrounds : result.length ≤ rounds)
    (hspace : spaceCode ∉ result) (hmax : 0 ≤ maxBytes) :
    Longest codeBytes (· <+: result) maxBytes (trimLoop maxBytes rounds result) := by
  induction rounds generalizing result with
  | zero =>
    rw [List.length_eq_zero_iff.mp (Nat.le_zero.mp hrounds)]
    exact ⟨List.prefix_rfl, hmax, fun l hl hpre hne => absurd (List.prefix_nil.mp hl).symm hne⟩
  | succ rounds ih =>
    rw [trimLoop]
    split
    · rename_i hlong
      obtain ⟨init, c, rfl⟩ : ∃ init c, result = init ++ [c] :=
        ⟨_, _, (List.dropLast_append_getLast hlong.2).symm⟩
      have hshort : shorten (init ++ [c]) = init := by
        unfold shorten
        rw [if_neg hspace, List.dropLast_concat]
      rw [hshort]
      rw [List.length_append, List.length_singleton] at hrounds
      have hinit : Longest codeBytes (· <+: init) maxBytes (trimLoop maxBytes rounds init) :=
        ih (by omega) fun hmem => hspace (List.mem_append_left _ hmem)
      refine ⟨hinit.candidate.trans (List.prefix_append _ _), hinit.fits, fun l hl hpre hne => ?_⟩
      rcases List.prefix_concat_iff.mp hl with rfl | hl
      · exact hlong.1
      · exact hinit.next l hl hpre hne
    · rename_i hlong
      have hfits : (result.byteLength : ℤ) ≤ maxBytes := by
        by_cases hnil : result = []
        · rw [hnil]
          exact hmax
        · exact Int.not_lt.mp fun hlt => hlong ⟨hlt, hnil⟩
      refine ⟨List.prefix_rfl, hfits, fun l hl hpre hne => ?_⟩
      exact absurd (hpre.eq_of_length_le hl.length_le) hne

/-- When trimming leaves just what stands before a line break. -/
theorem trim_eq_iff {v rest : PyStr} (hrest : spaceCode ∉ rest)
    (hfits : (v.byteLength : ℤ) ≤ maxBytes) :
    trim maxBytes (v ++ ord '\n' :: rest) = v ↔
      spaceCode ∉ v ∧ maxBytes = (v.byteLength : ℤ) := by
  have hmax : 0 ≤ maxBytes := le_trans (Int.natCast_nonneg _) hfits
  have htail : spaceCode ∉ ord '\n' :: rest :=
    fun hmem => (List.mem_cons.mp hmem).elim (by decide) hrest
  constructor
  · intro htrim
    have hlong : maxBytes < ((v ++ ord '\n' :: rest).byteLength : ℤ) := by
      by_contra hle
      rw [trim_of_fits (Int.not_lt.mp hle)] at htrim
      exact absurd (List.append_right_eq_self.mp htrim) (List.cons_ne_nil _ _)
    have hspace : spaceCode ∉ v := by
      intro hv
      unfold trim at htrim
      rw [List.length_append, List.length_cons, ← Nat.add_assoc, trimLoop,
        if_pos ⟨hlong, by simp⟩, shorten_append hv htail] at htrim
      have hle := (prefix_trimLoop maxBytes (v.length + rest.length) (shorten v)).length_le
      rw [htrim] at hle
      exact absurd (length_shorten_lt (List.ne_nil_of_mem hv)) (Nat.not_lt.mpr hle)
    refine ⟨hspace, le_antisymm ?_ hfits⟩
    have hlongest : Longest codeBytes (· <+: v ++ ord '\n' :: rest) maxBytes
        (trim maxBytes (v ++ ord '\n' :: rest)) :=
      longest_trimLoop le_rfl (fun hmem => (List.mem_append.mp hmem).elim hspace htail) hmax
    rw [htrim] at hlongest
    have hnext := hlongest.next (v ++ [ord '\n']) (by simp) (List.prefix_append _ _) (by simp)
    rw [weightSum_append] at hnext
    have hone : weightSum codeBytes [ord '\n'] = 1 := rfl
    show maxBytes ≤ (weightSum codeBytes v : ℤ)
    omega
  · rintro ⟨hspace, rfl⟩
    refine Longest.eq (P := (· <+: v ++ ord '\n' :: rest)) (fun l hl => hl)
      (longest_trimLoop le_rfl (fun hmem => (List.mem_append.mp hmem).elim hspace htail) hmax) ?_
    exact longest_of_weightSum_eq codeBytes_pos (List.prefix_append _ _)

end Trimming

/-! ## Cuts -/

/-- A beginning of a document that ends with one of its paragraphs, or with a sentence of one. -/
inductive Cut (markdown : PyStr) : PyStr → Prop
  | paragraph {before after : List PyStr}
      (split : PyStr.split blankLine markdown = before ++ after) :
      Cut markdown (PyStr.join blankLine before)
  | sentence {before after : List PyStr} {para head tail : PyStr}
      (split : PyStr.split blankLine markdown = before ++ para :: after)
      (para_eq : para = head ++ tail) (ends : SentenceEnd head tail) :
      Cut markdown (PyStr.join blankLine (before ++ [head]))

/-- A text and a size that are what a document should be sliced to: the whole if it fits, and
else the longest cut that does. -/
structure SliceRight (maxBytes : ℤ) (markdown text : PyStr) (size : ℕ) : Prop where
  whole : (markdown.byteLength : ℤ) ≤ maxBytes → text = markdown
  longest : Longest codeBytes (Cut markdown) maxBytes text
  size : size = text.byteLength

/-- The first paragraph that does not fit. -/
structure FirstUnfit (maxBytes : ℤ) (markdown : PyStr) (before : List PyStr) (para : PyStr)
    (after : List PyStr) : Prop where
  split : PyStr.split blankLine markdown = before ++ para :: after
  fits : before = [] ∨ ((PyStr.join blankLine before).byteLength : ℤ) ≤ maxBytes
  unfit : maxBytes < ((PyStr.join blankLine (before ++ [para])).byteLength : ℤ)

/-- A cut is a beginning of the document. -/
theorem cut_prefix {markdown text : PyStr} (h : Cut markdown text) : text <+: markdown := by
  have hjoin := join_split blankLine_ne_nil markdown
  cases h with
  | @paragraph before after hsplit =>
    rw [hsplit] at hjoin
    exact hjoin ▸ prefix_join blankLine before after
  | @sentence before after para head tail hsplit hpara hend =>
    rw [hsplit, List.append_cons] at hjoin
    have hhead : head <+: para := hpara ▸ List.prefix_append head tail
    exact (join_prefix_snoc blankLine hhead).trans (hjoin ▸ prefix_join blankLine _ after)

section Cuts

variable {maxBytes : ℤ} {markdown text para : PyStr} {before after : List PyStr}

theorem exists_firstUnfit (h : maxBytes < (markdown.byteLength : ℤ)) :
    ∃ before para after, FirstUnfit maxBytes markdown before para after := by
  rw [← join_split blankLine_ne_nil markdown] at h
  obtain ⟨before, para, after, hsplit, hfits, hunfit⟩ := exists_first_unfit (split_ne_nil _ _) h
  exact ⟨before, para, after, hsplit, hfits, hunfit⟩

namespace FirstUnfit

/-- With the first paragraph that does not fit, the document does not either. -/
theorem lt_byteLength (h : FirstUnfit maxBytes markdown before para after) :
    maxBytes < (markdown.byteLength : ℤ) := by
  have hpre := byteLength_le_of_prefix (prefix_join blankLine (before ++ [para]) after)
  rw [List.append_assoc, List.singleton_append, ← h.split,
    join_split blankLine_ne_nil] at hpre
  have hunfit := h.unfit
  omega

/-- A cut that fits ends before the paragraph that does not, or inside it. -/
theorem cut_cases (h : FirstUnfit maxBytes markdown before para after)
    (hcut : Cut markdown text) (hfits : (text.byteLength : ℤ) ≤ maxBytes) :
    text <+: PyStr.join blankLine before ∨ ∃ head tail, para = head ++ tail ∧
      SentenceEnd head tail ∧ text = PyStr.join blankLine (before ++ [head]) := by
  have hlong : ∀ rest, ¬ ((PyStr.join blankLine (before ++ para :: rest)).byteLength : ℤ)
      ≤ maxBytes := by
    intro rest hle
    have hpre := byteLength_le_of_prefix (prefix_join blankLine (before ++ [para]) rest)
    rw [List.append_assoc, List.singleton_append] at hpre
    have hunfit := h.unfit
    omega
  cases hcut with
  | @paragraph before' after' hsplit =>
    rcases List.append_eq_append_iff.mp (hsplit.symm.trans h.split) with
      ⟨mid, rfl, -⟩ | ⟨mid, rfl, hmid⟩
    · exact .inl (prefix_join _ _ _)
    · cases mid with
      | nil =>
        rw [List.append_nil]
        exact .inl List.prefix_rfl
      | cons p mid =>
        obtain ⟨rfl, -⟩ := List.cons.inj hmid
        exact absurd hfits (hlong mid)
  | @sentence before' after' para' head tail hsplit hpara hend =>
    rcases List.append_eq_append_iff.mp (hsplit.symm.trans h.split) with
      ⟨mid, hbefore, hmid⟩ | ⟨mid, rfl, hmid⟩
    · cases mid with
      | nil =>
        obtain ⟨rfl, -⟩ := List.cons.inj hmid
        rw [List.append_nil] at hbefore
        exact .inr ⟨head, tail, hpara, hend, by rw [hbefore]⟩
      | cons p mid =>
        obtain ⟨rfl, -⟩ := List.cons.inj hmid
        refine .inl ((join_prefix_snoc blankLine (hpara ▸ List.prefix_append head tail)).trans ?_)
        have hpre := prefix_join blankLine (before' ++ [para']) mid
        rwa [List.append_assoc, List.singleton_append, ← hbefore] at hpre
    · cases mid with
      | nil =>
        obtain ⟨rfl, -⟩ := List.cons.inj hmid
        rw [List.append_nil]
        exact .inr ⟨head, tail, hpara, hend, rfl⟩
      | cons p mid =>
        obtain ⟨rfl, -⟩ := List.cons.inj hmid
        rw [List.append_assoc, List.cons_append] at hfits
        exact absurd hfits (hlong (mid ++ [head]))

/-- To be the longest cut, one has to be compared with those inside the paragraph only. -/
theorem longest (h : FirstUnfit maxBytes markdown before para after) (hcut : Cut markdown text)
    (hfits : (text.byteLength : ℤ) ≤ maxBytes) (hbefore : PyStr.join blankLine before <+: text)
    (hnext : ∀ head tail, para = head ++ tail → SentenceEnd head tail →
      text <+: PyStr.join blankLine (before ++ [head]) →
      text ≠ PyStr.join blankLine (before ++ [head]) →
      maxBytes < ((PyStr.join blankLine (before ++ [head])).byteLength : ℤ)) :
    Longest codeBytes (Cut markdown) maxBytes text := by
  refine ⟨hcut, hfits, fun text' hcut' hpre hne => ?_⟩
  by_contra hlt
  rcases h.cut_cases hcut' (Int.not_lt.mp hlt) with hle | ⟨head, tail, hpara, hend, rfl⟩
  · exact hne (hpre.eq_of_length_le (hle.trans hbefore).length_le)
  · exact hlt (hnext head tail hpara hend hpre hne)

theorem not_infix (h : FirstUnfit maxBytes markdown before para after) :
    ¬ blankLine <:+: para :=
  not_infix_of_mem_split (s := markdown) blankLine_ne_nil
    (h.split ▸ List.mem_append_right before List.mem_cons_self)

end FirstUnfit

/-! ## When it is sliced right -/

/-- The sentences of the paragraph that does not fit, after a text that does: the first one does
not fit either, or by chance the trimming repairs the text: the paragraph is empty, or has two
sentences, the second one of one byte; there is no space in what is kept, and it is as large as the
limit. -/
inductive StopsWell (maxBytes : ℤ) (kept : PyStr) : List PyStr → Prop
  | unfit {sentence : PyStr} {rest : List PyStr}
      (unfit : maxBytes < ((kept.byteLength +
        (sentence.byteLength + if rest = [] then 0 else 1) : ℕ) : ℤ)) :
      StopsWell maxBytes kept (sentence :: rest)
  | empty (space : spaceCode ∉ kept) (limit : maxBytes = kept.byteLength) :
      StopsWell maxBytes kept [[]]
  | short {sentence last : PyStr} (last_length : last.byteLength = 1)
      (space : spaceCode ∉ kept ++ sentence)
      (limit : maxBytes = ((kept.byteLength + 2 + sentence.byteLength : ℕ) : ℤ)) :
      StopsWell maxBytes kept [sentence, last]

/-- The documents that are sliced right: they do not fit, the first paragraph does, and the
paragraph that does not is left well. -/
def SlicedWell (maxBytes : ℤ) (markdown : PyStr) : Prop :=
  markdown.encode.isSome ∧ ∃ before para after, FirstUnfit maxBytes markdown before para after ∧
    before ≠ [] ∧ StopsWell maxBytes (PyStr.join blankLine before) (sentences para)

variable {maxMarkdownDef : Dict String ℤ} {doctype : DocType}

/-- What is left of the function for a document that does not fit. -/
theorem sliceMarkdown_of_firstUnfit
    (h : FirstUnfit (maxBytesOf maxMarkdownDef doctype) markdown before para after) {b : Bytes}
    (hencode : markdown.encode = some b) {parts : List PyStr} {size : ℕ}
    (hloop : sentenceLoop (maxBytesOf maxMarkdownDef doctype)
      ⟨before, (PyStr.join blankLine before).byteLength⟩ (sentences para) = ⟨parts, size⟩) :
    sliceMarkdown maxMarkdownDef markdown doctype =
      if parts = [] then .ok (.text (decodeIgnore (sliceTo b (maxBytesOf maxMarkdownDef doctype))))
      else .ok (.pair (trim (maxBytesOf maxMarkdownDef doctype) (PyStr.join blankLine parts))
        size) := by
  have hlong := h.lt_byteLength
  rw [← length_encode hencode] at hlong
  have hparagraphs : paragraphLoop (maxBytesOf maxMarkdownDef doctype) 0 ⟨[], 0⟩
      (before ++ para :: after) = ⟨parts, size⟩ :=
    (@paragraphLoop_eq _ [] before after para h.fits h.unfit).trans hloop
  unfold sliceMarkdown
  rw [hencode]
  dsimp only
  rw [if_neg (Int.not_le.mpr hlong), h.split, hparagraphs]

theorem prefix_of_prefix_join {parts : List PyStr} {head : PyStr} (hparts : parts ≠ [])
    (h : PyStr.join blankLine (before ++ [head]) <+: PyStr.join blankLine (before ++ parts)) :
    head <+: PyStr.join blankLine parts := by
  by_cases hbefore : before = []
  · have hhead : PyStr.join blankLine [head] = head := List.intercalate_singleton
    rwa [hbefore, List.nil_append, List.nil_append, hhead] at h
  · rwa [join_snoc _ hbefore, join_append_of_ne_nil _ hbefore hparts,
      List.prefix_append_right_inj, List.prefix_append_right_inj] at h

/-- A cut inside a paragraph that is also a beginning of its sentences, joined by blank lines, is
the first sentence. -/
theorem eq_first_sentence {head tail sentence : PyStr} {taken rest : List PyStr}
    (hblank : ¬ blankLine <:+: para) (hsentences : sentences para = sentence :: taken ++ rest)
    (hpara : para = head ++ tail) (hend : SentenceEnd head tail)
    (hpre : head <+: PyStr.join blankLine (sentence :: taken)) :
    head = sentence ∧ taken ++ rest ≠ [] := by
  obtain ⟨⟨x, rfl⟩, hmore⟩ := prefix_before_sentence_end hsentences
    (by rw [List.nil_append, hpara]) List.nil_prefix hend
  refine ⟨?_, hmore⟩
  suffices hx : x = [] by rw [hx, List.append_nil]
  cases taken with
  | nil =>
    have hlen := hpre.length_le
    unfold PyStr.join at hlen
    rw [List.intercalate_singleton, List.length_append] at hlen
    exact List.length_eq_zero_iff.mp (by omega)
  | cons next taken =>
    unfold PyStr.join at hpre
    rw [List.intercalate_cons_cons, List.append_assoc, List.prefix_append_right_inj] at hpre
    -- what comes after the sentence is a blank line, which the paragraph does not have
    match x, hpre with
    | [], _ => rfl
    | [c], hpre =>
      obtain ⟨rfl, -⟩ := List.cons_prefix_cons.mp hpre
      have hlast := hend.ends
      rw [List.getLast?_concat] at hlast
      cases hlast
    | c :: d :: x, hpre =>
      obtain ⟨rfl, hpre'⟩ := List.cons_prefix_cons.mp hpre
      obtain ⟨rfl, -⟩ := List.cons_prefix_cons.mp hpre'
      refine absurd ⟨sentence, x ++ tail, ?_⟩ hblank
      rw [hpara]
      simp [blankLine]

/-- The second sentence has no space in it when it is of one byte. -/
theorem space_not_mem_of_short {last p : PyStr} {r : List PyStr}
    (h : last :: r = sentencesFrom true [] p) (hlast : last.byteLength = 1) : spaceCode ∉ last := by
  cases last with
  | nil => cases hlast
  | cons c last =>
    have hc := head_sentencesFrom_gap h.symm rfl
    have hpos := codeBytes_pos c
    have hone : codeBytes c + PyStr.byteLength last = 1 := hlast
    have hnil : last = [] := byteLength_eq_zero_iff.mp (by omega)
    rw [hnil, List.mem_singleton]
    rintro rfl
    cases hc

/-- When trimming takes just the last of some paragraphs away. -/
theorem trim_snoc_eq_iff {maxBytes : ℤ} {ps : List PyStr} {p : PyStr} (hps : ps ≠ [])
    (hp : spaceCode ∉ p) (hkept : ((PyStr.join blankLine ps).byteLength : ℤ) ≤ maxBytes) :
    trim maxBytes (PyStr.join blankLine (ps ++ [p])) = PyStr.join blankLine ps ↔
      spaceCode ∉ PyStr.join blankLine ps ∧
        maxBytes = (PyStr.join blankLine ps).byteLength := by
  have hjoin : PyStr.join blankLine (ps ++ [p]) =
      PyStr.join blankLine ps ++ ord '\n' :: (ord '\n' :: p) := join_snoc blankLine hps p
  rw [hjoin]
  exact trim_eq_iff (fun hmem => (List.mem_cons.mp hmem).elim (by decide) hp) hkept

/-- Blank lines have no space in them. -/
theorem space_mem_join_snoc {ps : List PyStr} (hps : ps ≠ []) (p : PyStr) :
    spaceCode ∈ PyStr.join blankLine (ps ++ [p]) ↔ spaceCode ∈ PyStr.join blankLine ps ++ p := by
  have hblank : spaceCode ∉ blankLine := by decide
  rw [join_snoc blankLine hps, List.mem_append, List.mem_append, List.mem_append,
    or_iff_right hblank]

theorem countedBytes_singleton {sentence : PyStr} {taken rest : List PyStr}
    (h : taken ++ rest = []) : countedBytes (sentence :: taken) rest = sentence.byteLength := by
  obtain ⟨rfl, rfl⟩ := List.append_eq_nil_iff.mp h
  rfl

/-- If a document is sliced right, its first paragraph that does not fit is left well. -/
theorem stopsWell_of_right {maxBytes : ℤ}
    (h : FirstUnfit maxBytes markdown before para after) {taken rest : List PyStr} {size : ℕ}
    (hsentences : sentences para = taken ++ rest)
    (hsize : size = (PyStr.join blankLine before).byteLength + countedBytes taken rest)
    (hfits : taken ≠ [] → (size : ℤ) ≤ maxBytes)
    (hnext : ∀ next rest', rest = next :: rest' →
      maxBytes < ((size + (next.byteLength + if rest' = [] then 0 else 1) : ℕ) : ℤ))
    (hparts : before ++ taken ≠ [])
    (hright : SliceRight maxBytes markdown
      (trim maxBytes (PyStr.join blankLine (before ++ taken))) size) :
    before ≠ [] ∧ StopsWell maxBytes (PyStr.join blankLine before) (sentences para) := by
  cases taken with
  | nil =>
    rw [List.append_nil] at hparts
    refine ⟨hparts, ?_⟩
    rw [countedBytes, Nat.add_zero] at hsize
    cases rest with
    | nil => exact absurd hsentences (sentencesFrom_ne_nil _ _ _)
    | cons next rest =>
      rw [hsentences]
      exact .unfit (hsize ▸ hnext next rest rfl)
  | cons sentence taken =>
    have hmax := hfits (List.cons_ne_nil _ _)
    have hbytes : (trim maxBytes (PyStr.join blankLine (before ++ sentence :: taken))).byteLength =
        (PyStr.join blankLine before).byteLength + countedBytes (sentence :: taken) rest :=
      hright.size.symm.trans hsize
    rcases h.cut_cases hright.longest.candidate hright.longest.fits with
      hpre | ⟨head, tail, hpara, hend, htext⟩
    · -- nothing of the paragraph is kept, though a sentence was taken: it is empty
      have htext := eq_of_prefix_of_weightSum_le codeBytes_pos hpre (by
        show (PyStr.join blankLine before).byteLength ≤ PyStr.byteLength _
        omega)
      rw [htext] at hbytes
      have hzero : countedBytes (sentence :: taken) rest = 0 := by omega
      have hnone : taken ++ rest = [] := by
        by_contra hmore
        rw [countedBytes, if_neg hmore] at hzero
        omega
      rw [countedBytes_singleton hnone] at hzero
      obtain rfl := byteLength_eq_zero_iff.mp hzero
      obtain ⟨rfl, rfl⟩ := List.append_eq_nil_iff.mp hnone
      have hpara : para = [] := (eq_of_sentencesFrom_singleton hsentences).symm
      have hunfit := h.unfit
      rw [hpara, byteLength_join_snoc] at hunfit
      have hbefore : before ≠ [] := by
        rintro rfl
        have hmax' := Int.natCast_nonneg size
        exact absurd hunfit (Int.not_lt.mpr (le_trans hmax' hmax))
      have hkept : ((PyStr.join blankLine before).byteLength : ℤ) ≤ maxBytes :=
        htext ▸ hright.longest.fits
      obtain ⟨hspace, hexact⟩ := (trim_snoc_eq_iff hbefore List.not_mem_nil hkept).mp htext
      refine ⟨hbefore, ?_⟩
      rw [hsentences]
      exact .empty hspace hexact
    · -- the first sentence is kept, though all of two were taken: the second one is short
      have hpre := prefix_trim maxBytes (PyStr.join blankLine (before ++ sentence :: taken))
      rw [htext] at hpre
      obtain ⟨rfl, hmore⟩ := eq_first_sentence h.not_infix hsentences hpara hend
        (prefix_of_prefix_join (List.cons_ne_nil _ _) hpre)
      rw [htext, byteLength_join_snoc, countedBytes, if_neg hmore] at hbytes
      have hlength : 0 < before.length := by
        by_contra hnone
        rw [if_neg hnone] at hbytes
        omega
      have hbefore : before ≠ [] := List.length_pos_iff.mp hlength
      rw [if_pos hlength] at hbytes
      have htwo : blankLine.byteLength = 2 := rfl
      have hcounted : countedBytes taken rest = 1 := by omega
      obtain ⟨-, -, -, p, hgap⟩ := first_sentence_end hsentences hmore
      cases taken with
      | nil => cases hcounted
      | cons last taken =>
        have hlast : taken ++ rest = [] := by
          by_contra hthird
          rw [countedBytes, if_neg hthird] at hcounted
          have hnil : last = [] := byteLength_eq_zero_iff.mp (by omega)
          have hends := sentencesFrom_ends hgap.symm hthird
          rw [hnil] at hends
          cases hends
        obtain ⟨rfl, rfl⟩ := List.append_eq_nil_iff.mp hlast
        rw [countedBytes_singleton hlast] at hcounted
        have hkept : ((PyStr.join blankLine (before ++ [head])).byteLength : ℤ) ≤ maxBytes :=
          htext ▸ hright.longest.fits
        rw [List.append_cons] at htext
        obtain ⟨hspace, hexact⟩ := (trim_snoc_eq_iff (by simp)
          (space_not_mem_of_short hgap hcounted) hkept).mp htext
        refine ⟨hbefore, ?_⟩
        rw [hsentences]
        rw [space_mem_join_snoc hbefore] at hspace
        rw [byteLength_join_snoc, if_pos hlength, htwo] at hexact
        exact .short hcounted hspace (by omega)

/-- If the paragraph that does not fit is left well, the document is sliced right. -/
theorem right_of_stopsWell {maxBytes : ℤ}
    (h : FirstUnfit maxBytes markdown before para after) (hbefore : before ≠ [])
    (hstop : StopsWell maxBytes (PyStr.join blankLine before) (sentences para)) :
    ∃ parts size, sentenceLoop maxBytes ⟨before, (PyStr.join blankLine before).byteLength⟩
        (sentences para) = ⟨parts, size⟩ ∧ parts ≠ [] ∧
      SliceRight maxBytes markdown (trim maxBytes (PyStr.join blankLine parts)) size := by
  have hkept := h.fits.resolve_left hbefore
  have hwhole : ¬ (markdown.byteLength : ℤ) ≤ maxBytes := Int.not_le.mpr h.lt_byteLength
  have hlength := List.length_pos_iff.mpr hbefore
  have htwo : blankLine.byteLength = 2 := rfl
  generalize hs : sentences para = ss at hstop
  cases hstop with
  | @unfit sentence rest hunfit =>
    refine ⟨before, _, (if_neg (Int.not_le.mpr hunfit)), hbefore, ?_⟩
    rw [trim_of_fits hkept]
    refine ⟨fun hfits => absurd hfits hwhole, ?_, rfl⟩
    refine h.longest (.paragraph h.split) hkept List.prefix_rfl fun head tail hpara hend _ _ => ?_
    have hpre := (prefix_before_sentence_end hs (by rw [List.nil_append, hpara]) List.nil_prefix
      hend).1
    have hle := byteLength_le_of_prefix hpre
    rw [byteLength_join_snoc, if_pos hlength]
    split at hunfit <;> omega
  | empty hspace hexact =>
    refine ⟨before ++ [[]], _, if_pos hkept, by simp, ?_⟩
    rw [(trim_snoc_eq_iff hbefore List.not_mem_nil hkept).mpr ⟨hspace, hexact⟩]
    refine ⟨fun hfits => absurd hfits hwhole, ?_, rfl⟩
    refine h.longest (.paragraph h.split) hkept List.prefix_rfl fun head tail _ _ _ _ => ?_
    rw [byteLength_join_snoc, if_pos hlength]
    omega
  | @short sentence last hlast hspace hexact =>
    obtain ⟨tail, hpara, hend, p, hgap⟩ := first_sentence_end hs (List.cons_ne_nil last [])
    have hspaceLast : spaceCode ∉ last := space_not_mem_of_short hgap hlast
    have hspaceKept : spaceCode ∉ PyStr.join blankLine (before ++ [sentence]) := by
      rwa [space_mem_join_snoc hbefore]
    have hbytes : ((PyStr.join blankLine (before ++ [sentence])).byteLength : ℤ) = maxBytes := by
      rw [byteLength_join_snoc, if_pos hlength]
      omega
    refine ⟨before ++ [sentence] ++ [last],
      (PyStr.join blankLine before).byteLength + (sentence.byteLength + 1) + (last.byteLength + 0),
      ?_, by simp, ?_⟩
    · rw [sentenceLoop, if_neg (List.cons_ne_nil last []), if_pos (by dsimp only; omega),
        sentenceLoop, if_pos rfl, if_pos (by dsimp only; omega), sentenceLoop]
    · rw [(trim_snoc_eq_iff (by simp) hspaceLast hbytes.le).mpr ⟨hspaceKept, hbytes.symm⟩]
      refine ⟨fun hfits => absurd hfits hwhole, ?_, ?_⟩
      · refine h.longest (.sentence h.split hpara hend) hbytes.le (prefix_join _ _ _)
          fun head tail _ _ hpre hne => ?_
        have hlt := byteLength_lt_of_prefix hpre hne
        omega
      · rw [byteLength_join_snoc, if_pos hlength]
        omega

/-- **A document is sliced right exactly if it does not fit and is left well where it is cut.** -/
theorem sliceRight_iff (maxMarkdownDef : Dict String ℤ) (markdown : PyStr) (doctype : DocType) :
    (∃ text size, sliceMarkdown maxMarkdownDef markdown doctype = .ok (.pair text size) ∧
      SliceRight (maxBytesOf maxMarkdownDef doctype) markdown text size) ↔
      SlicedWell (maxBytesOf maxMarkdownDef doctype) markdown := by
  constructor
  · rintro ⟨text, size, hslice, hright⟩
    cases hencode : markdown.encode with
    | none =>
      unfold sliceMarkdown at hslice
      rw [hencode] at hslice
      cases hslice
    | some b =>
      have hlong : maxBytesOf maxMarkdownDef doctype < (markdown.byteLength : ℤ) := by
        by_contra hfits
        rw [← length_encode hencode] at hfits
        unfold sliceMarkdown at hslice
        rw [hencode] at hslice
        dsimp only at hslice
        rw [if_pos (Int.not_lt.mp hfits)] at hslice
        cases hslice
      obtain ⟨before, para, after, h⟩ := exists_firstUnfit hlong
      obtain ⟨taken, rest, hsentences, hloop, hfits, hnext⟩ :=
        sentenceLoop_spec (maxBytesOf maxMarkdownDef doctype)
          ⟨before, (PyStr.join blankLine before).byteLength⟩ (sentences para)
      rw [sliceMarkdown_of_firstUnfit h hencode hloop] at hslice
      split at hslice
      · cases hslice
      · rename_i hparts
        cases hslice
        exact ⟨by rw [hencode]; rfl, before, para, after, h,
          stopsWell_of_right h hsentences rfl hfits hnext hparts hright⟩
  · rintro ⟨hencode, before, para, after, h, hbefore, hstop⟩
    obtain ⟨b, hb⟩ := Option.isSome_iff_exists.mp hencode
    obtain ⟨parts, size, hloop, hparts, hright⟩ := right_of_stopsWell h hbefore hstop
    refine ⟨_, size, ?_, hright⟩
    rw [sliceMarkdown_of_firstUnfit h hb hloop]
    exact if_neg hparts

/-- What fits comes back without a size. A sentence that is kept is counted with the space after
it, and two sentences are put together by a blank line. -/
theorem not_sliceRight_examples :
    (¬ ∃ text size, sliceMarkdown (Dict.empty.set "max_html_mb" 3) (pyText "Hi.") .html =
      .ok (.pair text size) ∧ SliceRight 3 (pyText "Hi.") text size) ∧
    (¬ ∃ text size, sliceMarkdown (Dict.empty.set "max_html_mb" 4) (pyText "A. b c") .html =
      .ok (.pair text size) ∧ SliceRight 4 (pyText "A. b c") text size) ∧
    ¬ ∃ text size, sliceMarkdown (Dict.empty.set "max_html_mb" 6) (pyText "A. B. c") .html =
      .ok (.pair text size) ∧ SliceRight 6 (pyText "A. B. c") text size := by
  refine ⟨?_, ?_, ?_⟩
  · rintro ⟨text, size, hslice, -⟩
    have hvalue : sliceMarkdown (Dict.empty.set "max_html_mb" 3) (pyText "Hi.") .html =
        .ok (.text (pyText "Hi.")) := by decide +kernel
    cases hvalue.symm.trans hslice
  · rintro ⟨text, size, hslice, hright⟩
    have hvalue : sliceMarkdown (Dict.empty.set "max_html_mb" 4) (pyText "A. b c") .html =
        .ok (.pair (pyText "A.") 3) := by decide +kernel
    cases hvalue.symm.trans hslice
    exact absurd hright.size (by decide)
  · rintro ⟨text, size, hslice, hright⟩
    have hvalue : sliceMarkdown (Dict.empty.set "max_html_mb" 6) (pyText "A. B. c") .html =
        .ok (.pair (pyText "A.\n\nB.") 6) := by decide +kernel
    cases hvalue.symm.trans hslice
    have hpre : pyText "A.\n\nB." <+: pyText "A. B. c" := cut_prefix hright.longest.candidate
    exact absurd hpre (by decide)

end Cuts

end Notifyr
