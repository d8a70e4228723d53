import Mathlib.Algebra.Field.Rat
import Mathlib.Algebra.Order.BigOperators.Group.List
import Mathlib.Algebra.Order.Field.Basic
import Notifyr.Ingest.Comparable

/-!
# Comparing embeddings

`EmbeddingWrapper` (`app/classes/embeddings.py`) and the `__eq__` of `ComparableEmbeddings`
(`app/models/ingest_model.py`), over exact numbers.

- `EmbeddingWrapper.new`: the constructor; a wrapper of a wrapper has a method for its norm.
- `DenseEmbedding.wrapper_eq`: the equality of two embeddings goes by their cosine.
- `ComparableEmbeddings.eq`: compares itself, not its embedding, with the wrapper it makes, so
  `eq_wrapper` ends at the limit of recursion.
- `comparisonRight_iff`: the only comparison that ends as it should is the one that is left before
  it compares anything.
-/

namespace Notifyr

/-! ## Wrappers -/

/-- `EmptyVectorError`, `VectorDimensionMismatchError` and `ZeroMagnitudeError`. -/
inductive EmbeddingException
  | emptyVector (context : String)
  | vectorDimensionMismatch (dim1 dim2 : ℕ)
  | zeroMagnitude (which : String)
  deriving DecidableEq

/-- What a comparison raises. -/
inductive ComparisonError
  | embedding (e : EmbeddingException)
  | type
  | recursion
  deriving DecidableEq

/-- The attribute `_norm`: a number, or the static method of this name. -/
inductive NormAttr (K : Type)
  | number (x : K)
  | method
  deriving DecidableEq

/-- `EmbeddingWrapper`. -/
structure EmbeddingWrapper (K : Type) where
  threshold : K
  vectorId : String
  vector : List K
  norm : NormAttr K

/-- What a wrapper is made of. -/
inductive EmbeddingSource (K : Type)
  | dict (vectorId : String) (vector : List K) (norm : Option K)
  | model (vectorId : String) (vector : List K) (norm : K)
  | wrapper (e : EmbeddingWrapper K)

section Wrappers

variable {K : Type} [Field K] [LinearOrder K]

def dotProduct (v w : List K) : K := (List.zipWith (· * ·) v w).sum

def sumOfSquares (v : List K) : K := (v.map fun x => x ^ 2).sum

namespace EmbeddingWrapper

/-- `norm`; `sqrt` is `math.sqrt`. -/
def l2 (sqrt : K → K) (v : List K) : Except ComparisonError K :=
  if v = [] then .error (.embedding (.emptyVector "norm input"))
  else .ok (sqrt (sumOfSquares v))

/-- `EmbeddingWrapper(…)`. -/
def new (sqrt : K → K) (source : EmbeddingSource K) (threshold : K) :
    Except ComparisonError (EmbeddingWrapper K) :=
  match source with
  | .dict vectorId vector (some norm) => .ok ⟨threshold, vectorId, vector, .number norm⟩
  | .dict vectorId vector none => do
    let norm ← l2 sqrt vector
    return ⟨threshold, vectorId, vector, .number norm⟩
  | .model vectorId vector norm => .ok ⟨threshold, vectorId, vector, .number norm⟩
  -- `e.norm` of a wrapper is the method
  | .wrapper e => .ok ⟨threshold, e.vectorId, e.vector, .method⟩

/-- `cosine`. -/
def cosine (e1 e2 : EmbeddingWrapper K) : Except ComparisonError K :=
  if e1.vector = [] ∨ e2.vector = [] then .error (.embedding (.emptyVector "similarity input"))
  else if e1.vector.length ≠ e2.vector.length then
    .error (.embedding (.vectorDimensionMismatch e1.vector.length e2.vector.length))
  else if e1.norm = .number 0 ∨ e2.norm = .number 0 then
    .error (.embedding (.zeroMagnitude "one or both vectors"))
  else
    match e1.norm, e2.norm with
    | .number norm1, .number norm2 => .ok (dotProduct e1.vector e2.vector / (norm1 * norm2))
    | _, _ => .error .type

/-- `__eq__`. -/
def eq (e other : EmbeddingWrapper K) : Except ComparisonError Bool := do
  let similarity ← cosine e other
  return decide (e.threshold ≤ similarity)

end EmbeddingWrapper

/-! ## Comparable embeddings -/

/-- `Literal['filter', 'compare']`. -/
inductive EmbeddingsMode
  | filter | compare
  deriving DecidableEq

/-- `ComparableEmbeddings`. -/
structure ComparableEmbeddings (K : Type) where
  embedding : Option (EmbeddingWrapper K)
  mode : EmbeddingsMode
  filterMode : SliceMode
  filtered : List String

namespace ComparableEmbeddings

/-- `self.filtered.add(vector_id)`. -/
def add (m : ComparableEmbeddings K) (vectorId : String) : ComparableEmbeddings K :=
  { m with filtered := vectorId :: m.filtered }

/-- The body of `__eq__`, where `self == target` is `again`. -/
def eqBody (sqrt : K → K)
    (again : ComparableEmbeddings K → EmbeddingSource K →
      Except ComparisonError (Bool × ComparableEmbeddings K))
    (m : ComparableEmbeddings K) (other : EmbeddingSource K) :
    Except ComparisonError (Bool × ComparableEmbeddings K) := do
  let target ← EmbeddingWrapper.new sqrt other (7 / 10)
  let (isSimilar, m) ← again m (.wrapper target)
  match m.mode with
  | .filter =>
    let m := if isSimilar == (m.filterMode == .include) then m.add target.vectorId else m
    let m := if (!isSimilar) == (m.filterMode == .exclude) then m.add target.vectorId else m
    return (true, m)
  | .compare => return (isSimilar, m)

/-- `__eq__`, with the number of calls that are left before `RecursionError`. -/
def eq (sqrt : K → K) : ℕ → ComparableEmbeddings K → EmbeddingSource K →
    Except ComparisonError (Bool × ComparableEmbeddings K)
  | 0 => fun _ _ => .error .recursion
  | limit + 1 => eqBody sqrt (eq sqrt limit)

/-- The comparisons with the embeddings of a list of jobs. -/
def eqAll (sqrt : K → K) (limit : ℕ) (m : ComparableEmbeddings K)
    (jobs : List (EmbeddingSource K)) : Except ComparisonError (ComparableEmbeddings K) :=
  jobs.foldlM (fun m job => do
    let (_, m) ← eq sqrt limit m job
    return m) m

end ComparableEmbeddings

/-! ## What a comparison is for -/

/-- An embedding with its norm. -/
structure DenseEmbedding (K : Type) [Field K] [LinearOrder K] where
  vectorId : String
  vector : List K
  norm : K
  norm_nonneg : 0 ≤ norm
  norm_sq : norm ^ 2 = sumOfSquares vector

/-- How an embedding is kept: exported as a dictionary or as a model, or a dictionary that has
lost its norm. -/
inductive StoredAs
  | dict | dictWithoutNorm | model
  deriving DecidableEq

namespace DenseEmbedding

variable (e e' : DenseEmbedding K)

def stored : StoredAs → EmbeddingSource K
  | .dict => .dict e.vectorId e.vector (some e.norm)
  | .dictWithoutNorm => .dict e.vectorId e.vector none
  | .model => .model e.vectorId e.vector e.norm

def wrapper (threshold : K) : EmbeddingWrapper K :=
  ⟨threshold, e.vectorId, e.vector, .number e.norm⟩

/-- Two embeddings without a similarity. -/
def Unfit : Prop :=
  e.vector = [] ∨ e'.vector = [] ∨ e.vector.length ≠ e'.vector.length ∨
    (∀ x ∈ e.vector, x = 0) ∨ ∀ x ∈ e'.vector, x = 0

/-- The cosine of the two reaches the threshold. -/
def Similar (threshold : K) : Prop :=
  threshold ≤ dotProduct e.vector e'.vector / (e.norm * e'.norm)

instance (threshold : K) : Decidable (e.Similar e' threshold) := by
  unfold Similar
  infer_instance

end DenseEmbedding

/-- `comparable == stored` in the mode `compare`. -/
def compareStored (sqrt : K → K) (limit : ℕ) (threshold : K) (filterMode : SliceMode)
    (form : StoredAs) (e e' : DenseEmbedding K) : Except ComparisonError Bool := do
  let (answer, _) ← ComparableEmbeddings.eq sqrt limit
    ⟨some (e.wrapper threshold), .compare, filterMode, []⟩ (e'.stored form)
  return answer

/-- The ids that are collected in the mode `filter`. -/
def collectStored (sqrt : K → K) (limit : ℕ) (threshold : K) (filterMode : SliceMode)
    (e : DenseEmbedding K) (jobs : List (DenseEmbedding K × StoredAs)) :
    Except ComparisonError (List String) := do
  let m ← ComparableEmbeddings.eqAll sqrt limit
    ⟨some (e.wrapper threshold), .filter, filterMode, []⟩ (jobs.map fun job => job.1.stored job.2)
  return m.filtered

/-- A comparison raises a declared error exactly for the unfit, and else says whether the two are
similar, in either order. -/
structure CompareRight (sqrt : K → K) (limit : ℕ) (threshold : K) (filterMode : SliceMode)
    (form : StoredAs) (e e' : DenseEmbedding K) : Prop where
  raises : e.Unfit e' →
    ∃ err, compareStored sqrt limit threshold filterMode form e e' = .error (.embedding err)
  answers : ¬ e.Unfit e' → compareStored sqrt limit threshold filterMode form e e' =
    .ok (decide (e.Similar e' threshold))
  symmetric : ¬ e.Unfit e' → compareStored sqrt limit threshold filterMode form e e' =
    compareStored sqrt limit threshold filterMode form e' e

/-- The ids collected are those of the similar jobs, or those of the others. -/
structure FilterRight (sqrt : K → K) (limit : ℕ) (threshold : K) (filterMode : SliceMode)
    (e : DenseEmbedding K) (jobs : List (DenseEmbedding K × StoredAs)) : Prop where
  raises : (∃ job ∈ jobs, e.Unfit job.1) →
    ∃ err, collectStored sqrt limit threshold filterMode e jobs = .error (.embedding err)
  collects : (∀ job ∈ jobs, ¬ e.Unfit job.1) →
    ∃ ids, collectStored sqrt limit threshold filterMode e jobs = .ok ids ∧
      ∀ id, id ∈ ids ↔ ∃ job ∈ jobs, job.1.vectorId = id ∧
        (e.Similar job.1 threshold ↔ filterMode = .include)

/-! ## The embeddings themselves -/

omit [LinearOrder K] in
theorem dotProduct_comm (v w : List K) : dotProduct v w = dotProduct w v := by
  unfold dotProduct
  rw [List.zipWith_comm_of_comm fun _ _ => mul_comm _ _]

theorem sumOfSquares_eq_zero_iff [IsStrictOrderedRing K] (v : List K) :
    sumOfSquares v = 0 ↔ ∀ x ∈ v, x = 0 := by
  unfold sumOfSquares
  have hnonneg : ∀ y ∈ v.map fun x => x ^ 2, 0 ≤ y := by
    intro y hy
    obtain ⟨x, -, rfl⟩ := List.mem_map.1 hy
    exact sq_nonneg x
  constructor
  · intro hsum x hx
    have hzero := List.all_zero_of_le_zero_le_of_sum_eq_zero hnonneg hsum (List.mem_map_of_mem hx)
    exact sq_eq_zero_iff.1 hzero
  · intro hzero
    refine List.sum_eq_zero fun y hy => ?_
    obtain ⟨x, hx, rfl⟩ := List.mem_map.1 hy
    rw [hzero x hx, sq, mul_zero]

namespace DenseEmbedding

theorem norm_eq_zero_iff [IsStrictOrderedRing K] (e : DenseEmbedding K) :
    e.norm = 0 ↔ ∀ x ∈ e.vector, x = 0 := by
  rw [← sumOfSquares_eq_zero_iff, ← e.norm_sq, sq_eq_zero_iff]

theorem similar_comm (e e' : DenseEmbedding K) (threshold : K) :
    e.Similar e' threshold ↔ e'.Similar e threshold := by
  unfold Similar
  rw [dotProduct_comm, mul_comm e.norm]

/-- The equality of the embeddings raises for the unfit, and else says whether the cosine reaches
the threshold. -/
theorem wrapper_eq [IsStrictOrderedRing K] (e e' : DenseEmbedding K) (threshold : K) :
    (e.Unfit e' → ∃ err, (e.wrapper threshold).eq (e'.wrapper threshold) =
      .error (.embedding err)) ∧
    (¬ e.Unfit e' → (e.wrapper threshold).eq (e'.wrapper threshold) =
      .ok (decide (e.Similar e' threshold))) := by
  unfold EmbeddingWrapper.eq EmbeddingWrapper.cosine Unfit
  simp only [wrapper, NormAttr.number.injEq, norm_eq_zero_iff]
  by_cases hempty : e.vector = [] ∨ e'.vector = []
  · rw [if_pos hempty]
    exact ⟨fun _ => ⟨_, rfl⟩, fun hfit => (hfit (by tauto)).elim⟩
  by_cases hlength : e.vector.length ≠ e'.vector.length
  · rw [if_neg hempty, if_pos hlength]
    exact ⟨fun _ => ⟨_, rfl⟩, fun hfit => (hfit (by tauto)).elim⟩
  by_cases hzero : (∀ x ∈ e.vector, x = 0) ∨ ∀ x ∈ e'.vector, x = 0
  · rw [if_neg hempty, if_neg hlength, if_pos hzero]
    exact ⟨fun _ => ⟨_, rfl⟩, fun hfit => (hfit (by tauto)).elim⟩
  · rw [if_neg hempty, if_neg hlength, if_neg hzero]
    exact ⟨fun hunfit => by tauto, fun _ => rfl⟩

end DenseEmbedding

/-! ## The recursion -/

namespace ComparableEmbeddings

omit [LinearOrder K] in
/-- The comparison with a wrapper makes a wrapper and compares with it. -/
theorem eq_wrapper (sqrt : K → K) (limit : ℕ) (m : ComparableEmbeddings K)
    (e : EmbeddingWrapper K) : eq sqrt limit m (.wrapper e) = .error .recursion := by
  induction limit generalizing m e with
  | zero => rfl
  | succ limit ih =>
    show eqBody sqrt (eq sqrt limit) m (.wrapper e) = _
    unfold eqBody EmbeddingWrapper.new
    simp [bind, Except.bind, ih]

/-- A comparison that makes its first wrapper ends at the limit. -/
theorem eq_stored (sqrt : K → K) (limit : ℕ) (m : ComparableEmbeddings K)
    (e : DenseEmbedding K) (form : StoredAs) :
    eq sqrt (limit + 1) m (e.stored form) =
      if form = .dictWithoutNorm ∧ e.vector = [] then
        .error (.embedding (.emptyVector "norm input"))
      else .error .recursion := by
  show eqBody sqrt (eq sqrt limit) m (e.stored form) = _
  unfold eqBody
  cases form with
  | dict => simp [DenseEmbedding.stored, EmbeddingWrapper.new, bind, Except.bind, eq_wrapper]
  | model => simp [DenseEmbedding.stored, EmbeddingWrapper.new, bind, Except.bind, eq_wrapper]
  | dictWithoutNorm =>
    by_cases hempty : e.vector = []
    · simp [DenseEmbedding.stored, EmbeddingWrapper.new, EmbeddingWrapper.l2, hempty, bind,
        Except.bind]
    · simp [DenseEmbedding.stored, EmbeddingWrapper.new, EmbeddingWrapper.l2, hempty, bind,
        Except.bind, pure, Except.pure, eq_wrapper]

end ComparableEmbeddings

variable (sqrt : K → K) (limit : ℕ) (threshold : K) (filterMode : SliceMode)

theorem compareStored_eq (form : StoredAs) (e e' : DenseEmbedding K) :
    compareStored sqrt (limit + 1) threshold filterMode form e e' =
      if form = .dictWithoutNorm ∧ e'.vector = [] then
        .error (.embedding (.emptyVector "norm input"))
      else .error .recursion := by
  unfold compareStored
  rw [ComparableEmbeddings.eq_stored]
  split
  · rfl
  · rfl

theorem collectStored_cons (e : DenseEmbedding K) (job : DenseEmbedding K × StoredAs)
    (jobs : List (DenseEmbedding K × StoredAs)) :
    collectStored sqrt (limit + 1) threshold filterMode e (job :: jobs) =
      if job.2 = .dictWithoutNorm ∧ job.1.vector = [] then
        .error (.embedding (.emptyVector "norm input"))
      else .error .recursion := by
  unfold collectStored ComparableEmbeddings.eqAll
  rw [List.map_cons, List.foldlM_cons, ComparableEmbeddings.eq_stored]
  split
  · rfl
  · rfl

theorem compareRight_iff (form : StoredAs) (e e' : DenseEmbedding K) :
    CompareRight sqrt (limit + 1) threshold filterMode form e e' ↔
      form = .dictWithoutNorm ∧ e'.vector = [] := by
  constructor
  · intro hright
    by_contra hnot
    have hcompare := compareStored_eq sqrt limit threshold filterMode form e e'
    rw [if_neg hnot] at hcompare
    by_cases hunfit : e.Unfit e'
    · obtain ⟨err, hraises⟩ := hright.raises hunfit
      cases hcompare.symm.trans hraises
    · cases hcompare.symm.trans (hright.answers hunfit)
  · intro hform
    have hunfit : e.Unfit e' := .inr (.inl hform.2)
    have hcompare := compareStored_eq sqrt limit threshold filterMode form e e'
    rw [if_pos hform] at hcompare
    exact ⟨fun _ => ⟨_, hcompare⟩, fun hfit => (hfit hunfit).elim, fun hfit => (hfit hunfit).elim⟩

theorem collectStored_right_iff (e : DenseEmbedding K) (jobs : List (DenseEmbedding K × StoredAs)) :
    FilterRight sqrt (limit + 1) threshold filterMode e jobs ↔
      ∀ job ∈ jobs.head?, job.2 = .dictWithoutNorm ∧ job.1.vector = [] := by
  cases jobs with
  | nil => exact iff_of_true ⟨by simp, fun _ => ⟨[], rfl, by simp⟩⟩ (by simp)
  | cons job jobs =>
    have hcollect := collectStored_cons sqrt limit threshold filterMode e job jobs
    simp only [List.head?_cons, Option.mem_some_iff, forall_eq']
    constructor
    · intro hright
      by_contra hnot
      rw [if_neg hnot] at hcollect
      by_cases hunfit : ∃ job' ∈ job :: jobs, e.Unfit job'.1
      · obtain ⟨err, hraises⟩ := hright.raises hunfit
        cases hcollect.symm.trans hraises
      · obtain ⟨ids, hids, -⟩ := hright.collects fun job' hjob' h => hunfit ⟨job', hjob', h⟩
        cases hcollect.symm.trans hids
    · intro hform
      rw [if_pos hform] at hcollect
      have hunfit : e.Unfit job.1 := .inr (.inl hform.2)
      exact ⟨fun _ => ⟨_, hcollect⟩, fun hfit => (hfit job List.mem_cons_self hunfit).elim⟩

/-- **A comparison ends as it should** only where the stored embedding is empty and has lost its
norm, which is noticed before anything is compared. -/
theorem comparisonRight_iff (form : StoredAs) (e e' : DenseEmbedding K)
    (jobs : List (DenseEmbedding K × StoredAs)) :
    (CompareRight sqrt (limit + 1) threshold filterMode form e e' ↔
      form = .dictWithoutNorm ∧ e'.vector = []) ∧
    (FilterRight sqrt (limit + 1) threshold filterMode e jobs ↔
      ∀ job ∈ jobs.head?, job.2 = .dictWithoutNorm ∧ job.1.vector = []) :=
  ⟨compareRight_iff sqrt limit threshold filterMode form e e',
    collectStored_right_iff sqrt limit threshold filterMode e jobs⟩

end Wrappers

/-- An embedding of one dimension. -/
def unitEmbedding : DenseEmbedding ℚ := ⟨"crawl", [1], 1, by decide, by simp [sumOfSquares]⟩

/-- An embedding cannot be compared with itself. -/
theorem not_compareRight_unit :
    ¬ CompareRight id 1000 (7 / 10) .include .dict unitEmbedding unitEmbedding := by
  intro hright
  have hfit : ¬ unitEmbedding.Unfit unitEmbedding := by
    rintro (h | h | h | h | h)
    · cases h
    · cases h
    · exact h rfl
    · exact absurd (h 1 List.mem_cons_self) (by decide)
    · exact absurd (h 1 List.mem_cons_self) (by decide)
  have hcompare := compareStored_eq (id : ℚ → ℚ) 999 (7 / 10) .include .dict unitEmbedding
    unitEmbedding
  rw [if_neg (by simp)] at hcompare
  cases hcompare.symm.trans (hright.answers hfit)

end Notifyr
