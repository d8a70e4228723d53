import Mathlib.Data.List.Sort
import Notifyr.Runtime.Python
import Notifyr.Theory.Kahn

/-!
# Loading the registered classes

The first phase of `Container` (`app/container.py`): the names of the registered classes are
collected, their constructors are inspected, and the names are put in order. Classes are known
by their names throughout, so of two classes of one name the later one counts.

`InjectWithCondition` and `BuildOnlyIf` are stubs of `typing.overload` and cannot be applied, so
`AbstractDependency` and `BuildOnlyIfDependencies` stay empty; no class resolves an abstract one,
and every service is built.

- `ServiceClass`, `Registry`: the classes and the tables their decorators fill.
- `getSignature`, `loadBaseSet`, `loadDep`, `orderDependency`: the steps of `load`.
- `classOf`, `Registry.deps`: the registered class of a name, and what it depends on.
- `Loaded`, `load_ok`: what holds of every container that was loaded.
-/

namespace Notifyr

open Theory

/-- A registered class. A parameter of its constructor has a name and the name of its annotation,
which is `_empty` when there is none. -/
structure ServiceClass where
  name : String
  params : List (String × String)
  /-- Whether it derives from `BaseService`, whose constructor it then calls. -/
  isService : Bool
  containerLifecycleScope : Bool

/-- The annotations of the parameters. -/
def ServiceClass.annotations (s : ServiceClass) : List String := s.params.map Prod.snd

/-- The names of the parameters. -/
def ServiceClass.paramNames (s : ServiceClass) : List String := s.params.map Prod.fst

/-- `AbstractServiceClasses` and `PossibleDependencies`. The marker of `inspect` is not the name
of an abstract service. -/
structure Registry where
  abstractServiceClasses : List String
  possibleDependencies : Dict String (List String)
  empty_notMem : "_empty" ∉ abstractServiceClasses

/-- The errors of a container. -/
inductive ContainerError
  | circularDependencyError
  | multipleParameterSameDependencyError
  | noResolvedDependencyError (name : Option String)
  | notInDependenciesError (name : String)
  | invalidDependencyError
  deriving DecidableEq, Repr

/-- An entry of `DEPENDENCY_MetaData`. -/
structure Metadata where
  type : ServiceClass
  dep : List String
  paramNames : List String
  depParams : List String

/-- What a container is built from; `order` is `__D`. -/
structure Container where
  metadata : Dict String Metadata
  order : List String

/-! ## The phase -/

/-- A parameter in the loop of `getSignature`. -/
def signatureStep (loaded : List String) (signature : List String × List String)
    (p : String × String) : Except ContainerError (List String × List String) :=
  let (types, paramNames) := signature
  if types.count p.2 = 1 then .error .multipleParameterSameDependencyError
  else if p.2 ∉ loaded ∧ p.2 ≠ "_empty" then .error (.noResolvedDependencyError (some p.2))
  else .ok (types ++ [p.2], paramNames ++ [p.1])

/-- `getSignature` of a class: the types and the names of the parameters. -/
def getSignature (loaded : List String) (t : ServiceClass) :
    Except ContainerError (List String × List String) :=
  t.params.foldlM (signatureStep loaded) ([], [])

/-- A class in the loop of `__load_baseSet`. -/
def addName (r : Registry) (t : List String) (d : ServiceClass) :
    Except ContainerError (List String) :=
  if d.name ∈ r.abstractServiceClasses then .error .invalidDependencyError
  else .ok (t.insert d.name)

/-- `__load_baseSet`. -/
def loadBaseSet (r : Registry) (D : List ServiceClass) : Except ContainerError (List String) :=
  D.foldlM (addName r) []

/-- A class in the loop of `__load_dep`. The guard of the loop looks a class up among names, so
it never skips one. -/
def loadClass (r : Registry) (o : SetOrder) (base : List String) (metadata : Dict String Metadata)
    (x : ServiceClass) : Except ContainerError (Dict String Metadata) := do
  let (depParams, paramNames) ← getSignature metadata.keys x
  let depNotInjected := o.enum (depParams.filter (· ∉ base))
  match depNotInjected.find? (· ∉ r.abstractServiceClasses) with
  | some y => .error (.notInDependenciesError y)
  | none =>
    let possible := (r.possibleDependencies.get? x.name).getD []
    .ok (metadata.set x.name ⟨x, depParams ++ possible, paramNames, depParams⟩)

/-- `__load_dep`. -/
def loadDep (r : Registry) (o : SetOrder) (base : List String) (D : List ServiceClass) :
    Except ContainerError (Dict String Metadata) :=
  D.foldlM (loadClass r o base) .empty

/-- `dep_count`. -/
def depCount (metadata : Dict String Metadata) (x : String) : Nat :=
  (metadata.get? x).elim 0 fun m => m.depParams.length

/-- `__order_dependency`; `sorted` is stable, and so is the sort used here. -/
def orderDependency (o : SetOrder) (metadata : Dict String Metadata) (base : List String) :
    List String :=
  (o.enum base).insertionSort fun x y => depCount metadata x ≤ depCount metadata y

/-- The constructor of a container up to `__buildContainer`. -/
def load (r : Registry) (o : SetOrder) (D : List ServiceClass) :
    Except ContainerError Container := do
  let base ← loadBaseSet r D
  let metadata ← loadDep r o base D
  return ⟨metadata, orderDependency o metadata base⟩

/-! ## What was loaded -/

/-- The registered class of a name: the last one that has it. -/
def classOf : List ServiceClass → String → Option ServiceClass
  | [], _ => none
  | d :: D, x => (classOf D x).or (if d.name = x then some d else none)

/-- What the loading phase notes about a class. -/
def metadataOf (r : Registry) (s : ServiceClass) : Metadata where
  type := s
  dep := s.annotations ++ (r.possibleDependencies.get? s.name).getD []
  paramNames := s.paramNames
  depParams := s.annotations

/-- What the class of a name depends on: the classes its constructor names, and the possible
dependencies it was decorated with. -/
def Registry.deps (r : Registry) (D : List ServiceClass) (x : String) : List String :=
  (classOf D x).elim [] fun s => (metadataOf r s).dep

/-- What holds of a container that was loaded. -/
structure Loaded (r : Registry) (D : List ServiceClass) (c : Container) : Prop where
  metadata : ∀ x, c.metadata.get? x = (classOf D x).map (metadataOf r)
  mem_order : ∀ x, x ∈ c.order ↔ x ∈ D.map ServiceClass.name
  nodup : c.order.Nodup
  annotations : ∀ s ∈ D, ∀ a ∈ s.annotations, a ∈ c.order
  concrete : ∀ x ∈ c.order, x ∉ r.abstractServiceClasses

theorem classOf_some {D : List ServiceClass} {x : String} {s : ServiceClass}
    (h : classOf D x = some s) : s ∈ D ∧ s.name = x := by
  induction D with
  | nil => cases h
  | cons d D ih =>
    rw [classOf, Option.or_eq_some_iff] at h
    rcases h with h | ⟨-, h⟩
    · exact ⟨List.mem_cons_of_mem _ (ih h).1, (ih h).2⟩
    · split at h
      · next hd =>
        obtain rfl := Option.some.inj h
        exact ⟨List.mem_cons_self, hd⟩
      · cases h

theorem classOf_isSome {D : List ServiceClass} {x : String} (h : x ∈ D.map ServiceClass.name) :
    ∃ s, classOf D x = some s := by
  induction D with
  | nil => cases h
  | cons d D ih =>
    rw [List.map_cons, List.mem_cons] at h
    rw [classOf]
    cases hD : classOf D x with
    | some s => exact ⟨s, rfl⟩
    | none =>
      rcases h with h | h
      · exact ⟨d, by rw [if_pos h.symm, Option.none_or]⟩
      · obtain ⟨s, hs⟩ := ih h
        rw [hD] at hs
        cases hs

/-- A signature that is accepted is the one of the constructor, and names loaded classes. -/
theorem signature_ok {loaded : List String} (ps : List (String × String))
    {acc signature : List String × List String}
    (h : ps.foldlM (signatureStep loaded) acc = .ok signature) :
    signature = (acc.1 ++ ps.map Prod.snd, acc.2 ++ ps.map Prod.fst) ∧
      ∀ p ∈ ps, p.2 ∈ loaded ∨ p.2 = "_empty" := by
  induction ps generalizing acc with
  | nil =>
    obtain rfl : acc = signature := Except.ok.inj h
    simp
  | cons p ps ih =>
    rw [List.foldlM_cons] at h
    obtain ⟨acc', hstep, h⟩ := bind_ok h
    unfold signatureStep at hstep
    dsimp only at hstep
    split at hstep
    · cases hstep
    · split at hstep
      · cases hstep
      · next hnamed =>
        obtain rfl := Except.ok.inj hstep
        obtain ⟨rfl, hps⟩ := ih h
        refine ⟨by simp, fun q hq => ?_⟩
        rcases List.mem_cons.mp hq with rfl | hq
        · by_contra hno
          exact hnamed (not_or.mp hno)
        · exact hps q hq

theorem getSignature_ok {loaded : List String} {t : ServiceClass}
    {signature : List String × List String} (h : getSignature loaded t = .ok signature) :
    signature = (t.annotations, t.paramNames) ∧
      ∀ a ∈ t.annotations, a ∈ loaded ∨ a = "_empty" := by
  obtain ⟨rfl, hps⟩ := signature_ok t.params h
  refine ⟨by simp [ServiceClass.annotations, ServiceClass.paramNames], fun a ha => ?_⟩
  obtain ⟨p, hp, rfl⟩ := List.mem_map.mp ha
  exact hps p hp

/-- Adding the names of registered classes, none of which is abstract. -/
theorem addNames_ok {r : Registry} (D : List ServiceClass) {t base : List String}
    (h : D.foldlM (addName r) t = .ok base) (hnd : t.Nodup)
    (hconcrete : ∀ x ∈ t, x ∉ r.abstractServiceClasses) :
    (∀ x, x ∈ base ↔ x ∈ t ∨ x ∈ D.map ServiceClass.name) ∧ base.Nodup ∧
      ∀ x ∈ base, x ∉ r.abstractServiceClasses := by
  induction D generalizing t with
  | nil =>
    obtain rfl : t = base := Except.ok.inj h
    exact ⟨fun x => by simp, hnd, hconcrete⟩
  | cons d D ih =>
    rw [List.foldlM_cons] at h
    obtain ⟨t', hstep, h⟩ := bind_ok h
    unfold addName at hstep
    split at hstep
    · cases hstep
    · next hd =>
      obtain rfl := Except.ok.inj hstep
      obtain ⟨hmem, hnd', hconcrete'⟩ := ih h hnd.insert (by
        intro x hx
        rcases List.mem_insert_iff.mp hx with rfl | hx
        · exact hd
        · exact hconcrete x hx)
      refine ⟨fun x => ?_, hnd', hconcrete'⟩
      rw [hmem, List.mem_insert_iff, List.map_cons, List.mem_cons]
      tauto

theorem loadBaseSet_ok {r : Registry} {D : List ServiceClass} {base : List String}
    (h : loadBaseSet r D = .ok base) :
    (∀ x, x ∈ base ↔ x ∈ D.map ServiceClass.name) ∧ base.Nodup ∧
      ∀ x ∈ base, x ∉ r.abstractServiceClasses := by
  have := addNames_ok D h List.nodup_nil (by simp)
  simpa using this

/-- A class that is accepted is noted, and its constructor names registered classes. -/
theorem loadClass_ok {r : Registry} {o : SetOrder} {base : List String}
    {metadata metadata' : Dict String Metadata} {x : ServiceClass}
    (hkeys : ∀ k ∈ metadata.keys, k ∈ base)
    (h : loadClass r o base metadata x = .ok metadata') :
    metadata' = metadata.set x.name (metadataOf r x) ∧ ∀ a ∈ x.annotations, a ∈ base := by
  unfold loadClass at h
  obtain ⟨signature, hsignature, h⟩ := bind_ok h
  obtain ⟨rfl, hnamed⟩ := getSignature_ok hsignature
  dsimp only at h
  split at h
  · cases h
  · next hfind =>
    refine ⟨(Except.ok.inj h).symm, fun a ha => ?_⟩
    by_contra hbase
    have habstract : a ∈ r.abstractServiceClasses := by
      have := List.find?_eq_none.mp hfind a (by simp [ha, hbase])
      simpa using this
    -- a name that is not registered is neither loaded nor the marker, which is not abstract
    rcases hnamed a ha with hloaded | rfl
    · exact hbase (hkeys a hloaded)
    · exact r.empty_notMem habstract

theorem loadDep_ok {r : Registry} {o : SetOrder} {base : List String} (D : List ServiceClass)
    {metadata metadata' : Dict String Metadata} (hD : ∀ s ∈ D, s.name ∈ base)
    (hkeys : ∀ k ∈ metadata.keys, k ∈ base)
    (h : D.foldlM (loadClass r o base) metadata = .ok metadata') :
    (∀ x, metadata'.get? x = ((classOf D x).map (metadataOf r)).or (metadata.get? x)) ∧
      ∀ s ∈ D, ∀ a ∈ s.annotations, a ∈ base := by
  induction D generalizing metadata with
  | nil =>
    obtain rfl : metadata = metadata' := Except.ok.inj h
    simp [classOf]
  | cons d D ih =>
    rw [List.foldlM_cons] at h
    obtain ⟨metadata₁, hstep, h⟩ := bind_ok h
    obtain ⟨rfl, hd⟩ := loadClass_ok hkeys hstep
    have hkeys₁ : ∀ k ∈ (metadata.set d.name (metadataOf r d)).keys, k ∈ base := by
      intro k hk
      rcases (Dict.mem_keys_set _ _ _ _).mp hk with rfl | hk
      · exact hD _ List.mem_cons_self
      · exact hkeys k hk
    obtain ⟨hget, hann⟩ := ih (fun s hs => hD s (List.mem_cons_of_mem _ hs)) hkeys₁ h
    refine ⟨fun x => ?_, fun s hs => ?_⟩
    · rw [hget, classOf, Dict.get?_set]
      cases classOf D x with
      | some s => rfl
      | none =>
        by_cases hx : d.name = x
        · simp [hx]
        · simp [hx, Ne.symm hx]
    · rcases List.mem_cons.mp hs with rfl | hs
      · exact hd
      · exact hann s hs

/-- **What the loading phase accepts.** Every registered class is noted under its name, names
only registered classes in its constructor, and is not abstract. -/
theorem load_ok {r : Registry} {o : SetOrder} {D : List ServiceClass} {c : Container}
    (h : load r o D = .ok c) : Loaded r D c := by
  unfold load at h
  obtain ⟨base, hbase, h⟩ := bind_ok h
  obtain ⟨metadata, hmetadata, h⟩ := bind_ok h
  obtain rfl := Except.ok.inj h
  obtain ⟨hmem, hnd, hconcrete⟩ := loadBaseSet_ok hbase
  have hD : ∀ s ∈ D, s.name ∈ base := fun s hs => (hmem _).mpr (List.mem_map_of_mem hs)
  obtain ⟨hget, hann⟩ := loadDep_ok D hD (by simp) hmetadata
  have hperm : (orderDependency o metadata base).Perm base :=
    (List.perm_insertionSort _ _).trans (o.perm base)
  exact {
    metadata := fun x => by rw [hget, Dict.get?_empty, Option.or_none]
    mem_order := fun x => hperm.mem_iff.trans (hmem x)
    nodup := hperm.nodup_iff.mpr hnd
    annotations := fun s hs a ha => hperm.mem_iff.mpr (hann s hs a ha)
    concrete := fun x hx => hconcrete x (hperm.mem_iff.mp hx) }

end Notifyr
