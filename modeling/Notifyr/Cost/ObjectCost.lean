import Notifyr.Cost.CreditOps
import Notifyr.Cost.IngestCost
import Notifyr.Ressource.ObjectStore

/-!
# What deleting and copying objects costs

`ObjectCost` (`app/cost/object_cost.py`), the background tasks of `Merchant.safe_payment`, and the
routes `delete_object` and `copy_object` of `app/ressources/object_s3_ressource.py`.

- `ObjectRoutes`: the services of the two routes; `RequestState`: what a request works on.
- `ObjectCost.postRefund`, `prePurchase`, `postPayment`: the cost class.
- `deleteObject`, `copyObject`: the routes; `runTask`: a task of `safe_payment`.
- `RequestRight`: what is deleted is credited, and what is copied is paid.
- `Fails`: a computation that raises and changes neither the store nor the credits. Both routes do,
  so that `requestRight_iff`.
-/

namespace Notifyr

open Theory

/-! ## The state of a request -/

/-- The services of the routes. -/
structure ObjectRoutes (σ : Type) extends ObjectS3Service σ where
  cfg : CostConfig
  now : Month
  prices : FileIngestCost
  /-- The text of the bound method `POST_NAME`. -/
  postName : String
  /-- `ValidFreeInputTemplatePipe.pipe`: whether the template is a file. -/
  freeInput : String → ObjectM Bool
  /-- The deletions the server refuses. -/
  fails : Object → Bool
  /-- The store without an object. -/
  remove : σ → (name : String) → (versionId : Option String) → σ
  copy : σ → (source destination : String) → (versionId : Option String) → ObjectM σ
  /-- What is listed is there, under the version that is listed. -/
  stat_of_listed {s namePrefix recursive includeVersion objects} :
    client.listObjects s assetsBucket namePrefix recursive includeVersion = .ok objects →
      ∀ o ∈ objects, o.isDir = false → o.isDeleteMarker = false →
        ∃ info, client.statObject s assetsBucket o.objectName o.versionId = .ok info
  /-- An object tells the name and version it was asked for. -/
  statObject_name {s name versionId info} :
    client.statObject s assetsBucket name versionId = .ok info →
      info.objectName = name ∧ (versionId ≠ none → info.versionId = versionId)

/-- `DeleteError`. -/
structure DeleteError where
  name : String
  versionId : Option String

/-- What `safe_payment` is given to call. -/
inductive ObjectTask
  | deleteObject (name : String) (versionId : String)
  | deleteObjectsPrefix (objects : List Object)
  | copyObject (source destination : String) (versionId : Option String) (move : Bool)

/-- What a request and its tasks work on: the server, the credits, the cost object with the sizes it
has saved, and the merchant. -/
structure RequestState (σ : Type) where
  store : σ
  credits : CreditDb
  cost : Cost
  saved : Dict (String × String) ℕ
  toPostPayment : Bool
  tasks : List ObjectTask

/-- A computation of a request; what it has changed stays when it raises. -/
abbrev RequestM (σ : Type) := ExceptT ObjectError (StateM (RequestState σ))

/-- The `meta` of an answer: an object or a list of them. -/
inductive RequestMeta
  | one (o : Object)
  | many (os : List Object)

/-- What `post_refund` is called with: the answer of a route, or the model of `safe_payment`. -/
inductive RefundArg
  | dict (m : RequestMeta)
  | model

/-- `str(version_id)`. -/
def versionText (versionId : Option String) : String := versionId.getD "None"

/-- A computation that does not look at the request. -/
def RequestM.lift {σ α : Type} (r : ObjectM α) : RequestM σ α := ExceptT.mk (pure r)

/-- `await` on a value that cannot be awaited. -/
def awaitValue {σ α : Type} (_ : α) : RequestM σ α := throw (.py .typeError)

/-! ## The cost class -/

namespace ObjectCost

/-- `save_meta`. -/
def saveMeta (objects : List Object) (saved : Dict (String × String) ℕ) :
    Dict (String × String) ℕ :=
  objects.foldl (fun saved o => saved.set (o.objectName, versionText o.versionId) o.size) saved

/-- The refund of the prices of one object. -/
def refundObject (prices : FileIngestCost) (name object : String) (versionId : Option String)
    (size : ℕ) (c : Cost) : Cost :=
  refundAll c (prices.computePrices name s!"{object} @ {versionText versionId}" (some size))

/-- `post_refund`. An object cannot be iterated over, and a model has no `get`. -/
def postRefund (prices : FileIngestCost) (postName : String) (result : RefundArg) (c : Cost) :
    ObjectM Cost :=
  match result with
  | .dict (.many os) =>
    .ok (os.foldl (fun c o => refundObject prices postName o.objectName o.versionId o.size c) c)
  | .dict (.one _) => .error (.py .typeError)
  | .model => .error (.py .attributeError)

/-- `pre_purchase`, which refunds, and `post_purchase`, which calls it. -/
def prePurchase (prices : FileIngestCost) (o : Object) (c : Cost) : Cost :=
  refundObject prices "File Copying: " o.objectName o.versionId o.size c

/-- `post_payment`. -/
def postPayment (prices : FileIngestCost) (saved : Dict (String × String) ℕ)
    (errors : List DeleteError) (c : Cost) : Cost :=
  errors.foldl (fun c e =>
    match saved.get? (e.name, versionText e.versionId) with
    | none => c
    | some size => refundObject prices "File deletion cancelled:" e.name e.versionId size c) c

end ObjectCost

/-! ## The routes -/

namespace ObjectRoutes

variable {σ : Type} (r : ObjectRoutes σ)

/-- Change the cost object. -/
def updateCost (f : Cost → ObjectM Cost) : RequestM σ Unit := do
  let c ← RequestM.lift (f (← get).cost)
  modify fun s => { s with cost := c }

/-- `CostService.refund_credits`. -/
def refundCreditsOf (bill : Bill) : RequestM σ Unit := do
  let s ← get
  let (result, credits) := refundCreditsDb r.cfg "object" bill r.now s.credits
  set { s with credits := credits }
  let _ ← RequestM.lift (result.mapError .py)

/-- `Merchant.safe_payment`, as far as the request itself goes. -/
def safePayment (task : ObjectTask) : RequestM σ Unit :=
  modify fun s => { s with tasks := s.tasks ++ [task] }

/-- `delete_object`. The list of `fetch_objects` is awaited. -/
def deleteObject (template : String) (search : ObjectsSearch) (force : Bool) :
    RequestM σ RequestMeta := do
  match search.versionId.filter (· ≠ "") with
  | some versionId =>
    let info ← RequestM.lift (r.statObject (← get).store template (some versionId) true)
    safePayment (.deleteObject template versionId)
    return .one info
  | none =>
    let search := if search.isFile then { search with recursive := false, pattern := none }
      else search
    let objects ← RequestM.lift
      (r.fetchObjects (← get).store template search.recursive search.pattern force)
    let objects ← awaitValue objects
    modify fun s => { s with saved := ObjectCost.saveMeta objects s.saved, toPostPayment := true }
    safePayment (.deleteObjectsPrefix objects)
    return .many objects

/-- `intercept_after` of the interceptor that refunds. -/
def interceptRefund (result : RequestMeta) : RequestM σ Unit := do
  updateCost (ObjectCost.postRefund r.prices r.postName (.dict result))
  let bill := (← get).cost.generateBill
  if bill.total > 0 then throw (.py (.costMoreThanZeroError bill.total))
  r.refundCreditsOf bill

/-- A request to delete. -/
def deleteRequest (template : String) (search : ObjectsSearch) (force : Bool) :
    RequestM σ Unit := do
  let result ← r.deleteObject template search force
  r.interceptRefund result

/-- `check_enough_credits`. -/
def checkEnoughCredits (purchaseCost : ℤ) : RequestM σ Unit := do
  match (← get).credits.strings (redisCreditKey "object") with
  | none => throw (.py .invalidPurchaseRequestError)
  | some balance =>
    if balance.den ≠ 1 then throw (.py .valueError)
    if balance.num ≤ 0 ∨ balance.num < purchaseCost then
      throw (.py (.insufficientCreditsError balance.num purchaseCost (redisCreditKey "object")))

/-- The interceptor that `copy_object` calls by hand, before and after. -/
def interceptPurchase (o : Object) : RequestM σ Unit := do
  updateCost fun c => .ok (ObjectCost.prePurchase r.prices o c)
  let cost := (← get).cost
  if cost.lastTotal < 0 then throw (.py (.costLessThanZeroError cost.generateBill.total))
  checkEnoughCredits cost.generateBill.total
  updateCost fun c => .ok (ObjectCost.prePurchase r.prices o c.resetBill)
  let cost := (← get).cost
  if cost.generateBill.total < 0 then throw (.py (.costLessThanZeroError cost.lastTotal))
  let s ← get
  let (result, credits) := deductCreditsDb r.cfg "object" cost.generateBill r.now 20 s.credits
  set { s with credits := credits }
  let _ ← RequestM.lift (result.mapError .py)

/-- `ObjectS3Service.copy_object`; the `stat_objet` at its end lacks an argument. -/
def copyStored (source destination : String) (versionId : Option String) (move : Bool) :
    RequestM σ Unit := do
  let s ← get
  let store ← RequestM.lift (r.copy s.store source destination versionId)
  set { s with store := store }
  if move then modify fun s => { s with store := r.remove s.store source versionId }
  throw (.py .typeError)

/-- The destination of a copy. -/
def destination (template dest : String) : ObjectM String := do
  let isFile ← r.freeInput dest
  let dest ←
    if isFile then
      if suffix template ≠ suffix dest then throw .extensionNotAllowedError
      pure dest
    else do
      let dest := if dest.toList.getLast? = some '/' then dest else dest ++ "/"
      if suffix template = [] then throw (.py .valueError)
      pure (dest ++ String.ofList (pathName template))
  if assetType template ≠ assetType dest then throw .assetTypeNotAllowedError
  return dest

/-- `copy_object`. The call of `stat_objet` gives neither a name nor a version. -/
def copyObject (template dest : String) (search : ObjectsSearch) (move : Bool) :
    RequestM σ Unit := do
  let dest ← RequestM.lift (r.destination template dest)
  let info : Object ← throw (.py .typeError)
  if move then r.copyStored template dest search.versionId move
  else
    r.interceptPurchase info
    safePayment (.copyObject template dest search.versionId move)

/-! ## The tasks -/

/-- `Merchant.refund`. -/
def merchantRefund (factor : ℤ) : RequestM σ Unit := do
  let bill := (← get).cost.generateBill
  r.refundCreditsOf { bill with
    total := bill.total * factor
    refundType := some (if factor = 1 then "Cancelling a purchase"
      else "Cancelling a reimbursement") }

/-- Iterating over what `remove_objects` returns, which deletes the objects by their names. -/
def iterateErrors (objects : List Object) (store : σ) : List DeleteError × σ :=
  objects.foldl (fun (errors, store) o =>
    if r.fails o then (errors ++ [⟨o.objectName, none⟩], store)
    else (errors, r.remove store o.objectName none)) ([], store)

/-- The call of the function a task was given. What `remove_objects` returns has not deleted
anything yet. -/
def perform : ObjectTask → RequestM σ (List Object)
  | .deleteObject name versionId => do
    let s ← get
    let info ← RequestM.lift (r.statObject s.store name (some versionId) false)
    if r.fails info then throw (.s3Error "AccessDenied")
    set { s with store := r.remove s.store name (some versionId) }
    return []
  | .deleteObjectsPrefix objects => return objects
  | .copyObject source dest versionId move => do
    r.copyStored source dest versionId move
    return []

/-- The wrapper of `safe_payment`. -/
def runTask (factor : ℤ) (task : ObjectTask) : RequestM σ Unit :=
  tryCatch
    (do
      let objects ← r.perform task
      if (← get).toPostPayment then
        tryCatch
          (do
            modify fun s => { s with cost := s.cost.resetBill }
            let s ← get
            let (errors, store) := r.iterateErrors objects s.store
            set { s with store := store }
            updateCost fun c => .ok (ObjectCost.postPayment r.prices s.saved errors c)
            r.merchantRefund factor)
          fun _ => pure ())
    fun _ => do
      modify fun s => { s with cost := s.cost.resetBill }
      updateCost (ObjectCost.postRefund r.prices r.postName .model)
      r.merchantRefund factor

/-- A request from its beginning to the end of its tasks, which run only if it has succeeded. -/
def serve (factor : ℤ) (request : RequestM σ Unit) (s : RequestState σ) : RequestState σ :=
  match request.run s with
  | (.ok _, s') => ((s'.tasks.forM (r.runTask factor)).run s').2
  | (.error _, s') => s'

end ObjectRoutes

/-! ## What a request should do -/

/-- A request of one of the two routes. -/
inductive ObjectRequest
  | delete (template : String) (search : ObjectsSearch) (force : Bool)
  | copy (template dest : String) (search : ObjectsSearch) (move : Bool)

namespace ObjectRoutes

variable {σ : Type} (r : ObjectRoutes σ)

/-- The route of a request, with the factor of its `MerchantPipe`. -/
def handle : ObjectRequest → RequestState σ → RequestState σ
  | .delete template search force => r.serve (-1) (r.deleteRequest template search force)
  | .copy template dest search move => r.serve 1 (r.copyObject template dest search move)

/-- The objects a request is to delete: a version of one, or those that are found. -/
def matched (store : σ) : ObjectRequest → List Object
  | .delete template search force =>
    match search.versionId.filter (· ≠ "") with
    | some versionId =>
      match r.statObject store template (some versionId) true with
      | .ok o => [o]
      | .error _ => []
    | none =>
      let search := if search.isFile then { search with recursive := false, pattern := none }
        else search
      match r.fetchObjects store template search.recursive search.pattern force with
      | .ok objects => objects
      | .error _ => []
  | .copy .. => []

/-- What an object costs. -/
def objectPrice (o : Object) : ℤ :=
  pricesTotal (r.prices.computePrices r.postName o.objectName (some o.size))

/-- A name and version that the server answers for. -/
def Holds (store : σ) (name : String) (versionId : Option String) : Prop :=
  ∃ info, r.client.statObject store assetsBucket name versionId = .ok info

/-- The balance of the object credits. -/
def balance (s : RequestState σ) : ℚ := s.credits.balance (redisCreditKey "object")

/-- All of `objects` are deleted but those whose deletion fails, nothing else is, and the credits
of exactly these come back. -/
structure DeleteRight (before after : RequestState σ) (objects : List Object) : Prop where
  deleted : ∀ name versionId, r.Holds after.store name versionId ↔
    r.Holds before.store name versionId ∧
      ¬ ∃ o ∈ objects, r.fails o = false ∧ o.objectName = name ∧ o.versionId = versionId
  credited : balance after =
    balance before + (((objects.filter fun o => !r.fails o).map r.objectPrice).sum : ℤ)

/-- Nothing happens, or an object is copied and paid; moving one is free. -/
def CopyRight (before after : RequestState σ) (template dest : String) (search : ObjectsSearch)
    (move : Bool) : Prop :=
  (after.store = before.store ∧ balance after = balance before) ∨
    ∃ target o store, r.destination template dest = .ok target ∧
      r.client.statObject before.store assetsBucket template search.versionId = .ok o ∧
      r.copy before.store template target search.versionId = .ok store ∧
      after.store = (if move then r.remove store template search.versionId else store) ∧
      balance after = balance before - if move then 0 else (r.objectPrice o : ℚ)

/-- The promise of a request. -/
def RequestRight (s : RequestState σ) (request : ObjectRequest) : Prop :=
  match request with
  | .delete .. => r.DeleteRight s (r.handle request s) (r.matched s.store request)
  | .copy template dest search move => r.CopyRight s (r.handle request s) template dest search move

end ObjectRoutes

/-! ## Requests that raise -/

/-- It changes neither the store nor the credits. -/
def RequestM.Keeps {σ α : Type} (x : RequestM σ α) : Prop :=
  ∀ s, (x.run s).2.store = s.store ∧ (x.run s).2.credits = s.credits

/-- It raises, and changes neither. -/
def RequestM.Fails {σ α : Type} (x : RequestM σ α) : Prop :=
  ∀ s, ∃ e s', x.run s = (.error e, s') ∧ s'.store = s.store ∧ s'.credits = s.credits

namespace RequestM

variable {σ α β : Type} {x : RequestM σ α} {f : α → RequestM σ β}

theorem run_bind (x : RequestM σ α) (f : α → RequestM σ β) (s : RequestState σ) :
    (x >>= f).run s =
      match x.run s with
      | (.ok a, s') => (f a).run s'
      | (.error e, s') => (.error e, s') := by
  rw [ExceptT.run_bind]
  unfold bind Monad.toBind StateT.instMonad StateT.bind
  dsimp only
  rcases (x.run s : Except ObjectError α × RequestState σ) with ⟨_ | a, s'⟩
  · rfl
  · rfl

theorem keeps_get : Keeps (get : RequestM σ (RequestState σ)) := fun _ => ⟨rfl, rfl⟩

theorem keeps_lift (r : ObjectM α) : Keeps (lift r : RequestM σ α) := by
  intro s
  cases r with
  | ok a => exact ⟨rfl, rfl⟩
  | error e => exact ⟨rfl, rfl⟩

theorem keeps_safePayment (task : ObjectTask) :
    Keeps (ObjectRoutes.safePayment task : RequestM σ Unit) := fun _ => ⟨rfl, rfl⟩

theorem fails_throw (e : ObjectError) : Fails (throw e : RequestM σ α) :=
  fun s => ⟨e, s, rfl, rfl, rfl⟩

/-- What raises first ends the computation. -/
theorem Fails.bind (hx : Fails x) (f : α → RequestM σ β) : Fails (x >>= f) := by
  intro s
  obtain ⟨e, s', hrun, hkeep⟩ := hx s
  exact ⟨e, s', by rw [run_bind, hrun], hkeep⟩

/-- What changes nothing may come first. -/
theorem Keeps.bind_fails (hx : Keeps x) (hf : ∀ a, Fails (f a)) : Fails (x >>= f) := by
  intro s
  rw [run_bind]
  obtain ⟨hstore, hcredits⟩ := hx s
  rcases hrun : (x.run s : Except ObjectError α × RequestState σ) with ⟨e | a, s'⟩
  · rw [hrun] at hstore hcredits
    exact ⟨e, s', rfl, hstore, hcredits⟩
  · rw [hrun] at hstore hcredits
    obtain ⟨e, s'', hrest, hstore', hcredits'⟩ := hf a s'
    exact ⟨e, s'', hrest, hstore'.trans hstore, hcredits'.trans hcredits⟩

end RequestM

namespace ObjectRoutes

open RequestM

variable {σ : Type} {r : ObjectRoutes σ} {s : RequestState σ}

theorem updateCost_fails {e : ObjectError} {f : Cost → ObjectM Cost} (hf : ∀ c, f c = .error e) :
    Fails (updateCost f : RequestM σ Unit) := by
  refine keeps_get.bind_fails fun s => Fails.bind ?_ _
  rw [hf]
  exact fails_throw e

/-- The refund of one object raises: it is not a list. -/
theorem interceptRefund_fails (o : Object) : Fails (r.interceptRefund (.one o)) :=
  Fails.bind (updateCost_fails fun _ => rfl) _

theorem deleteRequest_fails (template : String) (search : ObjectsSearch) (force : Bool) :
    Fails (r.deleteRequest template search force) := by
  unfold deleteRequest deleteObject
  cases search.versionId.filter (· ≠ "") with
  | some versionId =>
    simp only [bind_assoc, pure_bind]
    exact keeps_get.bind_fails fun _ => (keeps_lift _).bind_fails fun info =>
      (keeps_safePayment _).bind_fails fun _ => interceptRefund_fails info
  | none =>
    simp only [bind_assoc]
    exact keeps_get.bind_fails fun _ => (keeps_lift _).bind_fails fun _ =>
      (fails_throw _).bind _

theorem copyObject_fails (template dest : String) (search : ObjectsSearch) (move : Bool) :
    Fails (r.copyObject template dest search move) :=
  (keeps_lift _).bind_fails fun _ => (fails_throw _).bind _

/-- The tasks of a request that raises are not run. -/
theorem serve_fails {factor : ℤ} {request : RequestM σ Unit} (h : Fails request) :
    (r.serve factor request s).store = s.store ∧
      (r.serve factor request s).credits = s.credits := by
  obtain ⟨e, s', hrun, hkeep⟩ := h s
  unfold serve
  rw [hrun]
  exact hkeep

/-- No request changes the store or the credits. -/
theorem handle_eq (request : ObjectRequest) :
    (r.handle request s).store = s.store ∧ (r.handle request s).credits = s.credits := by
  cases request with
  | delete template search force => exact serve_fails (deleteRequest_fails _ _ _)
  | copy template dest search move => exact serve_fails (copyObject_fails _ _ _ _)

/-- What a request is to delete is there. -/
theorem matched_holds {request : ObjectRequest} {o : Object} (ho : o ∈ r.matched s.store request) :
    r.Holds s.store o.objectName o.versionId := by
  cases request with
  | copy => cases ho
  | delete template search force =>
    dsimp only [matched] at ho
    cases hversion : search.versionId.filter (· ≠ "") with
    | some versionId =>
      rw [hversion] at ho
      dsimp only at ho
      cases hstat : r.statObject s.store template (some versionId) true with
      | error e => rw [hstat] at ho; cases ho
      | ok info =>
        rw [hstat] at ho
        obtain rfl := List.mem_singleton.mp ho
        obtain ⟨-, -, hinfo⟩ := bind_ok hstat
        obtain ⟨hname, hid⟩ := r.statObject_name hinfo
        rw [hname, hid (Option.some_ne_none _)]
        exact ⟨o, hinfo⟩
    | none =>
      rw [hversion] at ho
      dsimp only at ho
      split at ho
      case h_2 => cases ho
      case h_1 objects hfetch =>
        obtain ⟨listed, hlist, hfetch⟩ := bind_ok hfetch
        dsimp only at hfetch
        split at hfetch
        · cases hfetch
        cases hfetch
        obtain ⟨stored, hstored, hlist⟩ := bind_ok hlist
        cases hlist
        obtain ⟨hmem, hkept⟩ := List.mem_filter.mp ho
        simp only [Bool.and_eq_true, Bool.or_eq_true, Bool.not_eq_true', Bool.false_eq_true,
          false_or] at hkept
        exact r.stat_of_listed hstored o hmem hkept.1.2 hkept.2

/-- **What is deleted is credited, and what is copied is paid** exactly if nothing is deleted: a
request does what it should if and only if every object it is to delete is one whose deletion
fails. -/
theorem requestRight_iff (r : ObjectRoutes σ) (s : RequestState σ) (request : ObjectRequest) :
    r.RequestRight s request ↔ ∀ o ∈ r.matched s.store request, r.fails o = true := by
  obtain ⟨hstore, hcredits⟩ := r.handle_eq (s := s) request
  have hbalance : balance (r.handle request s) = balance s := by
    unfold balance
    rw [hcredits]
  cases request with
  | copy template dest search move => exact iff_of_true (.inl ⟨hstore, hbalance⟩) nofun
  | delete template search force =>
    constructor
    · intro hright o ho
      by_contra hfails
      rw [Bool.not_eq_true] at hfails
      have hafter := (hright.deleted o.objectName o.versionId).mp (hstore ▸ matched_holds ho)
      exact hafter.2 ⟨o, ho, hfails, rfl, rfl⟩
    · intro hall
      constructor
      · intro name versionId
        rw [hstore, iff_self_and]
        rintro - ⟨o, ho, hfails, -⟩
        rw [hall o ho] at hfails
        cases hfails
      · have hnone : (r.matched s.store (.delete template search force)).filter
            (fun o => !r.fails o) = [] := by
          rw [List.filter_eq_nil_iff]
          intro o ho
          rw [hall o ho]
          decide
        rw [hbalance, hnone]
        simp

end ObjectRoutes

/-! ## A request on one object -/

/-- The routes over a server that refuses nothing. -/
def memoryRoutes : ObjectRoutes (List StoredObject) where
  toObjectS3Service := memoryRessource.toObjectS3Service
  cfg := { costFlag := true, creditOverdraftAllowed := false }
  now := (2025, 1)
  prices := FileIngestCost.init { maxFileSize := 10, maxFileSizeExtraPerMb := 1 }
  postName := "<bound method FileCost.<lambda>>"
  freeInput template := .ok (suffix template ≠ [])
  fails _ := false
  remove s name _ := s.filter fun o => o.name ≠ name
  copy s source dest _ :=
    match s.find? fun o => o.name == source with
    | some o => .ok ({ o with name := dest } :: s)
    | none => .error (.s3Error "NoSuchKey")
  stat_of_listed := by
    intro s namePrefix recursive includeVersion objects h o ho _ _
    cases h
    obtain ⟨stored, hstored, rfl⟩ := List.mem_map.mp ho
    obtain ⟨hmem, hkept⟩ := List.mem_filter.mp hstored
    simp only [Bool.and_eq_true, beq_iff_eq] at hkept
    obtain ⟨found, hfound⟩ := exists_findStored hmem
    rw [hkept.1.1] at hfound
    exact ⟨_, congrArg (Except.map _) hfound⟩
  statObject_name := by
    intro s name versionId info h
    cases versionId with
    | some versionId => cases h
    | none =>
      obtain ⟨o, hfound, rfl⟩ := map_ok (h : (findStored s assetsBucket name).map _ = _)
      exact ⟨findStored_ok hfound, fun hsome => absurd rfl hsome⟩

/-- One object, and credits to give back to. -/
def oneObject : RequestState (List StoredObject) where
  store := [⟨assetsBucket, "email/a.css", encodeUtf8 "hello", false⟩]
  credits :=
    { strings := fun _ => some 100
      lists := fun _ => [] }
  cost :=
    { issuer := "admin", requestId := "1", createdAt := "", creditKey := "object", plan := none,
      version := none }
  saved := .empty
  toPostPayment := false
  tasks := []

/-- A request to delete it deletes nothing. -/
theorem not_requestRight_hello :
    ¬ memoryRoutes.RequestRight oneObject
      (.delete "email/a.css" ⟨true, none, none, false, true⟩ false) := by
  intro hright
  have hstore := (memoryRoutes.handle_eq (s := oneObject)
    (.delete "email/a.css" ⟨true, none, none, false, true⟩ false)).1
  have hafter := ((ObjectRoutes.DeleteRight.deleted hright) "email/a.css" none).mp
    (hstore ▸ ⟨_, rfl⟩)
  exact hafter.2 ⟨_, List.mem_singleton_self _, rfl, rfl, rfl⟩

end Notifyr
