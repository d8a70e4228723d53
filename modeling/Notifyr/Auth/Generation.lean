import Notifyr.Auth.Token
import Notifyr.Theory.NestedDict
import Notifyr.Theory.Runs

/-!
# Generations of tokens

`revoke_all_tokens` and `unrevoke_all_tokens` of `JWTAuthService`
(`app/services/security_service.py`) over the version history that `KV2VaultEngine`
(`app/classes/vault_engine.py`) keeps of the generation id.

- `Kv2`: the versioned secret, as far as the engine relies on it.
- `KvStore.read`, `put`, `undelete`, `delete`, `destroy`, `rollback`: the engine.
- `JwtAuth`: the service; `GenerationOp`: what is asked of it.
- `GenerationRight`: what a step should do: the id, the tokens that are accepted, the versions.
- `generationRight_run_iff`: a run is right at every step exactly if no id is drawn twice and no
  version is unrevoked that holds one.
-/

namespace Notifyr

open Theory NestedDict

variable {σ : Type}

/-! ## The versioned secret -/

/-- The data of a secret, as JSON. -/
abbrev KvData := Entries String Claim

/-- A version of a secret. -/
inductive KvVersion
  | absent
  | live (data : KvData)
  | deleted (data : KvData)
  | destroyed

/-- The data a version holds; deleted data can be restored. -/
def KvVersion.held : KvVersion → Option KvData
  | .live data => some data
  | .deleted data => some data
  | .absent => none
  | .destroyed => none

/-- The key-value store of the vault, at the path of the secret. Putting makes a version; the
oldest ones may then be dropped. -/
structure Kv2 (σ : Type) where
  latest : σ → ℕ
  version : σ → ℕ → KvVersion
  metadata : σ → ℕ → KvData
  /-- Whether a version is still there after the next one. -/
  keeps : σ → ℕ → Bool
  put : σ → KvData → σ
  deleteVersions : σ → List ℤ → σ
  destroyVersions : σ → List ℤ → σ
  undeleteVersions : σ → List ℤ → σ
  latest_put : ∀ s data, latest (put s data) = latest s + 1
  version_put_latest : ∀ s data, version (put s data) (latest s + 1) = .live data
  version_put : ∀ s data n, n ≤ latest s →
    version (put s data) n = if keeps s n then version s n else .absent

/-- What the client or the engine raises. -/
inductive KvExc
  /-- `hvac.exceptions.InvalidPath`. -/
  | invalidPath
  /-- `hvac.exceptions.ParamValidationError`. -/
  | paramValidationError
  | valueError
  deriving DecidableEq

/-! ## The engine -/

/-- A computation on the vault, which keeps what it has changed when it raises. -/
abbrev KvM (σ : Type) := ExceptT KvExc (StateM σ)

/-- An argument in the place of a list of versions, or of a flag. -/
inductive PyArg
  | bool (b : Bool)
  | ints (l : List ℤ)

/-- `bool(a)`. -/
def PyArg.truthy : PyArg → Bool
  | .bool b => b
  | .ints l => !l.isEmpty

namespace Kv2

variable (kv : Kv2 σ)

/-- The version that is asked for; without one, and with zero, the current one. -/
def resolve (s : σ) (version : Option ℤ) : KvVersion :=
  match version with
  | none => kv.version s (kv.latest s)
  | some 0 => kv.version s (kv.latest s)
  | some (.ofNat n) => kv.version s n
  | some (.negSucc _) => .absent

/-- Its number. -/
def number (s : σ) (version : Option ℤ) : ℕ :=
  match version with
  | none => kv.latest s
  | some v => if v = 0 then kv.latest s else v.toNat

/-- What an answer has under `data`. -/
def response (data metadata : KvData) : KvData :=
  [("data", .dict data), ("metadata", .dict metadata)]

/-- What reading a version of the secret gives; one that is deleted is not found. -/
def readAt (s : σ) (version : Option ℤ) : Except KvExc KvData :=
  match kv.resolve s version with
  | .live data => .ok (response data (kv.metadata s (kv.number s version)))
  | _ => .error .invalidPath

/-- `read`. -/
def read (version : Option ℤ) : KvM σ KvData := ExceptT.mk fun s => (kv.readAt s version, s)

/-- `put`. -/
def putSecret (data : KvData) : KvM σ Unit := modify fun s => kv.put s data

/-- The client takes a list of versions that is not empty. -/
def withVersions (versions : PyArg) (f : σ → List ℤ → σ) : KvM σ Unit :=
  match versions with
  | .ints [] => throw .paramValidationError
  | .ints l => modify fun s => f s l
  | .bool _ => throw .paramValidationError

/-- `undelete`. -/
def undelete (versions : PyArg) : KvM σ Bool := do
  if !versions.truthy then throw .valueError
  withVersions versions kv.undeleteVersions
  return true

/-- `delete`; without versions, of the latest one. -/
def delete (versions : PyArg) : KvM σ Unit :=
  if versions.truthy then withVersions versions kv.deleteVersions
  else modify fun s => kv.deleteVersions s [kv.latest s]

/-- `destroy`. -/
def destroy (versions : PyArg) : KvM σ Unit := withVersions versions kv.destroyVersions

/-- The data of a version; one without any is undeleted. -/
def oldData (version : Option ℤ) : KvM σ KvData := do
  let oldData ← kv.read version
  if oldData = [] then
    if !(← kv.undelete (.ints [version.getD 0])) then throw .valueError
    kv.read version
  else return oldData

/-- What `rollback` removes after it. -/
def removeOthers (otherVersionToDelete destroy delete : PyArg) : KvM σ Unit :=
  if destroy.truthy && otherVersionToDelete.truthy then kv.destroy otherVersionToDelete
  else if delete.truthy && otherVersionToDelete.truthy then kv.delete otherVersionToDelete
  else pure ()

/-- `rollback(sub_mount, path, version, other_version_to_delete, destroy, delete)`. -/
def rollback (version : Option ℤ) (otherVersionToDelete destroy delete : PyArg) :
    KvM σ Unit := do
  kv.putSecret (← kv.oldData version)
  kv.removeOthers otherVersionToDelete destroy delete

end Kv2

/-! ## The service -/

/-- The vault and `generation_id_data`. -/
structure JwtAuth (σ : Type) where
  vault : σ
  generationIdData : KvData

/-- The generation id among some data. -/
def idOf (data : KvData) : Option String :=
  match data.lookup "GENERATION_ID" with
  | some (.atom (.text id)) => some id
  | _ => none

/-- `GENERATION_ID`. -/
def JwtAuth.generationId (a : JwtAuth σ) : Option String :=
  match a.generationIdData.lookup "data" with
  | some (.dict data) => idOf data
  | _ => none

/-- A call of the service: the vault is as it was left, the data is read if nothing is raised. -/
def JwtAuth.call (kv : Kv2 σ) (a : JwtAuth σ) (x : KvM σ Unit) : Except KvExc Unit × JwtAuth σ :=
  match (do x; kv.read none : KvM σ KvData).run a.vault with
  | (.ok data, vault) => (.ok (), ⟨vault, data⟩)
  | (.error e, vault) => (.error e, { a with vault })

/-- What is asked of the service; a revocation draws a new id. -/
inductive GenerationOp
  | revoke (newGenerationId : String)
  | unrevoke (version : Option ℤ) (destroy delete : Bool) (versionToDelete : List ℤ)

/-- `revoke_all_tokens` and `unrevoke_all_tokens`. The latter gives its arguments to `rollback`
by position: `destroy` where the versions are expected, `delete` where `destroy` is, and the
versions where `delete` is. -/
def JwtAuth.perform (kv : Kv2 σ) (a : JwtAuth σ) : GenerationOp → Except KvExc Unit × JwtAuth σ
  | .revoke newGenerationId =>
    a.call kv (kv.putSecret [("GENERATION_ID", .atom (.text newGenerationId))])
  | .unrevoke version destroy delete versionToDelete =>
    a.call kv (kv.rollback version (.bool destroy) (.bool delete) (.ints versionToDelete))

/-! ## What a step should do -/

/-- `verify_auth_permission` accepts a token with these claims. -/
def Accepts (env : JwtEnv) (generationId : Option String) (token : Claims) (now : ℚ) : Prop :=
  ∃ permission, checkAuth { env with generationId } token now = .ok (some permission)

/-- The claims of an authentication token that was issued under a generation id. -/
def Carries (env : JwtEnv) (generationId : Option String) (token : Claims) : Prop :=
  ∃ authzId clientId challenge groupId made salt,
    token = (TokenRequest.auth authzId clientId challenge groupId).permission
      { env with generationId } made salt

/-- What is to become of a version: destroyed or deleted if that is requested. -/
def KvVersion.requested (v : KvVersion) (destroy delete : Bool) (versionToDelete : List ℤ)
    (n : ℕ) : KvVersion :=
  if (n : ℤ) ∈ versionToDelete then
    match destroy, delete, v with
    | _, _, .absent => .absent
    | true, _, _ => .destroyed
    | false, true, .live data => .deleted data
    | false, _, v => v
  else v

/-- The service, and the ids that have been current. -/
structure GenerationWorld (σ : Type) where
  auth : JwtAuth σ
  past : List (Option String)

/-- A step; the id that is current after it is recorded. -/
def GenerationWorld.step (kv : Kv2 σ) (w : GenerationWorld σ) (op : GenerationOp) :
    GenerationWorld σ :=
  let auth := (w.auth.perform kv op).2
  ⟨auth, auth.generationId :: w.past⟩

/-- After a revocation the id is the new one, and no token that was issued before is accepted.
After a version is unrevoked that holds data, its id is current, the tokens that carry it are
accepted and no others, and of the versions before those are gone that were requested. Where the
version holds nothing, nothing changes. -/
def GenerationRight (kv : Kv2 σ) (env : JwtEnv) (w : GenerationWorld σ) (op : GenerationOp) :
    Prop :=
  let r := w.auth.perform kv op
  match op with
  | .revoke newGenerationId =>
    r.1 = .ok () ∧ r.2.generationId = some newGenerationId ∧
      ∀ carried ∈ w.auth.generationId :: w.past, ∀ token now, Carries env carried token →
        ¬ Accepts env r.2.generationId token now
  | .unrevoke version destroy delete versionToDelete =>
    match (kv.resolve w.auth.vault version).held with
    | none => r.2 = w.auth
    | some data =>
      r.1 = .ok () ∧ r.2.generationId = idOf data ∧
        (∀ carried token now, Carries env carried token →
          (Accepts env r.2.generationId token now ↔ carried = idOf data)) ∧
        ∀ n ≤ kv.latest w.auth.vault, kv.version r.2.vault n =
          if kv.keeps w.auth.vault n then
            (kv.version w.auth.vault n).requested destroy delete versionToDelete n
          else .absent

/-- An id is drawn that was not current before; a version is unrevoked that holds nothing, or that
is live, has no id (an earlier rollback left it) and is unrevoked without any removal. -/
def GenerationGuard (kv : Kv2 σ) (w : GenerationWorld σ) : GenerationOp → Prop
  | .revoke newGenerationId => some newGenerationId ∉ w.auth.generationId :: w.past
  | .unrevoke version destroy delete versionToDelete =>
    ∀ data, (kv.resolve w.auth.vault version).held = some data →
      kv.resolve w.auth.vault version = .live data ∧ idOf data = none ∧
        ¬ (destroy = true ∧ (delete = true ∨ versionToDelete ≠ [])) ∧
        ∀ n ≤ kv.latest w.auth.vault, kv.keeps w.auth.vault n = true →
          (kv.version w.auth.vault n).requested destroy delete versionToDelete n =
            kv.version w.auth.vault n

/-! ## What a step does -/

section Steps

variable (kv : Kv2 σ)

theorem Kv2.readAt_live {s : σ} {version : Option ℤ} {data : KvData}
    (h : kv.resolve s version = .live data) :
    ∃ metadata, kv.readAt s version = .ok (Kv2.response data metadata) := by
  unfold Kv2.readAt
  rw [h]
  exact ⟨_, rfl⟩

theorem Kv2.readAt_not_live {s : σ} {version : Option ℤ}
    (h : ∀ data, kv.resolve s version ≠ .live data) :
    kv.readAt s version = .error .invalidPath := by
  unfold Kv2.readAt
  cases hv : kv.resolve s version with
  | live data => exact absurd hv (h data)
  | absent => rfl
  | deleted data => rfl
  | destroyed => rfl

/-- What was put is current. -/
theorem Kv2.resolve_put (s : σ) (data : KvData) : kv.resolve (kv.put s data) none = .live data := by
  show kv.version (kv.put s data) (kv.latest (kv.put s data)) = _
  rw [kv.latest_put, kv.version_put_latest]

/-- A call that puts some data makes it current. -/
theorem JwtAuth.call_put (a : JwtAuth σ) (data : KvData) :
    ∃ metadata, a.call kv (kv.putSecret data) =
      (.ok (), ⟨kv.put a.vault data, Kv2.response data metadata⟩) := by
  obtain ⟨metadata, hread⟩ := kv.readAt_live (kv.resolve_put a.vault data)
  refine ⟨metadata, ?_⟩
  have hrun : (do kv.putSecret data; kv.read none : KvM σ KvData).run a.vault =
      (kv.readAt (kv.put a.vault data) none, kv.put a.vault data) := rfl
  unfold JwtAuth.call
  rw [hrun, hread]

/-- A revocation puts the new id. -/
theorem JwtAuth.perform_revoke (a : JwtAuth σ) (newGenerationId : String) :
    ∃ metadata, a.perform kv (.revoke newGenerationId) =
      (.ok (), ⟨kv.put a.vault [("GENERATION_ID", .atom (.text newGenerationId))],
        Kv2.response [("GENERATION_ID", .atom (.text newGenerationId))] metadata⟩) :=
  a.call_put kv _

/-- The flags with which the client is given a flag for the versions. -/
def Misplaced (destroy delete : Bool) (versionToDelete : List ℤ) : Prop :=
  destroy = true ∧ (delete = true ∨ versionToDelete ≠ [])

instance (destroy delete : Bool) (versionToDelete : List ℤ) :
    Decidable (Misplaced destroy delete versionToDelete) := inferInstanceAs (Decidable (_ ∧ _))

/-- With its arguments misplaced, `rollback` removes nothing: it raises, or is asked for
nothing. -/
theorem Kv2.run_removeOthers (s : σ) (destroy delete : Bool) (versionToDelete : List ℤ) :
    (kv.removeOthers (.bool destroy) (.bool delete) (.ints versionToDelete)).run s =
      (if Misplaced destroy delete versionToDelete then .error .paramValidationError else .ok (),
        s) := by
  cases destroy with
  | false =>
    have hnot : ¬ Misplaced false delete versionToDelete := fun h => Bool.false_ne_true h.1
    rw [if_neg hnot]
    cases delete with
    | false => cases versionToDelete <;> rfl
    | true => cases versionToDelete <;> rfl
  | true =>
    cases delete with
    | true =>
      have hyes : Misplaced true true versionToDelete := ⟨rfl, .inl rfl⟩
      rw [if_pos hyes]
      rfl
    | false =>
      cases versionToDelete with
      | nil =>
        have hnot : ¬ Misplaced true false [] := by decide
        rw [if_neg hnot]
        rfl
      | cons v rest =>
        have hyes : Misplaced true false (v :: rest) := ⟨rfl, .inr (List.cons_ne_nil v rest)⟩
        rw [if_pos hyes]
        rfl

theorem KvM.run_bind {α β : Type} (x : KvM σ α) (f : α → KvM σ β) (s : σ) :
    (x >>= f).run s =
      match x.run s with
      | (.ok a, s') => (f a).run s'
      | (.error e, s') => (.error e, s') := by
  rw [ExceptT.run_bind]
  unfold bind Monad.toBind StateT.instMonad StateT.bind
  dsimp only
  rcases (x.run s : Except KvExc α × σ) with ⟨_ | a, s'⟩
  · rfl
  · rfl

theorem Kv2.run_read (s : σ) (version : Option ℤ) :
    (kv.read version).run s = (kv.readAt s version, s) := rfl

/-- A rollback that is called so puts the whole answer. -/
theorem Kv2.run_rollback {s : σ} {version : Option ℤ} {data metadata : KvData}
    (h : kv.readAt s version = .ok (Kv2.response data metadata)) (destroy delete : Bool)
    (versionToDelete : List ℤ) :
    (kv.rollback version (.bool destroy) (.bool delete) (.ints versionToDelete)).run s =
      (if Misplaced destroy delete versionToDelete then .error .paramValidationError else .ok (),
        kv.put s (Kv2.response data metadata)) := by
  have hold : (kv.oldData version).run s = (.ok (Kv2.response data metadata), s) := by
    unfold Kv2.oldData
    rw [KvM.run_bind, Kv2.run_read, h]
    rfl
  unfold Kv2.rollback
  rw [KvM.run_bind, hold]
  exact kv.run_removeOthers _ destroy delete versionToDelete

theorem Kv2.run_rollback_error {s : σ} {version : Option ℤ} {e : KvExc}
    (h : kv.readAt s version = .error e) (other destroy delete : PyArg) :
    (kv.rollback version other destroy delete).run s = (.error e, s) := by
  have hold : (kv.oldData version).run s = (.error e, s) := by
    unfold Kv2.oldData
    rw [KvM.run_bind, Kv2.run_read, h]
  unfold Kv2.rollback
  rw [KvM.run_bind, hold]

/-- A version that can be read is put back inside an answer; a flag in the wrong place raises
after that. -/
theorem JwtAuth.perform_unrevoke_live (a : JwtAuth σ) {version : Option ℤ} {data : KvData}
    (h : kv.resolve a.vault version = .live data) (destroy delete : Bool)
    (versionToDelete : List ℤ) :
    ∃ metadata metadata', a.perform kv (.unrevoke version destroy delete versionToDelete) =
      if Misplaced destroy delete versionToDelete then
        (.error .paramValidationError,
          { a with vault := kv.put a.vault (Kv2.response data metadata) })
      else (.ok (), ⟨kv.put a.vault (Kv2.response data metadata),
        Kv2.response (Kv2.response data metadata) metadata'⟩) := by
  obtain ⟨metadata, hread⟩ := kv.readAt_live h
  obtain ⟨metadata', hafter⟩ :=
    kv.readAt_live (kv.resolve_put a.vault (Kv2.response data metadata))
  refine ⟨metadata, metadata', ?_⟩
  unfold JwtAuth.perform JwtAuth.call
  dsimp only
  rw [KvM.run_bind, kv.run_rollback hread destroy delete versionToDelete]
  by_cases hmis : Misplaced destroy delete versionToDelete
  · rw [if_pos hmis, if_pos hmis]
  · rw [if_neg hmis, if_neg hmis]
    dsimp only
    rw [Kv2.run_read, hafter]

/-- Any other version is not found, and nothing changes. -/
theorem JwtAuth.perform_unrevoke_not_live (a : JwtAuth σ) {version : Option ℤ}
    (h : ∀ data, kv.resolve a.vault version ≠ .live data) (destroy delete : Bool)
    (versionToDelete : List ℤ) :
    a.perform kv (.unrevoke version destroy delete versionToDelete) =
      (.error .invalidPath, a) := by
  unfold JwtAuth.perform JwtAuth.call
  dsimp only
  rw [KvM.run_bind, kv.run_rollback_error (kv.readAt_not_live h)]

/-! ## Tokens -/

theorem optional_inj {g g' : Option String} :
    TokenRequest.optional g = g'.elim .null .text ↔ g = g' := by
  cases g with
  | none =>
    cases g' with
    | none => exact iff_of_true rfl rfl
    | some id' =>
      refine iff_of_false ?_ ?_
      · rintro ⟨⟩
      · rintro ⟨⟩
  | some id =>
    cases g' with
    | none =>
      refine iff_of_false ?_ ?_
      · rintro ⟨⟩
      · rintro ⟨⟩
    | some id' =>
      show Claim.text id = Claim.text id' ↔ _
      rw [Claim.text.injEq, Option.some.injEq]

/-- The keys of the claims are different. -/
theorem get?_auth (env : JwtEnv) (authzId clientId challenge : String) (groupId : Option String)
    (made : ℚ) (salt : Bytes) (k : String) :
    ((TokenRequest.auth authzId clientId challenge groupId).permission env made salt).get? k =
      List.lookup k [("generation_id", TokenRequest.optional env.generationId),
        ("created_at", .number made), ("expired_at", .number (made + env.authExpiration * (1 / 2))),
        ("salt", .text (bytesRepr salt)), ("group_id", TokenRequest.optional groupId),
        ("challenge", .text challenge), ("client_id", .text clientId),
        ("authz_id", .text authzId)] := by
  refine Dict.get?_ofEntries ?_ k
  show ["generation_id", "created_at", "expired_at", "salt", "group_id", "challenge",
    "client_id", "authz_id"].Nodup
  decide

/-- A token is accepted exactly while the id it carries is current. -/
theorem accepts_iff {env : JwtEnv} {carried current : Option String} {token : Claims} {now : ℚ}
    (h : Carries env carried token) : Accepts env current token now ↔ carried = current := by
  obtain ⟨authzId, clientId, challenge, groupId, made, salt, h⟩ := h
  have hget := get?_auth { env with generationId := carried } authzId clientId challenge groupId
    made salt
  rw [← h] at hget
  have hid : token.get? "generation_id" = some (TokenRequest.optional carried) :=
    (hget "generation_id").trans rfl
  have hcreated : token.get? "created_at" = some (.number made) := (hget "created_at").trans rfl
  have hexpired : token.get? "expired_at" =
    some (.number (made + env.authExpiration * (1 / 2))) := (hget "expired_at").trans rfl
  obtain ⟨status, hstatus⟩ : ∃ status, setStatus token now =
      .ok (token.set "status" status) := by
    unfold setStatus getNumber getItem
    rw [hexpired, hcreated]
    exact ⟨_, rfl⟩
  have hitem : getItem (token.set "status" status) "generation_id" =
      .ok (TokenRequest.optional carried) := by
    unfold getItem
    rw [Dict.get?_set_ne _ _ (by decide), hid]
  unfold Accepts checkAuth
  rw [hstatus]
  dsimp only [bind, Except.bind]
  rw [hitem, ← optional_inj]
  dsimp only
  by_cases heq : TokenRequest.optional carried = current.elim .null .text
  · rw [if_neg (not_not.mpr heq)]
    exact iff_of_true ⟨_, rfl⟩ heq
  · rw [if_pos heq]
    refine iff_of_false ?_ heq
    rintro ⟨permission, hp⟩
    cases hp

/-- There is a token for every id. -/
theorem exists_carries (env : JwtEnv) (carried : Option String) :
    ∃ token, Carries env carried token :=
  ⟨_, "", "", "", none, 0, [], rfl⟩

/-! ## Steps and runs -/

/-- A revocation is right exactly if its id is new. -/
theorem right_revoke_iff (env : JwtEnv) (w : GenerationWorld σ) (newGenerationId : String) :
    GenerationRight kv env w (.revoke newGenerationId) ↔
      GenerationGuard kv w (.revoke newGenerationId) := by
  obtain ⟨metadata, hperform⟩ := w.auth.perform_revoke kv newGenerationId
  show (_ ∧ _ ∧ _) ↔ _
  rw [hperform]
  constructor
  · rintro ⟨-, -, hrejected⟩ hmem
    obtain ⟨token, htoken⟩ := exists_carries env (some newGenerationId)
    exact hrejected _ hmem token 0 htoken ((accepts_iff htoken).mpr rfl)
  · intro hnew
    refine ⟨rfl, rfl, fun carried hmem token now htoken haccepts => ?_⟩
    have heq : carried = some newGenerationId := (accepts_iff htoken).mp haccepts
    exact hnew (heq ▸ hmem)

/-- Unrevoking a version that can be read is right exactly if it has no id, and nothing is to be
removed. -/
theorem right_unrevoke_live_iff (env : JwtEnv) (w : GenerationWorld σ) {version : Option ℤ}
    {data : KvData} (h : kv.resolve w.auth.vault version = .live data) (destroy delete : Bool)
    (versionToDelete : List ℤ) :
    GenerationRight kv env w (.unrevoke version destroy delete versionToDelete) ↔
      idOf data = none ∧ ¬ Misplaced destroy delete versionToDelete ∧
        ∀ n ≤ kv.latest w.auth.vault, kv.keeps w.auth.vault n = true →
          (kv.version w.auth.vault n).requested destroy delete versionToDelete n =
            kv.version w.auth.vault n := by
  obtain ⟨metadata, metadata', hperform⟩ :=
    w.auth.perform_unrevoke_live kv h destroy delete versionToDelete
  show (match (kv.resolve w.auth.vault version).held with
    | none => (w.auth.perform kv (.unrevoke version destroy delete versionToDelete)).2 = w.auth
    | some data => _) ↔ _
  rw [h]
  show (_ ∧ _ ∧ _ ∧ _) ↔ _
  rw [hperform]
  by_cases hmis : Misplaced destroy delete versionToDelete
  · rw [if_pos hmis]
    refine iff_of_false ?_ fun hguard => hguard.2.1 hmis
    rintro ⟨hok, -⟩
    cases hok
  · rw [if_neg hmis]
    constructor
    · rintro ⟨-, hid, -, hversions⟩
      refine ⟨hid.symm, hmis, fun n hn hkeeps => ?_⟩
      have hversion := hversions n hn
      rw [kv.version_put _ _ n hn, if_pos hkeeps, if_pos hkeeps] at hversion
      exact hversion.symm
    · rintro ⟨hid, -, hsame⟩
      refine ⟨rfl, hid.symm, fun carried token now htoken => ?_, fun n hn => ?_⟩
      · rw [accepts_iff htoken, hid]
        exact Iff.rfl
      · rw [kv.version_put _ _ n hn]
        by_cases hkeeps : kv.keeps w.auth.vault n = true
        · rw [if_pos hkeeps, if_pos hkeeps, hsame n hn hkeeps]
        · rw [if_neg hkeeps, if_neg hkeeps]

/-- A version that cannot be read is not unrevoked. -/
theorem right_unrevoke_not_live_iff (env : JwtEnv) (w : GenerationWorld σ) {version : Option ℤ}
    (h : ∀ data, kv.resolve w.auth.vault version ≠ .live data) (destroy delete : Bool)
    (versionToDelete : List ℤ) :
    GenerationRight kv env w (.unrevoke version destroy delete versionToDelete) ↔
      (kv.resolve w.auth.vault version).held = none := by
  have hperform := w.auth.perform_unrevoke_not_live kv h destroy delete versionToDelete
  show (match (kv.resolve w.auth.vault version).held with
    | none => (w.auth.perform kv (.unrevoke version destroy delete versionToDelete)).2 = w.auth
    | some data => _) ↔ _
  rw [hperform]
  cases (kv.resolve w.auth.vault version).held with
  | none => exact iff_of_true rfl rfl
  | some data =>
    refine iff_of_false ?_ ?_
    · rintro ⟨hok, -⟩
      cases hok
    · rintro ⟨⟩

theorem generationRight_iff_guard (env : JwtEnv) (w : GenerationWorld σ) (op : GenerationOp) :
    GenerationRight kv env w op ↔ GenerationGuard kv w op := by
  cases op with
  | revoke newGenerationId => exact right_revoke_iff kv env w newGenerationId
  | unrevoke version destroy delete versionToDelete =>
    by_cases hlive : ∃ data, kv.resolve w.auth.vault version = .live data
    · obtain ⟨data, hdata⟩ := hlive
      rw [right_unrevoke_live_iff kv env w hdata]
      show _ ↔ ∀ data', (kv.resolve w.auth.vault version).held = some data' → _
      rw [hdata]
      constructor
      · rintro ⟨hid, hmis, hsame⟩ data' hheld
        cases hheld
        exact ⟨rfl, hid, hmis, hsame⟩
      · intro h
        obtain ⟨-, hid, hmis, hsame⟩ := h data rfl
        exact ⟨hid, hmis, hsame⟩
    · have hnot : ∀ data, kv.resolve w.auth.vault version ≠ .live data :=
        fun data h => hlive ⟨data, h⟩
      rw [right_unrevoke_not_live_iff kv env w hnot]
      show _ ↔ ∀ data', (kv.resolve w.auth.vault version).held = some data' → _
      constructor
      · intro hnone data' hheld
        rw [hnone] at hheld
        cases hheld
      · intro h
        cases hheld : (kv.resolve w.auth.vault version).held with
        | none => rfl
        | some data' => exact absurd (h data' hheld).1 (hnot data')

/-- **A run is right at every step exactly if its steps are guarded**: no id is drawn twice, and
no version that holds an id is unrevoked. -/
theorem generationRight_run_iff (env : JwtEnv) (w : GenerationWorld σ) (ops : List GenerationOp) :
    Always (GenerationWorld.step kv) (GenerationRight kv env) w ops ↔
      Always (GenerationWorld.step kv) (GenerationGuard kv) w ops :=
  always_congr_of_inv (I := fun _ => True) (fun _ _ _ => trivial)
    (fun w op _ => generationRight_iff_guard kv env w op) trivial

end Steps

/-- The versions of a secret that keeps them all. -/
def Kv2.versions : Kv2 (List KvVersion) where
  latest s := s.length
  version s n := if n = 0 then .absent else s.getD (n - 1) .absent
  metadata _ _ := []
  keeps _ _ := true
  put s data := s ++ [.live data]
  deleteVersions s l := s.mapIdx fun i v => v.requested false true l (i + 1)
  destroyVersions s l := s.mapIdx fun i v => v.requested true false l (i + 1)
  undeleteVersions s l := s.mapIdx fun i v =>
    match v with
    | .deleted data => if ((i + 1 : ℕ) : ℤ) ∈ l then .live data else v
    | _ => v
  latest_put s data := List.length_append
  version_put_latest s data := by simp
  version_put s data n hn := by
    by_cases h0 : n = 0
    · simp [h0]
    · have hlt : n - 1 < s.length := by omega
      simp [h0, List.getElem?_append_left hlt]

/-- A service whose secret had two ids. -/
def twoGenerations : GenerationWorld (List KvVersion) where
  auth :=
    { vault := [.live [("GENERATION_ID", .atom (.text "first"))],
        .live [("GENERATION_ID", .atom (.text "second"))]]
      generationIdData := Kv2.response [("GENERATION_ID", .atom (.text "second"))] [] }
  past := [some "first"]

/-- The first id is not restored. -/
theorem first_not_restored :
    ¬ Always (GenerationWorld.step Kv2.versions) (GenerationRight Kv2.versions JwtEnv.plain)
      twoGenerations [.unrevoke (some 1) false false []] := by
  rintro ⟨⟨-, hid, -⟩, -⟩
  have hcode : ((twoGenerations.auth.perform Kv2.versions
    (.unrevoke (some 1) false false [])).2).generationId = none := rfl
  rw [hcode] at hid
  cases hid

end Notifyr
