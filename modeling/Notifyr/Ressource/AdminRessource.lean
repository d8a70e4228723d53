import Mathlib.Data.List.Dedup
import Notifyr.Ressource.Blacklist
import Notifyr.Theory.Transaction

/-!
# Policies, groups and clients

`PolicyRessource` and `ClientRessource` (`app/ressources/admin_ressource.py`) over the tables of
`app/database/security.sql` and the cache. The guards of a route, which raise before anything is
done, are left out.

- `insertPolicy`, `insertMappings`, `saveClient`, …: the statements, with their constraints and
  triggers.
- `AdminCall`, `inTransaction`: an endpoint that raises inside a transaction leaves the tables as
  they were, and the cache as it is.
- `createPolicy`, `updatePolicy`, `deletePolicy`, `createGroup`, `deleteGroup`, `createClient`,
  `updateClient`, `deleteClient`: the endpoints.
-/

namespace Notifyr

open Theory JWTAuthMiddleware

/-- `PolicyUpdateMode`. -/
inductive PolicyUpdateMode
  | set | merge | delete
  deriving DecidableEq, Repr

/-- `PolicyModel`, as its validators leave it. -/
structure PolicyModel where
  allowedProfiles : List String
  allowedAgents : List String
  allowedRoutes : Dict String RoutePermission
  allowedAssets : List String
  allowedBlog : List String
  roles : List Role

/-- `ClientModel`, with the fields that `createClient` does not read in the life of a
password. -/
structure FullClientModel extends ClientModel where
  authType : AuthType
  policyIds : List String

/-- `UpdateClientModel`, likewise. -/
structure FullUpdateClientModel extends UpdateClientModel where
  policyIds : List String

/-- What is drawn for a new client: by the database, and its salt. -/
structure Drawn where
  clientId : String
  clientUsername : String
  issuedFor : String
  salt : Bytes

/-- What the endpoints find around them. -/
structure AdminEnv where
  orm : Orm
  /-- Hashing and validation; its groups are not used. -/
  password : PasswordEnv
  parseToBool : String → Py (Option Bool)
  /-- `settingService.AUTH_EXPIRATION`. -/
  authExpiration : ℚ
  /-- Adding to `created_at_auth` of an instance that was not saved; Tortoise has `None` there. -/
  datePlus : Py Unit
  /-- `raw_revoke_challenges`, on the table of challenges, whose trigger may raise. -/
  revokeChallenges : String → Py Unit
  /-- `PolicyORM(**obj)` and `ChallengeORM(**obj)`. -/
  construct : List (String × SecurityVal) → Py SecurityModel
  /-- `o.expired_at_auth.timestamp() - time.time()`. -/
  timeLeft : SecurityVal → Py ℚ

/-! ## Statements -/

/-- Groups by their ids, with their names. -/
def SecurityDb.groupNames (db : SecurityDb) : Dict String String :=
  ⟨db.groups.entries.map fun e => (e.1, e.2.groupName), by
    rw [List.map_map]
    exact db.groups.nodup⟩

/-- `PolicyORM.create`, with the id the database drew. -/
def insertPolicy (policyId : String) (policy : PolicyORM) (db : SecurityDb) : Py SecurityDb :=
  if policyId ∈ db.policies.keys then .error .integrityError
  else .ok { db with policies := db.policies.set policyId policy }

/-- `policy.save()`. -/
def savePolicy (policyId : String) (policy : PolicyORM) (db : SecurityDb) : Py SecurityDb :=
  .ok { db with policies := db.policies.set policyId policy }

/-- `policy.delete()`; its mappings go with it. -/
def deletePolicyRow (policyId : String) (db : SecurityDb) : Py SecurityDb :=
  .ok { db with
    policies := db.policies.erase policyId
    mappings := db.mappings.filter fun m => m.policyId ≠ policyId }

/-- One new mapping: the policy exists, and is not mapped to the holder yet. -/
def insertMapping (holder : Listee) (db : SecurityDb) (policyId : String) : Py SecurityDb :=
  if policyId ∉ db.policies.keys ∨ ⟨policyId, holder⟩ ∈ db.mappings then .error .integrityError
  else .ok { db with mappings := db.mappings ++ [⟨policyId, holder⟩] }

/-- `PolicyMappingORM.bulk_create`, for one holder. -/
def insertMappings (holder : Listee) (policyIds : List String) (db : SecurityDb) : Py SecurityDb :=
  policyIds.foldlM (insertMapping holder) db

/-- `bulk_create` takes different policies of the table that are not mapped to the holder yet. -/
theorem insertMappings_ok_iff {holder : Listee} {policyIds : List String} {db db' : SecurityDb} :
    insertMappings holder policyIds db = .ok db' ↔
      policyIds.Nodup ∧
        (∀ p ∈ policyIds, p ∈ db.policies.keys ∧ ⟨p, holder⟩ ∉ db.mappings) ∧
        db' = { db with mappings := db.mappings ++ policyIds.map (⟨·, holder⟩) } := by
  unfold insertMappings
  induction policyIds generalizing db with
  | nil =>
    rw [List.foldlM_nil, List.map_nil, List.append_nil]
    constructor
    · rintro ⟨⟩
      exact ⟨List.nodup_nil, nofun, rfl⟩
    · rintro ⟨-, -, rfl⟩
      rfl
  | cons p rest ih =>
    rw [List.foldlM_cons, bind_ok_iff, List.nodup_cons, List.forall_mem_cons]
    unfold insertMapping
    constructor
    · rintro ⟨db₁, hdb₁, h⟩
      split_ifs at hdb₁ with hp
      cases hdb₁
      obtain ⟨hpolicy, hnew⟩ := not_or.mp hp
      obtain ⟨hnodup, hall, rfl⟩ := ih.mp h
      refine ⟨⟨fun hmem => ?_, hnodup⟩, ⟨⟨Decidable.not_not.mp hpolicy, hnew⟩, ?_⟩, ?_⟩
      · exact (hall p hmem).2 (List.mem_append_right _ List.mem_cons_self)
      · intro q hq
        exact ⟨(hall q hq).1, fun hm => (hall q hq).2 (List.mem_append_left _ hm)⟩
      · rw [List.map_cons, List.append_assoc]
        rfl
    · rintro ⟨⟨hne, hnodup⟩, ⟨⟨hpolicy, hnew⟩, hall⟩, rfl⟩
      refine ⟨_, if_neg (not_or.mpr ⟨not_not.mpr hpolicy, hnew⟩), ih.mpr ⟨hnodup, ?_, ?_⟩⟩
      · intro q hq
        refine ⟨(hall q hq).1, fun hm => ?_⟩
        rcases List.mem_append.mp hm with hm | hm
        · exact (hall q hq).2 hm
        · have heq : q = p := congrArg PolicyMapping.policyId (List.mem_singleton.mp hm)
          exact hne (heq ▸ hq)
      · rw [List.map_cons, List.append_assoc]
        rfl

/-- `GroupClientORM.create`, under the trigger `limit_group`. -/
def insertGroup (groupId groupName : String) (db : SecurityDb) : Py SecurityDb :=
  if 2 ≤ db.groups.entries.length then .error .raiseError
  else if groupId ∈ db.groups.keys ∨ db.groups.entries.any fun e => e.2.groupName = groupName then
    .error .integrityError
  else .ok { db with groups := db.groups.set groupId ⟨groupId, groupName⟩ }

/-- The function of the trigger `guard_admin_deletion`, on the old and the new row. -/
def guardAdminDeletion (old : ClientORM) (new : Option ClientORM) : Py (Option ClientORM) :=
  if old.clientType = .Admin then .error .raiseError else .ok new

/-- `group.delete()`: its clients are left without a group, its mappings and its blacklist entry
go with it. -/
def deleteGroupRow (groupId : String) (db : SecurityDb) : Py SecurityDb := do
  let leave (client : ClientORM) : ClientORM :=
    if client.group = some groupId then { client with group := none } else client
  if db.clients.entries.any fun e => e.2.group = some groupId ∧ e.2.clientType = .Admin then
    .error .raiseError
  else
    return { db with
      groups := db.groups.erase groupId
      clients := ⟨db.clients.entries.map fun e => (e.1, leave e.2), by
        rw [List.map_map]
        exact db.clients.nodup⟩
      mappings := db.mappings.filter fun m => m.holder ≠ .group groupId
      blacklist := db.blacklist.filter fun e => e.listee ≠ .group groupId }

/-- The unique columns of a client. -/
def uniqueClient (db : SecurityDb) (client : ClientORM) : Bool :=
  db.clients.entries.all fun e => e.1 == client.clientId ||
    ((e.2.clientName == none || e.2.clientName != client.clientName) &&
      e.2.issuedFor != client.issuedFor && e.2.clientUsername != client.clientUsername)

/-- `ClientORM.create`, under the trigger `limit_client`. -/
def insertClient (client : ClientORM) (db : SecurityDb) : Py SecurityDb :=
  if 11 ≤ db.clients.entries.length then .error .raiseError
  else if client.clientId ∈ db.clients.keys ∨ !uniqueClient db client then .error .integrityError
  else .ok { db with clients := db.clients.set client.clientId client }

/-- `client.save()`. -/
def saveClient (client : ClientORM) (db : SecurityDb) : Py SecurityDb :=
  match db.clients.get? client.clientId with
  -- no row, nothing to update
  | none => .ok db
  | some old => do
    match ← guardAdminDeletion old (some client) with
    | none => return db
    | some client =>
      if !uniqueClient db client then .error .integrityError
      else return { db with clients := db.clients.set client.clientId client }

/-- `client.delete()`. The trigger returns the new row, which a deletion has not: the row
stays. -/
def deleteClientRow (clientId : String) (db : SecurityDb) : Py SecurityDb :=
  match db.clients.get? clientId with
  | none => .ok db
  | some old => do
    match ← guardAdminDeletion old none with
    | none => return db
    | some _ =>
      return { db with
        clients := db.clients.erase clientId
        mappings := db.mappings.filter fun m => m.holder ≠ .client clientId
        blacklist := db.blacklist.filter fun e => e.listee ≠ .client clientId }

/-- `_update_policy`, for a client. -/
def updatePolicies (order : SetOrder) (policyIds : List String) (mode : PolicyUpdateMode)
    (clientId : String) (db : SecurityDb) : Py SecurityDb :=
  match mode with
  | .delete =>
    .ok { db with mappings := db.mappings.filter fun m =>
      ¬ (m.holder = .client clientId ∧ m.policyId ∈ policyIds) }
  -- the ids that are there are `UUID`s, the new ones texts: the difference takes nothing away
  | .merge => insertMappings (.client clientId) (order.enum policyIds.dedup) db
  | .set => insertMappings (.client clientId) policyIds
      { db with mappings := db.mappings.filter fun m => m.holder ≠ .client clientId }

/-! ## Endpoints -/

/-- An endpoint. -/
abbrev AdminCall (α : Type) := Txn PyErr SecurityWorld α

/-- `async with in_transaction()`. -/
def inTransaction {α : Type} (body : AdminCall α) : AdminCall α :=
  body.transaction fun before after => { after with db := before.db }

/-- A statement. -/
def onDb (f : SecurityDb → Py SecurityDb) : AdminCall Unit :=
  Txn.update fun w => do return { w with db := ← f w.db }

/-- A call of a cache type. -/
def onCache (f : SecurityWorld → Py (CacheDb SecurityModel)) : AdminCall Unit :=
  Txn.update fun w => do return { w with redis := ← f w }

/-- `AuthPermissionCache.InvalidAll(mask)`. -/
def invalidPermissions (mask : Option (List String)) : AdminCall Unit :=
  onCache fun w => CacheType.invalidAll (δ := SecurityDb)
    (authPermissionCache fun _ _ => .error .typeError) w.redis mask

/-! ### Policies -/

/-- The columns of a new policy. The model says `allowed_blog`, which is no column. -/
def PolicyModel.columns (model : PolicyModel) : PolicyORM where
  allowedProfiles := model.allowedProfiles
  allowedAgents := model.allowedAgents
  allowedRoutes := model.allowedRoutes
  allowedAssets := model.allowedAssets
  allowedBlogs := []
  roles := model.roles

namespace PolicyRessource

/-- `PolicyORM.to_json`, without the dates. -/
def policyJson (policyId : String) (policy : PolicyORM) : List (String × SecurityVal) :=
  [("policy_id", .str policyId),
   ("allowed_profiles", strList policy.allowedProfiles),
   ("allowed_agents", strList policy.allowedAgents),
   ("allowed_routes", .dict (policy.allowedRoutes.entries.map fun e => (e.1, e.2.json))),
   ("allowed_assets", strList policy.allowedAssets),
   ("allowed_blog", strList policy.allowedBlogs),
   ("roles", strList (policy.roles.map Role.value))]

/-- `PolicyORMCache`, for calls that give it the object. -/
def policyCache (env : AdminEnv) : CacheType SecurityDb SecurityModel :=
  policyORMCache
    { toJson := some fun
        | .policy policyId policy => .ok (policyJson policyId policy)
        | _ => .error .attributeError
      fields _ := []
      construct := env.construct }
    fun _ _ => .error .typeError

/-- `PolicyORMCache.Store(policy_id, policy)`. -/
def storePolicy (env : AdminEnv) (policyId : String) (policy : PolicyORM) : AdminCall Unit :=
  onCache fun w => (policyCache env).store w.db w.redis (.str policyId)
    (.model (.policy policyId policy)) (policyCache env).expiry

/-- `PolicyORMCache.Invalid(policy_id)`. -/
def invalidPolicy (env : AdminEnv) (policyId : String) : AdminCall Unit :=
  onCache fun w => (policyCache env).invalid w.redis (.str policyId)

/-- `get_policy`. -/
def getPolicy (policyId : String) (db : SecurityDb) : Py PolicyORM :=
  match db.policies.get? policyId with
  | some policy => .ok policy
  | none => .error (.httpException 404 "Policy does not exists")

/-- `create_policy`. -/
def createPolicy (env : AdminEnv) (policyId : String) (policyModel : PolicyModel) :
    AdminCall Unit :=
  inTransaction do
    onDb (insertPolicy policyId policyModel.columns)
    storePolicy env policyId policyModel.columns

/-- `delete_policy`. -/
def deletePolicy (env : AdminEnv) (policyId : String) : AdminCall Unit := do
  let w ← Txn.get
  let _ ← Txn.lift (getPolicy policyId w.db)
  inTransaction do
    onDb (deletePolicyRow policyId)
    invalidPolicy env policyId
    invalidPermissions none

/-- `_update_policy_model`. -/
def updatePolicyModel (order : SetOrder) (model : PolicyModel) (mode : PolicyUpdateMode)
    (policy : PolicyORM) : PolicyORM :=
  match mode with
  | .merge => { policy with
      allowedAssets := order.enum (model.allowedAssets ++ policy.allowedAssets).dedup
      allowedProfiles := order.enum (model.allowedProfiles ++ policy.allowedProfiles).dedup
      allowedAgents := order.enum (model.allowedAgents ++ policy.allowedAgents).dedup
      roles := order.enum (model.roles ++ policy.roles).dedup
      allowedRoutes := model.allowedRoutes.entries.foldl (fun d e => d.set e.1 e.2)
        policy.allowedRoutes }
  | .set => { policy with
      allowedAssets := model.allowedAssets
      allowedProfiles := model.allowedProfiles
      roles := model.roles
      allowedRoutes := model.allowedRoutes
      allowedAgents := model.allowedAgents }
  | .delete => { policy with
      allowedAssets := order.enum (policy.allowedAssets.dedup.filter (· ∉ model.allowedAssets))
      allowedProfiles :=
        order.enum (policy.allowedProfiles.dedup.filter (· ∉ model.allowedProfiles))
      roles := order.enum (policy.roles.dedup.filter (· ∉ model.roles))
      allowedAgents := order.enum (policy.allowedAgents.dedup.filter (· ∉ model.allowedAgents))
      allowedRoutes := .ofEntries (policy.allowedRoutes.entries.filter
        fun e => e.1 ∉ model.allowedRoutes.keys) }

/-- `update_policy`. -/
def updatePolicy (env : AdminEnv) (policyId : String) (policyModel : PolicyModel)
    (mode : PolicyUpdateMode) : AdminCall Unit := do
  let w ← Txn.get
  let policy ← Txn.lift (getPolicy policyId w.db)
  inTransaction do
    let policy := updatePolicyModel env.orm.order policyModel mode policy
    onDb (savePolicy policyId policy)
    invalidPolicy env policyId
    storePolicy env policyId policy
    invalidPermissions none

end PolicyRessource

/-! ### Groups -/

namespace ClientRessource

/-- `WILDCARD`. -/
def WILDCARD : String := "*"

/-- `get_group`, with the groups of the table. -/
def findGroup (env : AdminEnv) (admin : Bool) (gid groupId : String) (db : SecurityDb) :
    Py (Option String) :=
  getGroup { env.password with groups := db.groupNames } admin gid groupId

/-- `create_group`. -/
def createGroup (groupId groupName : String) (policyIds : List String) : AdminCall Unit :=
  inTransaction do
    onDb (insertGroup groupId groupName)
    onDb (insertMappings (.group groupId) policyIds)

/-- `delete_group`. -/
def deleteGroup (env : AdminEnv) (admin : Bool) (gid groupId : String) : AdminCall Unit := do
  let w ← Txn.get
  match ← Txn.lift (findGroup env admin gid groupId w.db) with
  | none =>
    Txn.lift (.error (.httpException 400 "Group information is missing or invalid."))
  | some groupId =>
    inTransaction do
      onDb (deleteGroupRow groupId)
      onCache fun w => storeCache.invalidAll w.redis (some [groupId, WILDCARD])
      invalidPermissions (some [groupId, WILDCARD])

/-! ### Clients -/

/-- `get_client` and `ForceClientPipe`. -/
def findClient (admin : Bool) (cid clientId : String) (db : SecurityDb) : Py ClientORM :=
  if !admin then .error (.httpException 403 "Admin role required")
  else if clientId = "" then
    .error (.httpException 400 "Client information is missing or invalid.")
  else
    let found : Option (Option ClientORM) := match cid with
      | "id" => some (db.clients.get? clientId)
      | "name" =>
        some ((db.clients.entries.find? fun e => e.2.clientName = some clientId).map Prod.snd)
      | _ => none
    match found with
    | none => .error (.httpException 400 "Invalid CID type")
    | some none => .error (.httpException 404 "Client does not exist")
    | some (some client) =>
      if client.clientType = .Admin then .error (.httpException 404 "Client does not exist")
      else .ok { client with groupFetched := false }

/-- `ClientORMCache`, for calls that give it the object. -/
def clientStore (env : AdminEnv) : CacheType SecurityDb SecurityModel :=
  clientORMCache env.orm.clientClass fun _ _ => .error .keyError

/-- `ChallengeORMCache`, for calls that give it the object. What the database draws for a
challenge is left out. -/
def challengeStore (env : AdminEnv) : CacheType SecurityDb SecurityModel :=
  challengeORMCache
    { toJson := none
      fields := fun
        | .challenge clientId => [("client_id", .uuid clientId)]
        | _ => []
      construct := env.construct }
    (fun _ _ => .error .typeError) env.timeLeft

/-- The key of what is cached about a client of a group. -/
def clientKey (group : Option String) (clientId : String) : StrOrList :=
  .list [pyStr group, clientId]

/-- `ClientORMCache.Store`. -/
def storeClient (env : AdminEnv) (group : Option String) (client : ClientORM) : AdminCall Unit :=
  onCache fun w => (clientStore env).store w.db w.redis (clientKey group client.clientId)
    (.model (.client client)) (clientStore env).expiry

/-- `ClientORMCache.Invalid`. -/
def invalidClient (env : AdminEnv) (group : Option String) (clientId : String) : AdminCall Unit :=
  onCache fun w => (clientStore env).invalid w.redis (clientKey group clientId)

/-- `AuthPermissionCache.Invalid`. -/
def invalidPermission (env : AdminEnv) (group : Option String) (client : ClientORM) :
    AdminCall Unit :=
  onCache fun w => (permissionCache env.orm client).invalid w.redis
    (clientKey group client.clientId)

/-- `AuthPermissionCache.Cache(…, client=client)`. -/
def cachePermission (env : AdminEnv) (group : Option String) (client : ClientORM) :
    AdminCall SecurityVal :=
  Txn.updateGet fun w => do
    let (policy, redis) ← (permissionCache env.orm client).cache env.orm.loads w.db w.redis
      (clientKey group client.clientId) .none (permissionCache env.orm client).expiry
    return (policy, { w with redis })

/-- `create_challenge`: the time to live it returns. -/
def createChallenge (env : AdminEnv) : AuthType → Py (ExpiryArg SecurityModel)
  | .API_TOKEN => .ok (.number (.int 0))
  | .ACCESS_TOKEN => do
    env.datePlus
    return .timedelta (env.authExpiration * 4)

/-- The instance that `create_client` makes. Its group was given, so it is there. -/
def newClient (client : FullClientModel) (group : Option String) (password : String) (salt : Bytes)
    (drawn : Drawn) : ClientORM where
  toClientRow := clientData client.toClientModel group password salt drawn.issuedFor
  clientId := drawn.clientId
  clientUsername := drawn.clientUsername
  clientType := .User
  authType := client.authType
  groupFetched := true

/-- `create_client`. -/
def createClient (env : AdminEnv) (client : FullClientModel) (admin : Bool) (gid : String)
    (drawn : Drawn) : AdminCall Unit := do
  let w ← Txn.get
  let (password, salt) ← Txn.lift
    (storePassword env.password client.password env.password.hashKey drawn.salt)
  let group ← Txn.lift
    (clientGroup { env.password with groups := w.db.groupNames } admin gid client.groupId)
  inTransaction do
    let instance_ := newClient client group password salt drawn
    onDb (insertClient instance_)
    onDb (insertMappings (.client drawn.clientId) client.policyIds)
    let ttl ← Txn.lift (createChallenge env client.authType)
    storeClient env group instance_
    onCache fun w => (challengeStore env).store w.db w.redis (.str drawn.clientId)
      (.model (.challenge drawn.clientId)) ttl
    let _ ← cachePermission env group instance_

/-- `rmgrp_` after the start of `update_client`. Only a text is parsed, and the default is no
text. -/
def parseRmgrp (env : AdminEnv) : Option String → Py (Option Bool)
  | none => .ok none
  | some rmgrp => do
    match ← env.parseToBool rmgrp with
    | none => .error (.httpException 400 s!"Could not parse {rmgrp} as a bool")
    | some b => return some b

/-- `_update_client`, on an instance: where it sets the group, the relation is there. -/
def updateInstance (env : AdminEnv) (db : SecurityDb) (update : FullUpdateClientModel)
    (client : ClientORM) (admin : Bool) (gid : String) (rmGroup : Bool) (salt : Bytes) :
    Py (ClientORM × Bool) := do
  let (row, isRevoked) ← updateClientRow { env.password with groups := db.groupNames }
    update.toUpdateClientModel client.toClientRow admin gid rmGroup salt
  return ({ client with
    toClientRow := row
    groupFetched := client.groupFetched || (truthy update.groupId).isSome || rmGroup }, isRevoked)

/-- `client.authenticated = False`, in `_revoke_client`. -/
def revoked (client : ClientORM) (isRevoked : Bool) : ClientORM :=
  { client with authenticated := client.authenticated && !isRevoked }

/-- `update_client`. -/
def updateClient (env : AdminEnv) (clientId : String) (update : FullUpdateClientModel)
    (admin : Bool) (cid gid : String) (rmgrp : Option String) (mode : PolicyUpdateMode)
    (salt : Bytes) : AdminCall Unit := do
  let w ← Txn.get
  let client ← Txn.lift (findClient admin cid clientId w.db)
  let rmgrp_ ← Txn.lift (parseRmgrp env rmgrp)
  inTransaction do
    let rmGroup ← Txn.lift (match rmgrp_ with
      | some b => .ok b
      | none => .error .unboundLocalError)
    let (client, isRevoked) ← Txn.lift
      (updateInstance env w.db update client admin gid rmGroup salt)
    onDb (updatePolicies env.orm.order update.policyIds mode client.clientId)
    Txn.lift (if isRevoked then env.revokeChallenges client.clientId else .ok ())
    onDb (saveClient (revoked client isRevoked))
    let client := revoked client isRevoked
    let group ← Txn.lift (client.groupKey env.orm)
    invalidClient env group client.clientId
    storeClient env group client
    invalidPermission env group client
    let _ ← cachePermission env group client

/-- `merchant.safe_payment`, on the cost that `inject_cost` gave the merchant. The task it adds
runs after the response, and what it raises is swallowed. -/
def safePayment (cost : Option String) (function : AdminCall Unit) : AdminCall Unit :=
  match cost with
  | none => Txn.lift (.error .attributeError)
  | some _ => fun w => (.ok (), (function w).2)

/-- `delete_client`. None of its pipes gives the merchant a cost. -/
def deleteClient (env : AdminEnv) (admin : Bool) (cid clientId : String) : AdminCall Unit := do
  let w ← Txn.get
  let client ← Txn.lift (findClient admin cid clientId w.db)
  safePayment none do
    inTransaction do
      onDb (deleteClientRow client.clientId)
      let group ← Txn.lift (client.groupKey env.orm)
      invalidClient env group client.clientId
      invalidPermission env group client

end ClientRessource

end Notifyr
