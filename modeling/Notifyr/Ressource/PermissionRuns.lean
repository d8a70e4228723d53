import Notifyr.Auth.Combine
import Notifyr.Ressource.PermissionCache

/-!
# Permissions over runs

The endpoints of policies, groups and clients, and the requests that come in between.

- `AdminOp`, `adminStep`: the system.
- `AdminRight`: what is asked of one step. A request is given a permission only if its client is
  in the table, and then the one that the policies of the tables combine to; a request of a
  client that is, and that passes the checks, is given it.
- `AdminMeets`: the steps on which the code is right.
- `createClient_current`, `updateClient_current`, …: what each endpoint leaves, one lemma each.
- `permissions_right`: every run whose steps meet the condition is right.
-/

namespace Notifyr

open Theory JWTAuthMiddleware AdminService

/-- One step. -/
inductive AdminOp
  | createPolicy (policyId : String) (policyModel : PolicyModel)
  | updatePolicy (policyId : String) (policyModel : PolicyModel) (mode : PolicyUpdateMode)
  | deletePolicy (policyId : String)
  | createGroup (groupId groupName : String) (policyIds : List String)
  | deleteGroup (admin : Bool) (gid groupId : String)
  | createClient (client : FullClientModel) (admin : Bool) (gid : String) (drawn : Drawn)
  | updateClient (clientId : String) (update : FullUpdateClientModel) (admin : Bool)
      (cid gid : String) (rmgrp : Option String) (mode : PolicyUpdateMode) (salt : Bytes)
  | deleteClient (admin : Bool) (cid clientId : String)
  | request (request : Request)
  | advance (t : ℚ)

section

variable (env : AdminEnv) (isFile : String → Py Bool)

/-- The call of a step. -/
def adminCall : AdminOp → AdminCall Unit
  | .createPolicy policyId policyModel => PolicyRessource.createPolicy env policyId policyModel
  | .updatePolicy policyId policyModel mode =>
    PolicyRessource.updatePolicy env policyId policyModel mode
  | .deletePolicy policyId => PolicyRessource.deletePolicy env policyId
  | .createGroup groupId groupName policyIds =>
    ClientRessource.createGroup groupId groupName policyIds
  | .deleteGroup admin gid groupId => ClientRessource.deleteGroup env admin gid groupId
  | .createClient client admin gid drawn =>
    ClientRessource.createClient env client admin gid drawn
  | .updateClient clientId update admin cid gid rmgrp mode salt =>
    ClientRessource.updateClient env clientId update admin cid gid rmgrp mode salt
  | .deleteClient admin cid clientId => ClientRessource.deleteClient env admin cid clientId
  | .request request => fun w => (.ok (), { w with redis := (dispatch env.orm isFile w request).2 })
  | .advance t => fun w => (.ok (), { w with redis := w.redis.advance t })

/-- The step function. -/
def adminStep (w : SecurityWorld) (op : AdminOp) : SecurityWorld := (adminCall env isFile op w).2

/-! ## What is asked of a step -/

/-- A request is to come through: its client is in the table, passes the checks, and is no one
who is blacklisted. -/
def ToServe (w : SecurityWorld) (request : Request) (row : ClientORM) : Prop :=
  verifyClient row request.clientIp = .ok () ∧
    (row.clientType = .Admin ∨ ¬ Listed w.db.blacklist w.redis.now row.clientId row.group)

/-- What is asked of a step. -/
def AdminRight (w : SecurityWorld) : AdminOp → Prop
  | .request request => ∀ token, request.permission = .ok token →
    (∀ client attached, (dispatch env.orm isFile w request).1 = .ok (client, attached) →
      ∃ row, w.db.clients.get? token.clientId = some row ∧
        currentPermission env.orm isFile w.db row = .ok attached) ∧
    ∀ row attached, w.db.clients.get? token.clientId = some row → ToServe w request row →
      currentPermission env.orm isFile w.db row = .ok attached →
      ∃ client, (dispatch env.orm isFile w request).1 = .ok (client, attached)
  | .deleteClient admin cid clientId => ∀ client,
    ClientRessource.findClient admin cid clientId w.db = .ok client →
    (ClientRessource.deleteClient env admin cid clientId w).1 = .ok () →
      (adminStep env isFile w (.deleteClient admin cid clientId)).db.clients.get?
        client.clientId = none
  | _ => True

/-! ## When a step is right -/

/-- The cache has nothing of a client under a group. -/
def NothingCached (redis : CacheDb SecurityModel) (g c : String) : Prop :=
  redis.lookup? (clientText g c) = none ∧ redis.lookup? (permissionText g c) = none

/-- The steps on which the code is right. -/
def AdminMeets (w : SecurityWorld) : AdminOp → Prop
  | .createGroup groupId _ _ => PartFree groupId
  | .createClient _ _ _ drawn =>
    PartFree drawn.clientId ∧ ∀ g, PartFree g → NothingCached w.redis g drawn.clientId
  | .updateClient clientId update admin cid gid rmgrp mode salt =>
    ∀ client rmGroup updated isRevoked db,
      ClientRessource.findClient admin cid clientId w.db = .ok client →
      ClientRessource.parseRmgrp env rmgrp = .ok (some rmGroup) →
      ClientRessource.updateInstance env w.db update client admin gid rmGroup salt =
        .ok (updated, isRevoked) →
      updatePolicies env.orm.order update.policyIds mode client.clientId w.db = .ok db →
      (∀ g, PartFree g → g ≠ pyStr updated.group → NothingCached w.redis g client.clientId) ∧
      ∃ combined text, currentPolicies env.orm db updated = .ok combined ∧
        toText combined.json = .ok text
  | .request request => ∀ token, request.permission = .ok token →
    token.Free ∧ ∀ row attached, w.db.clients.get? token.clientId = some row →
      ToServe w request row → currentPermission env.orm isFile w.db row = .ok attached →
      Servable env.orm w token row
  | _ => True

end

/-! ## The tables -/

variable {env : AdminEnv} {isFile : String → Py Bool} {orm : Orm} {db db' : SecurityDb}
  {w : SecurityWorld} {row : ClientORM} {c : String}

/-- The policies of a client are those of its own mappings, as long as it has no group. -/
theorem loadedPolicies_eq (db : SecurityDb) (c : String) (group : Option String) :
    loadedPolicies (db.mappings.filterMap db.loadMapping) ⟨c, group⟩ =
      if group = none then
        (db.mappings.filter fun m => m.holder = .client c).filterMap
          fun m => db.policies.get? m.policyId
      else [] := by
  unfold loadedPolicies filterMapping
  induction db.mappings with
  | nil => simp
  | cons m rest ih =>
    obtain ⟨policyId, holder⟩ := m
    rw [List.filterMap_cons]
    cases hpolicy : db.policies.get? policyId with
    | none =>
      have hload : db.loadMapping ⟨policyId, holder⟩ = none := by
        unfold SecurityDb.loadMapping
        rw [hpolicy]
        rfl
      rw [hload]
      refine ih.trans ?_
      by_cases hholder : holder = .client c
      · simp [hholder, hpolicy]
      · simp [hholder]
    | some policy =>
      cases holder with
      | client id =>
        have hload : db.loadMapping ⟨policyId, .client id⟩ =
            some ⟨policy, some id, none, .inl ⟨Option.some_ne_none id, rfl⟩⟩ := by
          unfold SecurityDb.loadMapping
          rw [hpolicy]
          rfl
        rw [hload]
        by_cases hid : id = c
        · subst hid
          cases group with
          | none => simpa [hpolicy] using ih
          | some g => simpa using ih
        · simpa [hid] using ih
      | group id =>
        have hload : db.loadMapping ⟨policyId, .group id⟩ =
            some ⟨policy, none, some id, .inr ⟨rfl, Option.some_ne_none id⟩⟩ := by
          unfold SecurityDb.loadMapping
          rw [hpolicy]
          rfl
        rw [hload]
        simpa using ih

/-- The policies of a client depend on its own mappings, and on the policies they lead to. -/
theorem currentPolicies_congr
    (hmine : (db'.mappings.filter fun m => m.holder = .client row.clientId) =
      db.mappings.filter fun m => m.holder = .client row.clientId)
    (hpolicies : ∀ m ∈ db.mappings, db'.policies.get? m.policyId = db.policies.get? m.policyId) :
    currentPolicies orm db' row = currentPolicies orm db row := by
  have hloaded : loadedPolicies (db'.mappings.filterMap db'.loadMapping)
      ⟨row.clientId, row.group⟩ =
      loadedPolicies (db.mappings.filterMap db.loadMapping) ⟨row.clientId, row.group⟩ := by
    rw [loadedPolicies_eq, loadedPolicies_eq, hmine]
    refine if_congr Iff.rfl (List.filterMap_congr fun m hm => ?_) rfl
    exact hpolicies m (List.mem_of_mem_filter hm)
  unfold currentPolicies getCombinedPolicies
  rw [hloaded]

/-- The mappings of others do not matter. -/
theorem currentPolicies_append {new : List PolicyMapping}
    (hmappings : db'.mappings = db.mappings ++ new) (hpolicies : db'.policies = db.policies)
    (hnew : ∀ m ∈ new, m.holder ≠ .client row.clientId) :
    currentPolicies orm db' row = currentPolicies orm db row := by
  refine currentPolicies_congr ?_ fun _ _ => by rw [hpolicies]
  rw [hmappings, List.filter_append, List.append_right_eq_self, List.filter_eq_nil_iff]
  intro m hm
  simpa using hnew m hm

/-- What `bulk_create` leaves. -/
theorem insertMappings_ok {holder : Listee} {policyIds : List String}
    (h : insertMappings holder policyIds db = .ok db') :
    db' = { db with mappings := db.mappings ++ policyIds.map (⟨·, holder⟩) } ∧
      ∀ p ∈ policyIds, p ∈ db.policies.keys := by
  obtain ⟨-, hall, hdb'⟩ := insertMappings_ok_iff.mp h
  exact ⟨hdb', fun p hp => (hall p hp).1⟩

/-! ## The rules of an endpoint -/

theorem wp_inTransaction {α : Type} {body : AdminCall α} {Q : α → SecurityWorld → Prop}
    {E : SecurityWorld → Prop} :
    Txn.wp (inTransaction body) Q E w ↔ Txn.wp body Q (fun w' => E { w' with db := w.db }) w :=
  Txn.wp_transaction

theorem wp_onDb {f : SecurityDb → Py SecurityDb} {Q : Unit → SecurityWorld → Prop}
    {E : SecurityWorld → Prop} :
    Txn.wp (onDb f) Q E w ↔
      (∀ db, f w.db = .ok db → Q () { w with db }) ∧ (∀ e, f w.db = .error e → E w) := by
  unfold onDb
  rw [Txn.wp_update]
  cases f w.db with
  | ok db =>
    exact ⟨fun h => ⟨fun db' hdb => Except.ok.inj hdb ▸ h.1 _ rfl, nofun⟩,
      fun h => ⟨fun w' hw => Except.ok.inj hw ▸ h.1 db rfl, nofun⟩⟩
  | error e =>
    exact ⟨fun h => ⟨nofun, fun _ _ => h.2 e rfl⟩, fun h => ⟨nofun, fun _ _ => h.2 e rfl⟩⟩

theorem wp_onCache {f : SecurityWorld → Py (CacheDb SecurityModel)}
    {Q : Unit → SecurityWorld → Prop} {E : SecurityWorld → Prop} :
    Txn.wp (onCache f) Q E w ↔
      (∀ redis, f w = .ok redis → Q () { w with redis }) ∧ (∀ e, f w = .error e → E w) := by
  unfold onCache
  rw [Txn.wp_update]
  cases f w with
  | ok redis =>
    exact ⟨fun h => ⟨fun redis' hr => Except.ok.inj hr ▸ h.1 _ rfl, nofun⟩,
      fun h => ⟨fun w' hw => Except.ok.inj hw ▸ h.1 redis rfl, nofun⟩⟩
  | error e =>
    exact ⟨fun h => ⟨nofun, fun _ _ => h.2 e rfl⟩, fun h => ⟨nofun, fun _ _ => h.2 e rfl⟩⟩

/-- `InvalidAll` raises. -/
theorem wp_invalidPermissions {mask : Option (List String)} {Q : Unit → SecurityWorld → Prop}
    {E : SecurityWorld → Prop} (h : E w) : Txn.wp (invalidPermissions mask) Q E w := by
  refine wp_onCache.mpr ⟨fun redis hredis => ?_, fun _ _ => h⟩
  obtain ⟨e, he⟩ := CacheType.exists_invalidAll_error (δ := SecurityDb)
    (authPermissionCache fun _ _ => .error .typeError) w.redis mask
  cases he.symm.trans hredis

/-! ## What the caches of other things do -/

/-- Storing what is neither a client nor a permission keeps the cache right. -/
theorem entries_of_store {T : CacheType SecurityDb SecurityModel} {n : OrmCacheName}
    {redis redis' : CacheDb SecurityModel} {key : StrOrList} {obj : SecurityVal}
    {exp : ExpiryArg SecurityModel} (hT : T.keys = n.keys) (hn : n ≠ .client)
    (hn' : n ≠ .authPermission) (h : T.store db redis key obj exp = .ok redis')
    (hentries : redis.Keeps (EntryRight orm db')) : redis'.Keeps (EntryRight orm db') := by
  obtain ⟨k, -, text, ex, hk, -, -, -, hput⟩ := CacheType.store_ok h
  rcases hput with ⟨rfl, -⟩ | rfl
  · exact hentries
  · exact TimedStore.Keeps.put hentries (entryRight_other hn hn' (hT ▸ hk))

/-- Removing a key keeps it right. -/
theorem entries_of_invalid {T : CacheType SecurityDb SecurityModel}
    {redis redis' : CacheDb SecurityModel} {key : StrOrList}
    (h : T.invalid redis key = .ok redis') (hentries : redis.Keeps (EntryRight orm db)) :
    redis'.Keeps (EntryRight orm db) := by
  obtain ⟨k, -, h⟩ := bind_ok h
  cases h
  exact TimedStore.Keeps.erase hentries

/-! ## Policies and groups -/

theorem createPolicy_current (hw : Current orm w) (policyId : String) (policyModel : PolicyModel) :
    Txn.wp (PolicyRessource.createPolicy env policyId policyModel) (fun _ => Current orm)
      (Current orm) w := by
  refine wp_inTransaction.mpr (Txn.wp_bind.mpr (wp_onDb.mpr ⟨fun db hdb => ?_, fun _ _ => hw⟩))
  unfold insertPolicy at hdb
  split at hdb
  · cases hdb
  rename_i hnew
  cases hdb
  -- no mapping leads to the new policy
  have hpolicies : ∀ m ∈ w.db.mappings,
      (w.db.policies.set policyId policyModel.columns).get? m.policyId =
        w.db.policies.get? m.policyId := by
    intro m hm
    refine Dict.get?_set_ne _ _ fun heq => hnew ?_
    exact heq ▸ hw.sound.mapped m hm
  refine wp_onCache.mpr ⟨fun redis hstore =>
    ⟨⟨hw.sound.own, hw.sound.groupIds, fun m hm => ?_⟩, ?_⟩, fun _ _ => hw⟩
  · exact (Dict.mem_keys_set _ _ _ _).mpr (.inr (hw.sound.mapped m hm))
  · refine entries_of_store (n := .policy) rfl nofun nofun hstore fun k e he => ?_
    exact (hw.entries k e he).sameFor fun c =>
      .inl ⟨rfl, fun row _ => currentPolicies_congr rfl hpolicies⟩

theorem deletePolicy_current (hw : Current orm w) (policyId : String) :
    Txn.wp (PolicyRessource.deletePolicy env policyId) (fun _ => Current orm) (Current orm) w := by
  refine Txn.wp_bind.mpr (Txn.wp_get.mpr (Txn.wp_bind.mpr (Txn.wp_lift.mpr ⟨fun _ _ => ?_,
    fun _ _ => hw⟩)))
  refine wp_inTransaction.mpr (Txn.wp_bind.mpr (wp_onDb.mpr ⟨fun db _ => ?_, fun _ _ => hw⟩))
  refine Txn.wp_bind.mpr (wp_onCache.mpr ⟨fun redis hredis => ?_, fun _ _ => hw⟩)
  exact wp_invalidPermissions ⟨hw.sound, entries_of_invalid hredis hw.entries⟩

theorem updatePolicy_current (hw : Current orm w) (policyId : String) (policyModel : PolicyModel)
    (mode : PolicyUpdateMode) :
    Txn.wp (PolicyRessource.updatePolicy env policyId policyModel mode) (fun _ => Current orm)
      (Current orm) w := by
  refine Txn.wp_bind.mpr (Txn.wp_get.mpr (Txn.wp_bind.mpr (Txn.wp_lift.mpr ⟨fun policy _ => ?_,
    fun _ _ => hw⟩)))
  refine wp_inTransaction.mpr (Txn.wp_bind.mpr (wp_onDb.mpr ⟨fun db _ => ?_, fun _ _ => hw⟩))
  refine Txn.wp_bind.mpr (wp_onCache.mpr ⟨fun redis hredis => ?_, fun _ _ => hw⟩)
  have hentries := entries_of_invalid hredis hw.entries
  refine Txn.wp_bind.mpr (wp_onCache.mpr ⟨fun redis' hstore => ?_,
    fun _ _ => ⟨hw.sound, hentries⟩⟩)
  exact wp_invalidPermissions
    ⟨hw.sound, entries_of_store (n := .policy) rfl nofun nofun hstore hentries⟩

theorem createGroup_current (hw : Current orm w) {groupId : String} (hfree : PartFree groupId)
    (groupName : String) (policyIds : List String) :
    Txn.wp (ClientRessource.createGroup groupId groupName policyIds) (fun _ => Current orm)
      (Current orm) w := by
  refine wp_inTransaction.mpr (Txn.wp_bind.mpr (wp_onDb.mpr ⟨fun db hdb => ?_, fun _ _ => hw⟩))
  unfold insertGroup at hdb
  split at hdb
  · cases hdb
  split at hdb
  · cases hdb
  cases hdb
  refine wp_onDb.mpr ⟨fun db hdb => ?_, fun _ _ => hw⟩
  obtain ⟨rfl, hall⟩ := insertMappings_ok hdb
  refine ⟨⟨hw.sound.own, fun g hg => ?_, fun m hm => ?_⟩, fun k e he => ?_⟩
  · rcases (Dict.mem_keys_set _ _ _ _).mp hg with rfl | hg
    · exact hfree
    · exact hw.sound.groupIds g hg
  · rcases List.mem_append.mp hm with hm | hm
    · exact hw.sound.mapped m hm
    · obtain ⟨p, hp, rfl⟩ := List.mem_map.mp hm
      exact hall p hp
  · refine (hw.entries k e he).sameFor fun c => .inl ⟨rfl, fun row _ => ?_⟩
    -- the new mappings are those of the group
    refine currentPolicies_append rfl rfl fun m hm => ?_
    obtain ⟨p, -, rfl⟩ := List.mem_map.mp hm
    simp

theorem deleteGroup_current (hw : Current orm w) (admin : Bool) (gid groupId : String) :
    Txn.wp (ClientRessource.deleteGroup env admin gid groupId) (fun _ => Current orm)
      (Current orm) w := by
  refine Txn.wp_bind.mpr (Txn.wp_get.mpr (Txn.wp_bind.mpr (Txn.wp_lift.mpr ⟨fun group _ => ?_,
    fun _ _ => hw⟩)))
  cases group with
  | none => exact Txn.wp_lift.mpr ⟨nofun, fun _ _ => hw⟩
  | some groupId =>
    refine wp_inTransaction.mpr (Txn.wp_bind.mpr (wp_onDb.mpr ⟨fun db _ => ?_, fun _ _ => hw⟩))
    refine Txn.wp_bind.mpr (wp_onCache.mpr ⟨fun redis hredis => ?_, fun _ _ => hw⟩)
    obtain ⟨e, he⟩ := storeCache.exists_invalidAll_error w.redis
      (some [groupId, ClientRessource.WILDCARD])
    cases he.symm.trans hredis

/-! ## Clients -/

theorem partFree_none : PartFree (pyStr none) := by
  unfold PartFree pyStr
  decide

/-- A group that is found is one of the table. -/
theorem getGroup_free (hsound : db.Sound) {password : PasswordEnv} {admin : Bool}
    {gid groupId : String} {group : Option String}
    (h : getGroup { password with groups := db.groupNames } admin gid groupId = .ok group) :
    PartFree (pyStr group) := by
  have hkeys : db.groupNames.keys = db.groups.keys := by
    unfold SecurityDb.groupNames Dict.keys
    rw [List.map_map]
    rfl
  have hmem : ∀ g, g ∈ db.groupNames.keys → PartFree (pyStr (some g)) :=
    fun g hg => hsound.groupIds g (hkeys ▸ hg)
  unfold getGroup at h
  split at h
  · cases h
  · split at h
    · cases h
      exact partFree_none
    · dsimp only at h
      split at h
      · cases h
      · cases h
      · rename_i id hfound
        cases h
        split at hfound
        · obtain ⟨name, hname, hid⟩ := Option.map_eq_some_iff.mp (Option.some.inj hfound)
          cases hid
          exact hmem _ ((Dict.mem_keys_iff _ _).mpr ⟨name, hname⟩)
        · obtain ⟨e, he, hid⟩ := Option.map_eq_some_iff.mp (Option.some.inj hfound)
          cases hid
          exact hmem _ (List.mem_map.mpr ⟨e, List.mem_of_find?_eq_some he, rfl⟩)
        · cases hfound

theorem clientGroup_free (hsound : db.Sound) {password : PasswordEnv} {admin : Bool} {gid : String}
    {groupId group : Option String}
    (h : clientGroup { password with groups := db.groupNames } admin gid groupId = .ok group) :
    PartFree (pyStr group) := by
  cases groupId with
  | none =>
    cases h
    exact partFree_none
  | some groupId => exact getGroup_free hsound h

theorem SameChecks.refl (row : ClientORM) : SameChecks row row := ⟨rfl, rfl, rfl, rfl, rfl, rfl⟩

/-- The end of `create_client` and of `update_client`: the permission that is cached is that of
the row. -/
theorem cachePermission_current (horm : env.orm.Restores) {group : Option String}
    {client : ClientORM} (hw : Current env.orm w) (hg : PartFree (pyStr group))
    (hc : PartFree client.clientId) (hrow : w.db.clients.get? client.clientId = some row)
    (hchecks : SameChecks client row) {E : SecurityWorld → Prop}
    (hE : ∀ e, (permissionCache env.orm client).cache env.orm.loads w.db w.redis
      (ClientRessource.clientKey group client.clientId) .none
      (permissionCache env.orm client).expiry = .error e → E w) :
    Txn.wp (do let _ ← ClientRessource.cachePermission env group client)
      (fun _ => Current env.orm) E w := by
  refine Txn.wp_bind.mpr (Txn.wp_updateGet.mpr ⟨fun v w' h => Txn.wp_pure.mpr ?_, fun e h => ?_⟩)
  · obtain ⟨⟨policy, redis⟩, hcache, h⟩ := bind_ok h
    cases h
    rcases CacheType.cache_ok (fun _ h => by cases h) rfl hcache with
      ⟨-, -, rfl⟩ | ⟨-, hdb, hstored⟩
    · exact hw
    · obtain ⟨combined, hcombined, rfl⟩ := permission_dbObject hdb
      rcases hstored with ⟨hnone, -⟩ | ⟨-, hstore⟩
      · cases hnone
      · rcases permission_store (permission_builder (pyStr group) client.clientId) hstore with
          rfl | ⟨d, rfl⟩
        · exact hw
        · refine hw.put_permission hg hc (fun row' hrow' => ?_) d
          cases Option.some.inj (hrow.symm.trans hrow')
          exact combinedPolicies_eq horm hchecks hcombined
  · cases hcache : (permissionCache env.orm client).cache env.orm.loads w.db w.redis
      (ClientRessource.clientKey group client.clientId) .none
      (permissionCache env.orm client).expiry with
    | error e' => exact hE e' hcache
    | ok r =>
      rw [hcache] at h
      cases h

/-- What `ClientORMCache.Store` leaves. -/
theorem storeClient_eq {group : Option String} {client : ClientORM} (w : SecurityWorld) :
    (ClientRessource.clientStore env).store w.db w.redis
      (ClientRessource.clientKey group client.clientId) (.model (.client client))
      (ClientRessource.clientStore env).expiry =
      .ok (w.redis.put (clientText (pyStr group) client.clientId)
        ⟨.dumped (.dict (clientJson client)), none⟩) := by
  have hex : exSeconds (setExpiry (ClientRessource.clientStore env).expiry) = .ok none := rfl
  have hstore := CacheType.store_of_not_nx (T := ClientRessource.clientStore env) w.db w.redis rfl
    (client_builder (pyStr group) client.clientId) rfl (textOf_client rfl rfl client) hex
  exact hstore

theorem wp_storeClient {group : Option String} {client : ClientORM}
    {Q : Unit → SecurityWorld → Prop} {E : SecurityWorld → Prop}
    (h : Q () ⟨w.db, w.redis.put (clientText (pyStr group) client.clientId)
      ⟨.dumped (.dict (clientJson client)), none⟩⟩) :
    Txn.wp (ClientRessource.storeClient env group client) Q E w := by
  refine wp_onCache.mpr ⟨fun redis hredis => ?_, fun e he => ?_⟩
  · cases (storeClient_eq w).symm.trans hredis
    exact h
  · cases (storeClient_eq w).symm.trans he

theorem wp_invalidClient {group : Option String} {clientId : String}
    {Q : Unit → SecurityWorld → Prop} {E : SecurityWorld → Prop}
    (h : Q () ⟨w.db, w.redis.erase (clientText (pyStr group) clientId)⟩) :
    Txn.wp (ClientRessource.invalidClient env group clientId) Q E w :=
  wp_onCache.mpr ⟨fun _ hredis => Except.ok.inj hredis ▸ h, fun _ he => by cases he⟩

theorem wp_invalidPermission {group : Option String} {client : ClientORM}
    {Q : Unit → SecurityWorld → Prop} {E : SecurityWorld → Prop}
    (h : Q () ⟨w.db, w.redis.erase (permissionText (pyStr group) client.clientId)⟩) :
    Txn.wp (ClientRessource.invalidPermission env group client) Q E w :=
  wp_onCache.mpr ⟨fun _ hredis => Except.ok.inj hredis ▸ h, fun _ he => by cases he⟩

/-- The tables with a new client and its mappings. -/
theorem insertClient_tables (orm : Orm) (hsound : db.Sound) {client : ClientORM}
    {policyIds : List String} {db₁ : SecurityDb} (hfree : PartFree client.clientId)
    (hg : PartFree (pyStr client.group))
    (hinsert : insertClient client db = .ok db₁)
    (hmappings : insertMappings (.client client.clientId) policyIds db₁ = .ok db') :
    db'.Sound ∧ db'.clients.get? client.clientId = some client ∧
      db.clients.get? client.clientId = none ∧
      ∀ c, c ≠ client.clientId → SameFor orm db db' c := by
  unfold insertClient at hinsert
  split at hinsert
  · cases hinsert
  split at hinsert
  · cases hinsert
  rename_i hnew
  cases hinsert
  obtain ⟨rfl, hall⟩ := insertMappings_ok hmappings
  refine ⟨⟨fun c row hrow => ?_, hsound.groupIds, fun m hm => ?_⟩, Dict.get?_set_self _ _ _,
    (Dict.not_mem_keys_iff _ _).mp fun h => hnew (.inl h),
    fun c hc => ⟨Dict.get?_set_ne _ _ hc, fun row hrow => ?_⟩⟩
  · by_cases hc : c = client.clientId
    · subst hc
      cases Option.some.inj (hrow.symm.trans (Dict.get?_set_self _ _ _))
      exact ⟨rfl, hfree, hg⟩
    · exact hsound.own c row ((Dict.get?_set_ne _ _ hc).symm.trans hrow)
  · rcases List.mem_append.mp hm with hm | hm
    · exact hsound.mapped m hm
    · obtain ⟨p, hp, rfl⟩ := List.mem_map.mp hm
      exact hall p hp
  · -- the new mappings are those of the new client
    refine currentPolicies_append rfl rfl fun m hm => ?_
    obtain ⟨p, -, rfl⟩ := List.mem_map.mp hm
    have hne : client.clientId ≠ row.clientId := fun h =>
      hc ((hsound.own c row hrow).1.symm.trans h.symm)
    simp [hne]

/-- Entries stay right where the tables change for one client of which nothing is cached, but
under the keys that are left out. -/
theorem entries_of_tables {redis : CacheDb SecurityModel} (omit_ : String → Prop)
    (h : redis.Keeps (EntryRight orm db)) (hsame : ∀ c', c' ≠ c → SameFor orm db db' c')
    (hnothing : ∀ g, PartFree g → ¬ omit_ g → NothingCached redis g c) {k : String}
    {e : Timed (RedisText SecurityModel) ℚ} (he : redis.lookup? k = some e)
    (hk : ∀ g, omit_ g → clientText g c ≠ k ∧ permissionText g c ≠ k) :
    EntryRight orm db' k e.value := by
  refine (h k e he).sameFor fun c' => ?_
  by_cases hc : c' = c
  · subst hc
    refine .inr fun g hg => ?_
    by_cases hg' : omit_ g
    · exact hk g hg'
    · refine ⟨?_, ?_⟩
      · rintro rfl
        cases he.symm.trans (hnothing g hg hg').1
      · rintro rfl
        cases he.symm.trans (hnothing g hg hg').2
  · exact .inl (hsame c' hc)

theorem createClient_current (horm : env.orm.Restores) (hw : Current env.orm w)
    (client : FullClientModel) (admin : Bool) (gid : String) {drawn : Drawn}
    (hfree : PartFree drawn.clientId)
    (hnothing : ∀ g, PartFree g → NothingCached w.redis g drawn.clientId) :
    Txn.wp (ClientRessource.createClient env client admin gid drawn) (fun _ => Current env.orm)
      (Current env.orm) w := by
  refine Txn.wp_bind.mpr (Txn.wp_get.mpr (Txn.wp_bind.mpr (Txn.wp_lift.mpr
    ⟨fun ⟨password, salt⟩ _ => ?_, fun _ _ => hw⟩)))
  refine Txn.wp_bind.mpr (Txn.wp_lift.mpr ⟨fun group hgroup => ?_, fun _ _ => hw⟩)
  have hg := clientGroup_free hw.sound hgroup
  obtain ⟨inst, hinst⟩ :
    ∃ inst, ClientRessource.newClient client group password salt drawn = inst := ⟨_, rfl⟩
  have hid : inst.clientId = drawn.clientId := hinst ▸ rfl
  have hgroup : inst.group = group := hinst ▸ rfl
  have hghost : inst.authenticated = false := hinst ▸ rfl
  refine wp_inTransaction.mpr ?_
  dsimp only
  rw [hinst, ← hid]
  rw [← hid] at hfree hnothing
  rw [← hgroup] at hg ⊢
  refine Txn.wp_bind.mpr (wp_onDb.mpr ⟨fun db₁ hinsert => ?_, fun _ _ => hw⟩)
  refine Txn.wp_bind.mpr (wp_onDb.mpr ⟨fun db hmappings => ?_, fun _ _ => hw⟩)
  obtain ⟨hsound, hrow, hnone, hsame⟩ :=
    insertClient_tables env.orm hw.sound hfree hg hinsert hmappings
  refine Txn.wp_bind.mpr (Txn.wp_lift.mpr ⟨fun ttl _ => ?_, fun _ _ => hw⟩)
  have hchecks : ∀ i, clientRead env.orm (.dumped (.dict (clientJson inst))) =
      .ok (.model (.client i)) → SameChecks i inst := fun i => clientRead_client horm
  -- the entry of the client: right if it stays, and of no use if the tables are set back
  have hstored : (w.redis.put (clientText (pyStr inst.group) inst.clientId)
      ⟨.dumped (.dict (clientJson inst)), none⟩).Keeps (EntryRight env.orm db) := by
    refine TimedStore.Keeps.put (fun k e he => ?_) (entryRight_client hg hfree fun i hi => ?_)
    · exact entries_of_tables (fun _ => False) hw.entries hsame
        (fun g hg _ => hnothing g hg) he nofun
    · unfold ClientRight
      rw [hrow]
      exact hchecks i hi
  have hunstored : (w.redis.put (clientText (pyStr inst.group) inst.clientId)
      ⟨.dumped (.dict (clientJson inst)), none⟩).Keeps (EntryRight env.orm w.db) := by
    refine TimedStore.Keeps.put hw.entries (entryRight_client hg hfree fun i hi => ?_)
    unfold ClientRight
    rw [hnone]
    exact (hchecks i hi).authenticated.trans hghost
  refine Txn.wp_bind.mpr (wp_storeClient (Txn.wp_bind.mpr (wp_onCache.mpr
    ⟨fun redis hstore => ?_, fun _ _ => ⟨hw.sound, hunstored⟩⟩)))
  have hkept (db' : SecurityDb) (h : (w.redis.put (clientText (pyStr inst.group) inst.clientId)
      ⟨.dumped (.dict (clientJson inst)), none⟩).Keeps (EntryRight env.orm db')) :
      redis.Keeps (EntryRight env.orm db') :=
    entries_of_store (n := .challenge) rfl nofun nofun hstore h
  have hcommitted : Current env.orm ⟨db, redis⟩ := ⟨hsound, hkept db hstored⟩
  have hrolledBack : Current env.orm ⟨w.db, redis⟩ := ⟨hw.sound, hkept w.db hunstored⟩
  exact cachePermission_current horm hcommitted hg hfree hrow (SameChecks.refl inst)
    fun _ _ => hrolledBack

/-! ### `update_client` -/

/-- The client of a path is a row of the table, without its group. -/
theorem findClient_ok {admin : Bool} {cid clientId : String} {client : ClientORM}
    (h : ClientRessource.findClient admin cid clientId db = .ok client) :
    ∃ c row, db.clients.get? c = some row ∧ client = { row with groupFetched := false } := by
  unfold ClientRessource.findClient at h
  split at h
  · cases h
  split at h
  · cases h
  dsimp only at h
  split at h
  · cases h
  · cases h
  rename_i row hfound
  split at h
  · cases h
  cases h
  split at hfound
  · exact ⟨clientId, row, Option.some.inj hfound, rfl⟩
  · obtain ⟨e, he, rfl⟩ := Option.map_eq_some_iff.mp (Option.some.inj hfound)
    exact ⟨e.1, e.2, (Dict.mem_entries_iff _ _ _).mp (List.mem_of_find?_eq_some he), rfl⟩
  · cases hfound

/-- The group of the new row is the old one, none, or one of the table. -/
theorem updateClientRow_free (hsound : db.Sound) {password : PasswordEnv}
    {update : UpdateClientModel} {client updated : ClientRow} {admin rmGroup isRevoked : Bool}
    {gid : String} {salt : Bytes} (hfree : PartFree (pyStr client.group))
    (h : updateClientRow { password with groups := db.groupNames } update client admin gid rmGroup
      salt = .ok (updated, isRevoked)) : PartFree (pyStr updated.group) := by
  obtain ⟨⟨grouped, revoked₁⟩, hgroup, h⟩ := bind_ok h
  obtain ⟨⟨hashed, revoked₂⟩, hpassword, h⟩ := bind_ok h
  have hcolumns : updated.group = hashed.group := by
    unfold updateColumns at h
    dsimp only at h
    split at h
    · cases h
      rfl
    · split at h
      · cases h
      split at h
      · cases h
      cases h
      rfl
  have hhashed : hashed.group = grouped.group := by
    unfold updatePassword at hpassword
    split at hpassword
    · obtain ⟨⟨_, _⟩, -, hpassword⟩ := bind_ok hpassword
      cases hpassword
      rfl
    · cases hpassword
      rfl
  rw [hcolumns, hhashed]
  unfold updateGroup at hgroup
  split at hgroup
  · obtain ⟨group, hfound, hgroup⟩ := bind_ok hgroup
    cases hgroup
    exact getGroup_free hsound hfound
  · split at hgroup
    · cases hgroup
      exact partFree_none
    · cases hgroup
      exact hfree

theorem updateInstance_ok (hsound : db.Sound) {update : FullUpdateClientModel}
    {client updated : ClientORM} {admin rmGroup isRevoked : Bool} {gid : String} {salt : Bytes}
    (hfree : PartFree (pyStr client.group))
    (h : ClientRessource.updateInstance env db update client admin gid rmGroup salt =
      .ok (updated, isRevoked)) :
    updated.clientId = client.clientId ∧ PartFree (pyStr updated.group) := by
  obtain ⟨⟨row, revoked⟩, hrow, h⟩ := bind_ok h
  cases h
  exact ⟨rfl, updateClientRow_free hsound hfree hrow⟩

/-- What `_update_policy` leaves: only the mappings of the client change. -/
structure PoliciesUpdated (db db' : SecurityDb) (c : String) : Prop where
  tables : db' = { db with mappings := db'.mappings }
  others : ∀ c', c' ≠ c → (db'.mappings.filter fun m => m.holder = .client c') =
    db.mappings.filter fun m => m.holder = .client c'
  mapped : (∀ m ∈ db.mappings, m.policyId ∈ db.policies.keys) →
    ∀ m ∈ db'.mappings, m.policyId ∈ db.policies.keys

theorem policiesUpdated_insert (keep : PolicyMapping → Bool) (policyIds : List String)
    (hkeep : ∀ m, m.holder ≠ .client c → keep m = true)
    (h : insertMappings (.client c) policyIds { db with mappings := db.mappings.filter keep } =
      .ok db') : PoliciesUpdated db db' c := by
  obtain ⟨rfl, hall⟩ := insertMappings_ok h
  refine ⟨rfl, fun c' hc => ?_, fun hmapped m hm => ?_⟩
  · have hnew : (policyIds.map (⟨·, .client c⟩)).filter
        (fun m : PolicyMapping => m.holder = .client c') = [] := by
      rw [List.filter_eq_nil_iff]
      rintro m hm
      obtain ⟨p, -, rfl⟩ := List.mem_map.mp hm
      simp [Ne.symm hc]
    show (db.mappings.filter keep ++ policyIds.map _).filter _ = _
    rw [List.filter_append, hnew, List.append_nil, List.filter_filter]
    refine List.filter_congr fun m _ => ?_
    by_cases hm : m.holder = .client c'
    · have hne : m.holder ≠ .client c := fun h => hc (Listee.client.inj (hm.symm.trans h))
      simp [hm, hkeep m hne]
    · simp [hm]
  · rcases List.mem_append.mp hm with hm | hm
    · exact hmapped m (List.mem_of_mem_filter hm)
    · obtain ⟨p, hp, rfl⟩ := List.mem_map.mp hm
      exact hall p hp

theorem updatePolicies_ok {order : SetOrder} {policyIds : List String} {mode : PolicyUpdateMode}
    (h : updatePolicies order policyIds mode c db = .ok db') : PoliciesUpdated db db' c := by
  cases mode with
  | delete =>
    cases h
    refine policiesUpdated_insert (fun m => ¬ (m.holder = .client c ∧ m.policyId ∈ policyIds)) []
      (fun m hm => ?_) rfl
    simp [hm]
  | merge =>
    refine policiesUpdated_insert (fun _ => true) (order.enum policyIds.dedup) (fun _ _ => rfl) ?_
    rw [List.filter_true]
    exact h
  | set =>
    refine policiesUpdated_insert (fun m => m.holder ≠ .client c) policyIds (fun m hm => ?_) h
    simpa using hm

/-- What `save` leaves of a client whose row is there. -/
theorem saveClient_ok {client : ClientORM} (hrow : db.clients.get? client.clientId = some row)
    (h : saveClient client db = .ok db') :
    db' = { db with clients := db.clients.set client.clientId client } := by
  unfold saveClient at h
  rw [hrow] at h
  obtain ⟨new, hguard, h⟩ := bind_ok h
  unfold guardAdminDeletion at hguard
  split at hguard
  · cases hguard
  cases hguard
  dsimp only at h
  split at h
  · cases h
  cases h
  rfl

/-- The tables with new mappings of a client, and its new row. -/
theorem updateClient_tables (orm : Orm) (hsound : db.Sound) {client : ClientORM} {db₁ : SecurityDb}
    (hrow : db.clients.get? client.clientId = some row) (hg : PartFree (pyStr client.group))
    (hpolicies : PoliciesUpdated db db₁ client.clientId) (hsave : saveClient client db₁ = .ok db') :
    db'.Sound ∧ db'.clients.get? client.clientId = some client ∧
      (∀ c, c ≠ client.clientId → SameFor orm db db' c) ∧
      currentPolicies orm db' client = currentPolicies orm db₁ client := by
  obtain ⟨htables, hothers, hmapped⟩ := hpolicies
  have hrow₁ : db₁.clients.get? client.clientId = some row := by rwa [htables]
  cases saveClient_ok hrow₁ hsave
  have hclients : db₁.clients = db.clients := by rw [htables]
  have hgroups : db₁.groups = db.groups := by rw [htables]
  have hpolicies : db₁.policies = db.policies := by rw [htables]
  refine ⟨⟨fun c row' hrow' => ?_, fun g hg => hsound.groupIds g (hgroups ▸ hg), fun m hm => ?_⟩,
    Dict.get?_set_self _ _ _, fun c hc => ⟨?_, fun row' hrow' => ?_⟩, ?_⟩
  · by_cases hc : c = client.clientId
    · subst hc
      cases Option.some.inj (hrow'.symm.trans (Dict.get?_set_self _ _ _))
      exact ⟨rfl, (hsound.own _ _ hrow).2.1, hg⟩
    · refine hsound.own c row' ?_
      rw [← hclients]
      exact (Dict.get?_set_ne _ _ hc).symm.trans hrow'
  · show m.policyId ∈ db₁.policies.keys
    rw [hpolicies]
    exact hmapped hsound.mapped m hm
  · show (db₁.clients.set client.clientId client).get? c = _
    rw [Dict.get?_set_ne _ _ hc, hclients]
  · refine currentPolicies_congr (hothers _ fun h => hc ?_) fun m _ => ?_
    · exact (hsound.own c row' hrow').1.symm.trans h
    · show db₁.policies.get? m.policyId = _
      rw [hpolicies]
  · exact currentPolicies_congr rfl fun _ _ => rfl

/-- Where the permission of a client is not cached, and its policies combine, it can be. -/
theorem exists_cachePermission {redis : CacheDb SecurityModel} {client : ClientORM}
    {combined : Combined} {text : RedisText SecurityModel}
    (hkey : client.groupKey env.orm = .ok client.group)
    (hnone : redis.lookup? (permissionText (pyStr client.group) client.clientId) = none)
    (hcombined : currentPolicies env.orm db client = .ok combined)
    (htext : toText combined.json = .ok text) :
    ∃ r, (permissionCache env.orm client).cache env.orm.loads db redis
      (ClientRessource.clientKey client.group client.clientId) .none
      (permissionCache env.orm client).expiry = .ok r := by
  have hk : (permissionCache env.orm client).keys.builder
      (ClientRessource.clientKey client.group client.clientId) =
      .ok (permissionText (pyStr client.group) client.clientId) := permission_builder _ _
  have hget : (permissionCache env.orm client).get env.orm.loads redis
      (ClientRessource.clientKey client.group client.clientId) = .ok .none := by
    rw [CacheType.get_eq hk, TimedStore.get?_eq_none_iff.mpr hnone]
  have hpolicies : combinedPolicies env.orm db client = .ok combined := by
    unfold combinedPolicies
    rw [hkey]
    exact hcombined
  have hdb : (permissionCache env.orm client).dbObject db
      (ClientRessource.clientKey client.group client.clientId).parts = .ok combined.json := by
    show ((combinedPolicies env.orm db client >>= fun combined => .ok combined.json) >>=
      fun result => _ : Py SecurityVal) = _
    rw [hpolicies]
    rfl
  exact ⟨_, CacheType.cache_of_stored (T := permissionCache env.orm client)
    (fun _ h => by cases h) rfl rfl hk hget hdb rfl htext (show _ = Except.ok none from rfl)⟩

/-- The end of `update_client`, in tables whose cache says nothing of the client but under its new
group. -/
theorem recache_current (horm : env.orm.Restores) {client : ClientORM} {E : SecurityWorld → Prop}
    (hsound : w.db.Sound) (hrow : w.db.clients.get? client.clientId = some client)
    (hkey : client.groupKey env.orm = .ok client.group)
    (hentries : ∀ k e, w.redis.lookup? k = some e →
      k ≠ clientText (pyStr client.group) client.clientId →
      k ≠ permissionText (pyStr client.group) client.clientId → EntryRight env.orm w.db k e.value)
    {combined : Combined} {text : RedisText SecurityModel}
    (hcombined : currentPolicies env.orm w.db client = .ok combined)
    (htext : toText combined.json = .ok text) :
    Txn.wp (do
      ClientRessource.invalidClient env client.group client.clientId
      ClientRessource.storeClient env client.group client
      ClientRessource.invalidPermission env client.group client
      let _ ← ClientRessource.cachePermission env client.group client)
      (fun _ => Current env.orm) E w := by
  obtain ⟨-, hc, hg⟩ := hsound.own _ _ hrow
  obtain ⟨kc, hkc⟩ : ∃ kc, clientText (pyStr client.group) client.clientId = kc := ⟨_, rfl⟩
  obtain ⟨kp, hkp⟩ : ∃ kp, permissionText (pyStr client.group) client.clientId = kp := ⟨_, rfl⟩
  rw [hkc, hkp] at hentries
  refine Txn.wp_bind.mpr (wp_invalidClient ?_)
  refine Txn.wp_bind.mpr (wp_storeClient ?_)
  refine Txn.wp_bind.mpr (wp_invalidPermission ?_)
  rw [hkc, hkp]
  have hright : Current env.orm ⟨w.db, ((w.redis.erase kc).put kc
      ⟨.dumped (.dict (clientJson client)), none⟩).erase kp⟩ := by
    refine ⟨hsound, fun k e he => ?_⟩
    obtain ⟨hnp, he⟩ := TimedStore.lookup?_erase he
    rcases TimedStore.lookup?_put he with ⟨rfl, rfl⟩ | ⟨hnc, he⟩
    · rw [← hkc]
      refine entryRight_client hg hc fun i hi => ?_
      unfold ClientRight
      rw [hrow]
      exact clientRead_client horm hi
    · exact hentries k e (TimedStore.lookup?_erase he).2 hnc hnp
  refine cachePermission_current horm hright hg hc hrow (SameChecks.refl client) fun e he => ?_
  -- the policies combine, and nothing is cached any more
  have herased := TimedStore.lookup?_erase_self (k := kp) (s := (w.redis.erase kc).put kc
    ⟨.dumped (.dict (clientJson client)), none⟩)
  rw [← hkp] at herased
  obtain ⟨r, hr⟩ := exists_cachePermission hkey herased hcombined htext
  rw [hkp] at hr
  cases hr.symm.trans he

theorem updateClient_current (horm : env.orm.Restores) (hw : Current env.orm w)
    {clientId : String} {update : FullUpdateClientModel} {admin : Bool} {cid gid : String}
    {rmgrp : Option String} {mode : PolicyUpdateMode} {salt : Bytes}
    (hmeets : AdminMeets env isFile w
      (.updateClient clientId update admin cid gid rmgrp mode salt)) :
    Txn.wp (ClientRessource.updateClient env clientId update admin cid gid rmgrp mode salt)
      (fun _ => Current env.orm) (Current env.orm) w := by
  refine Txn.wp_bind.mpr (Txn.wp_get.mpr (Txn.wp_bind.mpr (Txn.wp_lift.mpr
    ⟨fun client hfind => ?_, fun _ _ => hw⟩)))
  refine Txn.wp_bind.mpr (Txn.wp_lift.mpr ⟨fun rmgrp_ hrmgrp => ?_, fun _ _ => hw⟩)
  refine wp_inTransaction.mpr (Txn.wp_bind.mpr (Txn.wp_lift.mpr ⟨fun rmGroup hrm => ?_,
    fun _ _ => hw⟩))
  obtain rfl : rmgrp_ = some rmGroup := by
    cases rmgrp_ with
    | none => cases hrm
    | some b => exact congrArg some (Except.ok.inj hrm)
  refine Txn.wp_bind.mpr (Txn.wp_lift.mpr ⟨fun ⟨updated, isRevoked⟩ hupdated => ?_,
    fun _ _ => hw⟩)
  refine Txn.wp_bind.mpr (wp_onDb.mpr ⟨fun db₁ hpolicies => ?_, fun _ _ => hw⟩)
  refine Txn.wp_bind.mpr (Txn.wp_lift.mpr ⟨fun _ _ => ?_, fun _ _ => hw⟩)
  refine Txn.wp_bind.mpr (wp_onDb.mpr ⟨fun db₂ hsave => ?_, fun _ _ => hw⟩)
  refine Txn.wp_bind.mpr (Txn.wp_lift.mpr ⟨fun group hgroup => ?_, fun _ _ => hw⟩)
  obtain ⟨c, row, hrow, hclient⟩ := findClient_ok hfind
  obtain ⟨hown, -, hfree⟩ := hw.sound.own c row hrow
  have hid : client.clientId = c := hclient ▸ hown
  obtain ⟨hsame, hg⟩ := updateInstance_ok hw.sound (hclient ▸ hfree) hupdated
  obtain ⟨hnothing, combined, text, hcombined, htext⟩ :=
    hmeets client rmGroup updated isRevoked db₁ hfind hrmgrp hupdated (hsame ▸ hpolicies)
  obtain ⟨inst, hinst⟩ : ∃ inst, ClientRessource.revoked updated isRevoked = inst := ⟨_, rfl⟩
  have hsameId : inst.clientId = updated.clientId := hinst ▸ rfl
  have hsameGroup : inst.group = updated.group := hinst ▸ rfl
  dsimp only at hsave hgroup ⊢
  rw [hinst] at hsave hgroup ⊢
  cases horm.groupKey hgroup
  rw [← hsame, ← hsameId, ← hsameGroup] at hnothing
  rw [← hsame, ← hsameId] at hid
  subst hid
  rw [← hsameId] at hpolicies
  rw [← hsameGroup] at hg
  obtain ⟨hsound, hrow', hothers, hcurrent⟩ := updateClient_tables env.orm hw.sound hrow hg
    (updatePolicies_ok hpolicies) hsave
  refine recache_current horm hsound hrow' hgroup (fun k e he hnc hnp => ?_)
    (hcurrent.trans ?_) htext
  · exact entries_of_tables (fun g => g = pyStr inst.group) hw.entries hothers hnothing he
      (fun g hg => hg ▸ ⟨hnc.symm, hnp.symm⟩)
  · rw [← hcombined, ← hinst]
    rfl

/-- `delete_client` raises before anything is done. -/
theorem wp_deleteClient {admin : Bool} {cid clientId : String} {Q : Unit → SecurityWorld → Prop}
    {E : SecurityWorld → Prop} (h : E w) :
    Txn.wp (ClientRessource.deleteClient env admin cid clientId) Q E w :=
  Txn.wp_bind.mpr (Txn.wp_get.mpr (Txn.wp_bind.mpr (Txn.wp_lift.mpr
    ⟨fun _ _ => Txn.wp_lift.mpr ⟨nofun, fun _ _ => h⟩, fun _ _ => h⟩)))

/-! ## Runs -/

/-- A step that meets the condition is right, and the cache says what the tables have after it. -/
theorem adminStep_right (horm : env.orm.Restores) (hw : Current env.orm w) {op : AdminOp}
    (hmeets : AdminMeets env isFile w op) :
    AdminRight env isFile w op ∧ Current env.orm (adminStep env isFile w op) := by
  cases op with
  | createPolicy policyId policyModel =>
    exact ⟨trivial, Txn.of_wp (createPolicy_current hw policyId policyModel)⟩
  | updatePolicy policyId policyModel mode =>
    exact ⟨trivial, Txn.of_wp (updatePolicy_current hw policyId policyModel mode)⟩
  | deletePolicy policyId => exact ⟨trivial, Txn.of_wp (deletePolicy_current hw policyId)⟩
  | createGroup groupId groupName policyIds =>
    exact ⟨trivial, Txn.of_wp (createGroup_current hw hmeets groupName policyIds)⟩
  | deleteGroup admin gid groupId =>
    exact ⟨trivial, Txn.of_wp (deleteGroup_current hw admin gid groupId)⟩
  | createClient client admin gid drawn =>
    exact ⟨trivial, Txn.of_wp (createClient_current horm hw client admin gid hmeets.1 hmeets.2)⟩
  | updateClient clientId update admin cid gid rmgrp mode salt =>
    exact ⟨trivial, Txn.of_wp (updateClient_current horm hw hmeets)⟩
  | deleteClient admin cid clientId =>
    refine ⟨fun client _ hok => ?_, Txn.of_wp (wp_deleteClient hw)⟩
    exact (Txn.ok_of_wp (Q := fun _ _ => False) (E := fun _ => True) (wp_deleteClient trivial)
      hok).elim
  | request request =>
    cases htoken : request.permission with
    | error e =>
      refine ⟨fun token h => ?_, ?_⟩
      · cases htoken.symm.trans h
      · show Current env.orm { w with redis := (dispatch env.orm isFile w request).2 }
        rw [dispatch_of_error (authenticate_of_refused htoken)]
        exact hw
    | ok token =>
      obtain ⟨hfree, hserve⟩ := hmeets token htoken
      obtain ⟨hgiven, hcurrent⟩ := dispatch_spec isFile horm hw htoken hfree
      refine ⟨fun token' h => ?_, hcurrent⟩
      cases Except.ok.inj (htoken.symm.trans h)
      refine ⟨hgiven, fun row attached hrow hto hattached => ?_⟩
      exact dispatch_served horm hw htoken hfree hrow hto.1 (hserve row attached hrow hto hattached)
        hattached
  | advance t => exact ⟨trivial, hw.sound, TimedStore.Keeps.advance hw.entries t⟩

/-- **Permissions over runs.** From tables that keep their constraints, and a cache that says what
they have, every run whose steps meet the condition is right. -/
theorem permissions_right (env : AdminEnv) (isFile : String → Py Bool) (horm : env.orm.Restores)
    {w : SecurityWorld} (hw : Current env.orm w) {ops : List AdminOp}
    (hmeets : Always (adminStep env isFile) (AdminMeets env isFile) w ops) :
    Always (adminStep env isFile) (AdminRight env isFile) w ops := by
  have hstep : ∀ w op, Current env.orm w → AdminMeets env isFile w op →
      AdminRight env isFile w op ∧ Current env.orm (adminStep env isFile w op) :=
    fun _ _ hw h => adminStep_right horm hw h
  exact (always_of_inv hstep hw hmeets).1

/-! ## Inputs -/

/-- An optional text of a value. -/
def readOptional : SecurityVal → Option String
  | .str s => some s
  | _ => none

/-- The member of an enum. -/
def readScope (s : String) : Scope :=
  ([Scope.SoloDolo, .Organization, .Domain].find? fun scope => scope.value = s).getD .Free

/-- The member of an enum. -/
def readClientType (s : String) : ClientType :=
  ([ClientType.Admin, .Twilio, .App, .Service].find? fun type => type.value = s).getD .User

/-- `ClientORM(**obj)`, on the fields of `to_json`. The others have their defaults. -/
def readClient : List (String × SecurityVal) → Py ClientORM
  | [(_, .str clientId), (_, clientName), (_, .str clientUsername), (_, .str clientDescription),
      (_, .str authType), (_, .str clientScope), (_, .bool authenticated), (_, .str clientType),
      (_, .str issuedFor), (_, group)] =>
    .ok {
      clientName := readOptional clientName
      clientDescription
      clientScope := readScope clientScope
      issuedFor
      group := readOptional group
      password := ""
      passwordSalt := ""
      canLogin := false
      authenticated
      clientId
      clientUsername
      clientType := readClientType clientType
      authType := if authType = "API_TOKEN" then .API_TOKEN else .ACCESS_TOKEN
      groupFetched := false }
  | _ => .error .typeError

/-- Tortoise as it is. -/
def readOrm : Orm := { someOrm with constructClient := readClient }

theorem readOrm_restores : readOrm.Restores where
  construct client i h := by
    have hoptional : ∀ s, readOptional (optionalStr s) = s := by rintro (_ | _) <;> rfl
    have hscope : ∀ scope : Scope, readScope scope.value = scope := by
      rintro (_ | _ | _ | _) <;> rfl
    have htype : ∀ type : ClientType, readClientType type.value = type := by
      rintro (_ | _ | _ | _ | _) <;> rfl
    cases h
    exact ⟨rfl, hoptional _, hscope _, rfl, rfl, htype _⟩
  unfetched _ _ h := by cases h

open Role in
/-- A policy with one role. -/
def somePolicy : PolicyORM where
  allowedProfiles := []
  allowedAgents := []
  allowedRoutes := .empty
  allowedAssets := []
  allowedBlogs := []
  roles := [PUBLIC]

/-- A client without a group. -/
def someMember (type : ClientType) : ClientORM :=
  { someClient with
    clientId := "member"
    clientUsername := "member"
    clientType := type
    group := none }

open Role in
/-- What the policy combines to. -/
def someCombined : Combined where
  policies := [somePolicy]
  roles := [PUBLIC]
  allowedAssets := []
  allowedProfiles := []
  allowedBlogs := []
  allowedRoutes := .empty
  allowedAgents := []

/-- The client and its policy, with both entries in the cache. -/
def memberWorld (type : ClientType) : SecurityWorld where
  db := ⟨Dict.empty.set "member" (someMember type), Dict.empty, [],
    Dict.empty.set "p" somePolicy, [⟨"p", .client "member"⟩]⟩
  redis := ((TimedStore.empty 0).put (clientText "None" "member")
      ⟨.dumped (.dict (clientJson (someMember type))), none⟩).put
    (permissionText "None" "member") ⟨.dumped someCombined.json, none⟩

theorem filterPaths_nil : filterPaths [] '/' = [] := by
  unfold filterPaths
  simp [filterLoop]

theorem currentPolicies_memberWorld (type : ClientType) :
    currentPolicies readOrm (memberWorld type).db (someMember type) = .ok someCombined := by
  have hloaded : loadedPolicies ((memberWorld type).db.mappings.filterMap
      (memberWorld type).db.loadMapping) ⟨"member", none⟩ = [somePolicy] := by
    rw [loadedPolicies_eq]
    rfl
  have hpaths : filterPaths (readOrm.order.enum (unionOf (·.allowedAssets) [] [somePolicy])) '/' =
      [] := filterPaths_nil
  show getCombinedPolicies readOrm.order _ ⟨"member", none⟩ = _
  rw [getCombinedPolicies_eq, hloaded]
  simp only [hpaths]
  rfl

theorem memberWorld_current (type : ClientType) : Current readOrm (memberWorld type) := by
  have hfree : PartFree "None" ∧ PartFree "member" := by
    unfold PartFree
    decide
  have hrow : (memberWorld type).db.clients.get? "member" = some (someMember type) :=
    Dict.get?_set_self _ _ _
  refine ⟨⟨fun c row hrow' => ?_, nofun, fun m hm => ?_⟩, ?_⟩
  · by_cases hc : c = "member"
    · subst hc
      cases Option.some.inj (hrow.symm.trans hrow')
      exact ⟨rfl, hfree.2, hfree.1⟩
    · cases (Dict.get?_set_ne _ _ hc).symm.trans hrow'
  · cases List.mem_singleton.mp hm
    exact List.mem_singleton.mpr rfl
  · refine TimedStore.Keeps.put (TimedStore.Keeps.put (TimedStore.keeps_empty 0)
      (entryRight_client hfree.1 hfree.2 fun i hi => ?_))
      (entryRight_permission hfree.1 hfree.2 fun v hv _ row hrow' => ?_)
    · exact clientRead_client readOrm_restores hi
    · cases Option.some.inj (hrow.symm.trans hrow')
      cases hv
      exact ⟨someCombined, currentPolicies_memberWorld type, rfl⟩

/-- A request of the client. -/
def memberRequest : Request := ⟨.ok ⟨"member", none, none⟩, "127.0.0.1"⟩

/-- What the endpoints find around `memberWorld`. -/
def someAdminEnv : AdminEnv where
  orm := readOrm
  password :=
    { hmacHex := fun _ _ => ""
      hashKey := some "key"
      envKey := none
      ipv4Validator := fun _ => true
      ipv4SubnetValidator := fun _ => true
      groups := .empty }
  parseToBool s := .ok (if s = "true" then some true else none)
  authExpiration := 3600
  datePlus := .error .typeError
  revokeChallenges _ := .ok ()
  construct _ := .error .typeError
  timeLeft _ := .error .attributeError

/-- A policy and a group are made, and an admin is given its permission. -/
theorem permissions_right_admin :
    Always (adminStep someAdminEnv fun _ => .ok false)
      (AdminRight someAdminEnv fun _ => .ok false) (memberWorld .Admin)
      [.createPolicy "q" ⟨[], [], .empty, [], [], []⟩, .createGroup "g" "g" ["q"],
        .request memberRequest] := by
  refine permissions_right someAdminEnv _ readOrm_restores (memberWorld_current .Admin)
    ⟨trivial, ?_, ?_, trivial⟩
  · show PartFree "g"
    unfold PartFree
    decide
  · intro token htoken
    cases htoken
    refine ⟨?_, fun row attached hrow _ _ => ?_⟩
    · unfold TokenPermission.Free PartFree
      decide
    · have hrow : some (someMember .Admin) = some row := hrow
      cases hrow
      exact ⟨.inl ⟨_, rfl⟩, .inl rfl, .inl ⟨_, rfl, rfl⟩⟩

open Role in
/-- The request of a client that is no admin raises, though the client is authenticated and not
blacklisted, and its policy has a role for it. -/
theorem not_permissions_right :
    ¬ Always (adminStep someAdminEnv fun _ => .ok false)
      (AdminRight someAdminEnv fun _ => .ok false) (memberWorld .User)
      [.request memberRequest] := by
  rintro ⟨hright, -⟩
  have hattached : currentPermission readOrm (fun _ => .ok false) (memberWorld .User).db
      (someMember .User) = .ok ⟨[PUBLIC], some (.dict []), some (.list []), ⟨[], []⟩,
        some (.list []), some (.list [])⟩ := by
    unfold currentPermission
    rw [currentPolicies_memberWorld]
    rfl
  have hunlisted : ¬ Listed (memberWorld .User).db.blacklist 0 "member" none := by
    rintro (⟨e, he, -⟩ | ⟨g, -, e, he, -⟩) <;> cases he
  obtain ⟨client, hserved⟩ := (hright _ rfl).2 (someMember .User) _ (Dict.get?_set_self _ _ _)
    ⟨rfl, .inr hunlisted⟩ hattached
  have herror : (dispatch readOrm (fun _ => .ok false) (memberWorld .User) memberRequest).1 =
      .error .typeError := rfl
  cases herror.symm.trans hserved

end Notifyr
