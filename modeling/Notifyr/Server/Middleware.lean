import Notifyr.Auth.Assets
import Notifyr.Depends.CacheRuns
import Notifyr.Services.AdminService

/-!
# The authentication middleware

`JWTAuthMiddleware.dispatch` (`app/server/middleware.py`), with what it calls:
`verify_client_origin` (`app/services/security_service.py`), `GetClient`
(`app/depends/funcs_dep.py`), `filter_asset_permission` and `parse_authPermission_enum`
(`app/classes/auth_permission.py`).

- `Request`: what `verify_auth_permission` made of its token, and its address.
- `cachedClient`, `authenticate`: the client of a request, up to the check of its flag.
- `checkBlacklist`: the blacklist.
- `attach`: the permission that the request is given.
- `dispatch`: the three in turn. An exception leaves what was cached before it.
- `checkBlacklist_spec`: the verdict is that of the cache, and there is none without it.
-/

namespace Notifyr

open Theory

/-- The permission in a token; tokens are made without `roles`. -/
structure TokenPermission where
  clientId : String
  groupId : Option String
  roles : Option (List String)

/-- A request: the outcome of `verify_auth_permission`, and the address it comes from. -/
structure Request where
  permission : Py TokenPermission
  clientIp : String

/-- The key under which the middleware looks for everything about a client. -/
def TokenPermission.key (token : TokenPermission) : StrOrList :=
  .list [pyStr token.groupId, token.clientId]

/-- What the checks of the middleware see: the tables and the cache. -/
abbrev SecurityWorld := CacheWorld SecurityDb SecurityModel

namespace JWTAuthMiddleware

/-! ## The client -/

/-- `GetClient(True, True)` with the id and the permission of the token. The role is looked up
before it is known that it does not matter. -/
def getClient (token : TokenPermission) (db : SecurityDb) : Py SecurityVal :=
  match token.roles with
  | none => .error .keyError
  | some _ =>
    if token.clientId = "" then .ok .none
    else
      match db.clients.get? token.clientId with
      | none => .error (.httpException 404 "Client does not exist")
      | some client => .ok (.model (.client { client with groupFetched := false }))

/-- `ClientORMCache`, for a token. -/
def clientCache (orm : Orm) (token : TokenPermission) : CacheType SecurityDb SecurityModel :=
  clientORMCache orm.clientClass fun db _ => getClient token db

/-- The client of a token. Whatever is no client has no `client_type`. -/
def cachedClient (orm : Orm) (w : SecurityWorld) (token : TokenPermission) :
    Py (ClientORM × CacheDb SecurityModel) := do
  let (obj, redis) ← (clientCache orm token).cache orm.loads w.db w.redis token.key .none
    (clientCache orm token).expiry
  match obj with
  | .model (.client client) => return (client, redis)
  | _ => .error .attributeError

/-- `verify_client_origin`, with the scope and address of the client; the origin is never
missing. -/
def verifyClientOrigin (client : ClientORM) (clientIp : String) : Py Unit :=
  match client.clientScope with
  | .SoloDolo =>
    if clientIp ≠ client.issuedFor then
      .error (.httpException 403 "Token not issued for this user")
    else .ok ()
  | .Organization => .error (.httpException 403 "Token not issued for this user")
  | .Domain => .ok ()
  | .Free => .ok ()

/-- The checks on the client itself. -/
def verifyClient (client : ClientORM) (clientIp : String) : Py Unit := do
  verifyClientOrigin client clientIp
  if !client.authenticated then .error (.httpException 401 "Client is not authenticated")

/-- The request up to the check that its client is authenticated. -/
def authenticate (orm : Orm) (w : SecurityWorld) (request : Request) :
    Py (TokenPermission × ClientORM) × CacheDb SecurityModel :=
  match request.permission with
  | .error e => (.error e, w.redis)
  | .ok token =>
    match cachedClient orm w token with
    | .error e => (.error e, w.redis)
    | .ok (client, redis) =>
      ((verifyClient client request.clientIp).map fun _ => (token, client), redis)

/-! ## The blacklist -/

/-- `bool(v)`. -/
def truth : SecurityVal → Bool
  | .none => false
  | .bool b => b
  | .int n => n != 0
  | .float q => q != 0
  | .str s => s != ""
  | .list items => !items.isEmpty
  | .tuple items => !items.isEmpty
  | .dict entries => !entries.isEmpty
  | .uuid _ | .model _ | .other _ => true

/-- The tuple that `is_blacklisted` returns. -/
def verdict (table : List BlacklistORM) (client : ClientORM) : SecurityVal :=
  let (listed, timeLeft) := AdminService.isBlacklisted table client
  .tuple [.bool listed, timeLeft.elim .none .float]

/-- `BlacklistORMCache`, for a client. -/
def blacklistCache (client : ClientORM) : CacheType SecurityDb SecurityModel :=
  blacklistORMCache fun db _ => .ok (verdict db.blacklist client)

/-- The exception of a blacklisted client. -/
def clientIsBlacklisted : PyErr := .httpException 403 "Client is blacklisted"

/-- The blacklist check. -/
def checkBlacklist (orm : Orm) (w : SecurityWorld) (token : TokenPermission)
    (client : ClientORM) : Py Unit × CacheDb SecurityModel :=
  if client.clientType = .Admin then (.ok (), w.redis)
  else
    match (blacklistCache client).cache orm.loads w.db w.redis token.key .none
        (blacklistCache client).expiry with
    | .error e => (.error e, w.redis)
    | .ok (listed, redis) =>
      (if truth listed then .error clientIsBlacklisted else .ok (), redis)

/-! ## The permission -/

/-- `AuthPermissionCache`, for a client. -/
def permissionCache (orm : Orm) (client : ClientORM) : CacheType SecurityDb SecurityModel :=
  authPermissionCache fun db _ => do return (← combinedPolicies orm db client).json

/-- The permission of a request, as far as it comes from policies. -/
structure AttachedPermission where
  roles : List Role
  allowedRoutes : Option SecurityVal
  allowedProfiles : Option SecurityVal
  allowedAssets : AssetsPermission
  allowedAgents : Option SecurityVal
  allowedBlogs : Option SecurityVal

/-- The items of a list of texts. -/
def asTexts : SecurityVal → Py (List String)
  | .list items => items.mapM fun
    | .str s => .ok s
    | _ => .error .typeError
  | _ => .error .typeError

open Role in
/-- `Role._member_map_[r]`; members have the names that are their values. -/
def roleOf (r : String) : Py Role :=
  match [PUBLIC, STATIC, ADMIN, RELAY, CUSTOM, MFA_OTP, CHAT, RESULT, REFRESH, CONTACTS, TWILIO,
      SUBSCRIPTION, CLIENT, LINK, ASSETS, PROFILE].find? fun role => role.value = r with
  | some role => .ok role
  | none => .error .keyError

/-- `p[k]`. -/
def field (entries : List (String × SecurityVal)) (k : String) : Py SecurityVal :=
  match entries.lookup k with
  | some v => .ok v
  | none => .error .keyError

/-- `filter_asset_permission`: the paths with a suffix, and the others. -/
def filterAssetPermission (isFile : String → Py Bool) : List String → Py AssetsPermission
  | [] => .ok ⟨[], []⟩
  | p :: rest => do
    let file ← isFile p
    let assets ← filterAssetPermission isFile rest
    return if file then { assets with files := assets.files.insert p }
      else { assets with dirs := assets.dirs.insert p }

/-- The end of `dispatch`, on the policies. -/
def attach (isFile : String → Py Bool) : SecurityVal → Py AttachedPermission
  | .dict entries => do
    let allowedAssets ← filterAssetPermission isFile (← asTexts (← field entries "allowed_assets"))
    let roles ← (← asTexts (← field entries "roles")).mapM roleOf
    return {
      roles
      allowedRoutes := entries.lookup "allowed_routes"
      allowedProfiles := entries.lookup "allowed_profiles"
      allowedAssets
      allowedAgents := entries.lookup "allowed_agents"
      allowedBlogs := entries.lookup "allowed_blogs" }
  -- `**policies`
  | _ => .error .typeError

/-- The permission of a request that passed both checks. -/
def permission (orm : Orm) (isFile : String → Py Bool) (w : SecurityWorld)
    (token : TokenPermission) (client : ClientORM) :
    Py AttachedPermission × CacheDb SecurityModel :=
  match (permissionCache orm client).cache orm.loads w.db w.redis token.key .none
      (permissionCache orm client).expiry with
  | .error e => (.error e, w.redis)
  | .ok (policies, redis) => (attach isFile policies, redis)

/-- `dispatch`, up to the call of the next handler: the client and the permission that the
request is given. The permission of the token is merged as it was. -/
def dispatch (orm : Orm) (isFile : String → Py Bool) (w : SecurityWorld) (request : Request) :
    Py (ClientORM × AttachedPermission) × CacheDb SecurityModel :=
  match authenticate orm w request with
  | (.error e, redis) => (.error e, redis)
  | (.ok (token, client), redis) =>
    match checkBlacklist orm { w with redis } token client with
    | (.error e, redis) => (.error e, redis)
    | (.ok (), redis) =>
      let (attached, redis) := permission orm isFile { w with redis } token client
      (attached.map fun attached => (client, attached), redis)

/-! ## What the stages do -/

variable {orm : Orm} {isFile : String → Py Bool} {w : SecurityWorld} {token : TokenPermission}
  {client : ClientORM}

theorem authenticate_of_cached {request : Request} {redis : CacheDb SecurityModel}
    (htoken : request.permission = .ok token) (h : cachedClient orm w token = .ok (client, redis)) :
    authenticate orm w request =
      ((verifyClient client request.clientIp).map fun _ => (token, client), redis) := by
  unfold authenticate
  simp only [htoken, h]

theorem authenticate_of_error {request : Request} {e : PyErr}
    (htoken : request.permission = .ok token) (h : cachedClient orm w token = .error e) :
    authenticate orm w request = (.error e, w.redis) := by
  unfold authenticate
  simp only [htoken, h]

theorem authenticate_of_refused {request : Request} {e : PyErr}
    (h : request.permission = .error e) : authenticate orm w request = (.error e, w.redis) := by
  unfold authenticate
  simp only [h]

theorem dispatch_of_error {request : Request} {e : PyErr} {redis : CacheDb SecurityModel}
    (h : authenticate orm w request = (.error e, redis)) :
    dispatch orm isFile w request = (.error e, redis) := by
  unfold dispatch
  simp only [h]

theorem dispatch_of_blacklisted {request : Request} {e : PyErr}
    {redis redis' : CacheDb SecurityModel}
    (h : authenticate orm w request = (.ok (token, client), redis))
    (hcheck : checkBlacklist orm { w with redis } token client = (.error e, redis')) :
    dispatch orm isFile w request = (.error e, redis') := by
  unfold dispatch
  simp only [h, hcheck]

theorem dispatch_of_ok {request : Request} {redis redis' : CacheDb SecurityModel}
    (h : authenticate orm w request = (.ok (token, client), redis))
    (hcheck : checkBlacklist orm { w with redis } token client = (.ok (), redis')) :
    dispatch orm isFile w request =
      ((permission orm isFile { w with redis := redis' } token client).1.map
        fun attached => (client, attached),
      (permission orm isFile { w with redis := redis' } token client).2) := by
  unfold dispatch
  simp only [h, hcheck]

/-- Everything about a client has two parts in its key. -/
theorem exists_key (keys : Keys) (h : keys.prefixes.length = 2) (token : TokenPermission) :
    ∃ k, keys.builder token.key = .ok k :=
  builder_of_length h.symm

/-- The client of a token leaves the keys of the other types as they were. -/
theorem cachedClient_lookup? {redis : CacheDb SecurityModel} {n : OrmCacheName} {key : StrOrList}
    {k : String} (h : cachedClient orm w token = .ok (client, redis)) (hn : n ≠ .client)
    (hk : n.keys.builder key = .ok k) : redis.lookup? k = w.redis.lookup? k := by
  obtain ⟨⟨obj, redis'⟩, hcache, h⟩ := bind_ok h
  have hsame : redis'.lookup? k = w.redis.lookup? k :=
    CacheType.cache_lookup?_ne hcache fun k' hk' => text_ne (m := .client) hn hk hk'
  cases obj with
  | model m =>
    cases m with
    | client client' =>
      cases h
      exact hsame
    | policy id policy => cases h
    | challenge id => cases h
  | _ => cases h

variable (orm w) in
theorem authenticate_lookup? {n : OrmCacheName} {key : StrOrList} {k : String} (request : Request)
    (hn : n ≠ .client) (hk : n.keys.builder key = .ok k) :
    (authenticate orm w request).2.lookup? k = w.redis.lookup? k := by
  unfold authenticate
  split
  · rfl
  · split
    · rfl
    · rename_i hcached
      exact cachedClient_lookup? hcached hn hk

theorem permission_lookup? {n : OrmCacheName} {key : StrOrList} {k : String}
    (hn : n ≠ .authPermission) (hk : n.keys.builder key = .ok k) :
    (permission orm isFile w token client).2.lookup? k = w.redis.lookup? k := by
  unfold permission
  split
  · rfl
  · rename_i hcache
    exact CacheType.cache_lookup?_ne hcache fun k' hk' => text_ne (m := .authPermission) hn hk hk'

/-- **The blacklist check.** What is in the cache decides; without it there is no verdict. -/
theorem checkBlacklist_spec (h : client.clientType ≠ .Admin) :
    checkBlacklist orm w token client =
      ((blacklistCache client).get orm.loads w.redis token.key >>= fun v =>
        if v.isNone then .error .typeError
        else if truth v then .error clientIsBlacklisted else .ok (), w.redis) := by
  have hw : (blacklistCache client).whenHolds .none = .ok true := rfl
  unfold checkBlacklist
  rw [if_neg h]
  cases hget : (blacklistCache client).get orm.loads w.redis token.key with
  | error e =>
    rw [CacheType.cache_of_get_error hw hget]
    rfl
  | ok v =>
    cases hnone : v.isNone with
    | false =>
      rw [CacheType.cache_of_hit hw hget hnone]
      show _ = ((if v.isNone = true then _ else _ : Py Unit), w.redis)
      rw [hnone]
      rfl
    | true =>
      cases PyVal.eq_none_of_isNone hnone
      -- the object is the first component of the verdict, and has no second one
      have hdb : (blacklistCache client).dbObject w.db token.key.parts =
          .ok (.bool (AdminService.isBlacklisted w.db.blacklist client).1) := rfl
      show (match (blacklistCache client).cache orm.loads w.db w.redis token.key .none
          (.callable itemOne) with | .error e => _ | .ok (listed, redis) => _) = _
      rw [CacheType.cache_of_expiry_error hw hget hdb rfl rfl]
      rfl

/-- A client is turned away as blacklisted if and only if the cache holds a value that is
true for it. -/
theorem checkBlacklist_iff (h : client.clientType ≠ .Admin) :
    (checkBlacklist orm w token client).1 = .error clientIsBlacklisted ↔
      ∃ v, (blacklistCache client).get orm.loads w.redis token.key = .ok v ∧ truth v = true := by
  rw [checkBlacklist_spec h]
  cases hget : (blacklistCache client).get orm.loads w.redis token.key with
  | error e =>
    cases CacheType.get_error rfl hget
    constructor
    · intro herror
      cases herror
    · rintro ⟨v, hv, -⟩
      cases hv
  | ok v =>
    show (if v.isNone = true then _ else _ : Py Unit) = _ ↔ _
    constructor
    · intro herror
      refine ⟨v, rfl, ?_⟩
      split at herror
      · cases herror
      · split at herror
        · assumption
        · cases herror
    · rintro ⟨v', hv', htruth⟩
      cases hv'
      have hnone : v.isNone ≠ true := fun hnone => by
        cases PyVal.eq_none_of_isNone hnone
        cases htruth
      rw [if_neg hnone, if_pos htruth]

variable (orm w token client) in
/-- The blacklist check stores nothing. -/
theorem checkBlacklist_redis : (checkBlacklist orm w token client).2 = w.redis := by
  by_cases h : client.clientType = .Admin
  · unfold checkBlacklist
    rw [if_pos h]
  · rw [checkBlacklist_spec h]

/-- A request touches nothing in the cache but clients and permissions. -/
theorem dispatch_lookup? {n : OrmCacheName} {key : StrOrList} {k : String} (request : Request)
    (hn : n ≠ .client) (hn' : n ≠ .authPermission) (hk : n.keys.builder key = .ok k) :
    (dispatch orm isFile w request).2.lookup? k = w.redis.lookup? k := by
  have hauth := authenticate_lookup? orm w request hn hk
  unfold dispatch
  split
  · rename_i h
    rwa [h] at hauth
  · rename_i token client redis h
    rw [h] at hauth
    have hblacklist := checkBlacklist_redis orm { w with redis } token client
    split
    · rename_i h
      rw [h] at hblacklist
      cases hblacklist
      exact hauth
    · rename_i h
      rw [h] at hblacklist
      cases hblacklist
      exact (permission_lookup? hn' hk).trans hauth

end JWTAuthMiddleware

end Notifyr
