import Notifyr.Auth.Password
import Notifyr.Auth.Policies
import Notifyr.Depends.OrmCache

/-!
# The security tables

The rows of `app/models/security_model.py` and `app/database/security.sql` that a request is
checked against, the instances the ORM makes of them, and what the cache keeps of them.

- `ClientORM`, `BlacklistORM`, `PolicyMapping`, `SecurityDb`: the tables.
- `Orm`: what the code relies on of Tortoise and of `json`; the reading of a relation that was
  not fetched is one of its fields.
- `clientJson`: `to_json` of a client.
- `combinedPolicies`: `get_combined_policies` of an instance, over the tables; `Combined.json` is
  the dictionary it returns.
-/

namespace Notifyr

open Theory

/-- `ClientType`. -/
inductive ClientType
  | User | Admin | Twilio | App | Service
  deriving DecidableEq, Repr

/-- `AuthType`. -/
inductive AuthType
  | ACCESS_TOKEN | API_TOKEN
  deriving DecidableEq, Repr

/-- A client: the columns of its row, `group` being `group_id`. An instance knows also whether
its relation `group` was set or fetched; rows that are read have it unfetched. -/
structure ClientORM extends ClientRow where
  clientId : String
  clientUsername : String
  clientType : ClientType
  authType : AuthType
  groupFetched : Bool
  deriving DecidableEq

/-- `GroupClientORM`. -/
structure GroupClientORM where
  groupId : String
  groupName : String
  deriving DecidableEq

/-- Who a blacklist entry is about: `client_xor_group`. -/
inductive Listee
  | client (clientId : String)
  | group (groupId : String)
  deriving DecidableEq

/-- `BlacklistORM`. -/
structure BlacklistORM where
  blacklistId : Nat
  listee : Listee
  createdAt : ℚ
  expiredAt : ℚ
  deriving DecidableEq

/-- A row of `PolicyMapping`: a policy, and the client or the group it is mapped to. -/
structure PolicyMapping where
  policyId : String
  holder : Listee
  deriving DecidableEq

/-- The tables. -/
structure SecurityDb where
  clients : Dict String ClientORM
  groups : Dict String GroupClientORM
  blacklist : List BlacklistORM
  policies : Dict String PolicyORM
  mappings : List PolicyMapping

/-- The instances that are cached. -/
inductive SecurityModel
  | client (client : ClientORM)
  | policy (policyId : String) (policy : PolicyORM)
  /-- A challenge, by the client it belongs to. -/
  | challenge (clientId : String)

/-- A Python value with such instances. -/
abbrev SecurityVal := PyVal SecurityModel

/-- What the code relies on around it. -/
structure Orm where
  /-- `None if o.rel == None else o.rel.pk`, where the relation `rel` of `o` was neither set nor
  fetched, from the foreign key. Tortoise gives an awaitable for `o.rel`. -/
  unfetched : Option String → Py (Option String)
  /-- `ClientORM(**obj)`. -/
  constructClient : List (String × SecurityVal) → Py ClientORM
  /-- `json.loads` on a text that `json.dumps` did not make. -/
  loads : String → Option SecurityVal
  order : SetOrder

/-- `None if client.group == None else str(client.group.group_id)`. -/
def ClientORM.groupKey (orm : Orm) (client : ClientORM) : Py (Option String) :=
  if client.groupFetched then .ok client.group else orm.unfetched client.group

/-- `str` of an optional text, in a key. -/
def pyStr : Option String → String
  | some s => s
  | none => "None"

/-! ## What is cached of a client -/

/-- The value of an enum member. -/
def Scope.value : Scope → String
  | .SoloDolo => "SoloDolo"
  | .Organization => "Organization"
  | .Domain => "Domain"
  | .Free => "Free"

/-- The value of an enum member. -/
def ClientType.value : ClientType → String
  | .User => "User"
  | .Admin => "Admin"
  | .Twilio => "Twilio"
  | .App => "App"
  | .Service => "Service"

/-- The value of an enum member. -/
def AuthType.value : AuthType → String
  | .ACCESS_TOKEN => "ACCESS_TOKEN"
  | .API_TOKEN => "API_TOKEN"

/-- An optional text as a value. -/
def optionalStr : Option String → SecurityVal
  | some s => .str s
  | none => .none

/-- `ClientORM.to_json`: neither the password nor its salt. The connection counts and the dates,
which nothing here reads, are left out. -/
def clientJson (client : ClientORM) : List (String × SecurityVal) :=
  [("client_id", .str client.clientId),
   ("client_name", optionalStr client.clientName),
   ("client_username", .str client.clientUsername),
   ("client_description", .str client.clientDescription),
   ("auth_type", .str client.authType.value),
   ("client_scope", .str client.clientScope.value),
   ("authenticated", .bool client.authenticated),
   ("client_type", .str client.clientType.value),
   ("issued_for", .str client.issuedFor),
   ("group_id", optionalStr client.group)]

/-- The model class `ClientORM`. It has `to_json`, so its fields are never gone through. -/
def Orm.clientClass (orm : Orm) : ModelClass SecurityModel where
  toJson := some fun
    | .client client => .ok (clientJson client)
    | _ => .error .attributeError
  fields _ := []
  construct entries := do return .client (← orm.constructClient entries)

/-! ## Policies -/

/-- A row of the mapping table with the policy its foreign key leads to. -/
def SecurityDb.loadMapping (db : SecurityDb) (mapping : PolicyMapping) : Option PolicyMappingORM :=
  (db.policies.get? mapping.policyId).map fun policy =>
    match mapping.holder with
    | .client id => ⟨policy, some id, none, .inl ⟨nofun, rfl⟩⟩
    | .group id => ⟨policy, none, some id, .inr ⟨rfl, nofun⟩⟩

/-- `get_combined_policies`, over the tables. -/
def combinedPolicies (orm : Orm) (db : SecurityDb) (client : ClientORM) : Py Combined := do
  let group ← client.groupKey orm
  getCombinedPolicies orm.order (db.mappings.filterMap db.loadMapping) ⟨client.clientId, group⟩

open Role in
/-- `Role`, by its value. -/
def Role.value : Role → String
  | PUBLIC => "PUBLIC"
  | STATIC => "STATIC"
  | ADMIN => "ADMIN"
  | RELAY => "RELAY"
  | CUSTOM => "CUSTOM"
  | MFA_OTP => "MFA_OTP"
  | CHAT => "CHAT"
  | RESULT => "RESULT"
  | REFRESH => "REFRESH"
  | CONTACTS => "CONTACTS"
  | TWILIO => "TWILIO"
  | SUBSCRIPTION => "SUBSCRIPTION"
  | CLIENT => "CLIENT"
  | LINK => "LINK"
  | ASSETS => "ASSETS"
  | PROFILE => "PROFILE"

/-- A list of texts as a value. -/
def strList (l : List String) : SecurityVal := .list (l.map .str)

/-- A `RoutePermission` as a dictionary. -/
def RoutePermission.json (r : RoutePermission) : SecurityVal :=
  .dict [("scope", .str (match r.scope with | .custom => "custom" | .all => "all")),
    ("custom_routes", strList r.customRoutes)]

/-- An entry of `allowed_routes`; a subscripted type is no JSON. -/
def RouteValue.json (policies : List PolicyORM) : RouteValue → SecurityVal
  | .permission i className =>
    match (policies[i]?).bind (·.allowedRoutes.get? className) with
    | some r => r.json
    | none => .none
  | .text s => .str s
  | .routes l => strList l
  | .genericAlias => .other "list[...]"

/-- The dictionary that `get_combined_policies` returns. -/
def Combined.json (c : Combined) : SecurityVal :=
  .dict [("roles", strList (c.roles.map Role.value)),
    ("allowed_routes", .dict (c.allowedRoutes.entries.map fun e => (e.1, e.2.json c.policies))),
    ("allowed_profiles", strList c.allowedProfiles),
    ("allowed_assets", strList c.allowedAssets),
    ("allowed_agents", strList c.allowedAgents),
    ("allowed_blogs", strList c.allowedBlogs)]

end Notifyr
