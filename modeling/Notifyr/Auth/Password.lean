import Notifyr.Runtime.Bytes

/-!
# Client passwords

The life of a client's password: `SecurityService.store_password` and `verify_password`
(`app/services/security_service.py`), `create_client` and `_update_client`
(`app/ressources/admin_ressource.py`), and `get_client_by_password`
(`app/depends/funcs_dep.py`).

- `PasswordEnv`: HMAC, the two places a hash key is read from, address validators, groups.
- `createClient`, `updateClient`, `setCanLogin`: the operations that write a client row.
- `getClientByPassword`: a login.
- `Accounts`: the client table with, beside it, the record of the last password set for each
  client; `Accounts.run` plays a history of operations.
-/

namespace Notifyr

open Theory

/-- What the password code finds around it. -/
structure PasswordEnv where
  /-- `hmac.new(key, msg, hashlib.sha256).hexdigest()`. -/
  hmacHex : Bytes → Bytes → String
  /-- `vaultService.CLIENT_PASSWORD_HASH_KEY`, the key passwords are stored with. -/
  hashKey : Option String
  /-- The environment variable of that name, the key passwords are checked with. -/
  envKey : Option String
  ipv4Validator : String → Bool
  ipv4SubnetValidator : String → Bool
  /-- Group ids with group names. -/
  groups : Dict String String

/-- `configService.getenv('CLIENT_PASSWORD_HASH_KEY', 'test')`. -/
def PasswordEnv.checkKey (env : PasswordEnv) : String := env.envKey.getD "test"

/-- The digest of a text and a salt. -/
def PasswordEnv.mac (env : PasswordEnv) (key value : String) (salt : Bytes) : String :=
  env.hmacHex (encodeUtf8 key) (encodeUtf8 value ++ salt)

/-- `SecurityService.hash_value_with_salt`. -/
def hashValueWithSalt (env : PasswordEnv) (value : String) (key : Option String)
    (salt : Bytes) : Py String :=
  match key with
  | some key => .ok (env.hmacHex (encodeUtf8 key) (encodeUtf8 value ++ salt))
  | none => .error .attributeError

/-- `SecurityService.store_password`, on the salt `generate_salt` drew. -/
def storePassword (env : PasswordEnv) (password : String) (key : Option String)
    (salt : Bytes) : Py (String × Bytes) := do
  let hashedPassword ← hashValueWithSalt env password key salt
  return (b64Encode hashedPassword, salt)

/-- `SecurityService.verify_password`. -/
def verifyPassword (env : PasswordEnv) (storedHash storedSalt providedPassword : String)
    (key : Option String) : Py Bool := do
  let storedHash ← b64Decode storedHash
  let storedSalt := encodeUtf8 storedSalt
  -- the column holds `str(salt)`, so this is not the salt that was drawn
  let hashedProvidedPassword ← hashValueWithSalt env providedPassword key storedSalt
  return storedHash == hashedProvidedPassword

/-! ## Client rows -/

/-- `Scope`. -/
inductive Scope
  | SoloDolo | Organization | Domain | Free
  deriving DecidableEq, Repr

/-- A row of the client table, under its `client_id`. -/
structure ClientRow where
  clientName : Option String
  clientDescription : String
  clientScope : Scope
  issuedFor : String
  group : Option String
  password : String
  passwordSalt : String
  canLogin : Bool
  authenticated : Bool
  deriving DecidableEq

/-- The client table. -/
abbrev Clients := Dict String ClientRow

/-- What `create_client` reads of its `ClientModel`. -/
structure ClientModel where
  clientName : Option String
  clientDescription : String
  clientScope : Scope
  issuedFor : String
  password : String
  groupId : Option String

/-- What `_update_client` reads of its `UpdateClientModel`. -/
structure UpdateClientModel where
  clientName : Option String
  clientDescription : Option String
  clientScope : Option Scope
  issuedFor : Option String
  password : Option String
  groupId : Option String

/-- `if value:` on an optional text. -/
def truthy (value : Option String) : Option String := value.filter (· ≠ "")

/-- `get_group`, for a caller with or without the admin role. -/
def getGroup (env : PasswordEnv) (admin : Bool) (gid groupId : String) : Py (Option String) :=
  if !admin then .error (.httpException 403 "Admin role required")
  else if groupId = "" then .ok none
  else
    let found := match gid with
      | "id" => some ((env.groups.get? groupId).map fun _ => groupId)
      | "name" => some ((env.groups.entries.find? fun g => g.2 = groupId).map (·.1))
      | _ => none
    match found with
    | none => .error (.httpException 400 "Invalid GID type")
    | some none => .error (.httpException 404 "Group does not exist")
    | some (some id) => .ok (some id)

/-- The unique columns of the client table. -/
def uniqueAmong (clients : Clients) (clientId : String) (row : ClientRow) : Bool :=
  clients.entries.all fun e => e.1 == clientId ||
    ((e.2.clientName == none || e.2.clientName != row.clientName) &&
      e.2.issuedFor != row.issuedFor)

/-- The group of a client to be created; only `None` means no group here. -/
def clientGroup (env : PasswordEnv) (admin : Bool) (gid : String) :
    Option String → Py (Option String)
  | some groupId => getGroup env admin gid groupId
  | none => .ok none

/-- The `client_data` of `create_client`. -/
def clientData (client : ClientModel) (group : Option String) (password : String)
    (salt : Bytes) (issuedFor : String) : ClientRow where
  clientName := client.clientName
  clientDescription := client.clientDescription
  clientScope := client.clientScope
  issuedFor :=
    if client.clientScope = .SoloDolo ∨ client.clientScope = .Organization then client.issuedFor
    else issuedFor
  group
  password
  passwordSalt := bytesRepr salt
  canLogin := false
  authenticated := false

/-- `create_client`: the id and, for the scopes that have none, the value of `issued_for` are
drawn by the database. -/
def createClient (env : PasswordEnv) (clients : Clients) (client : ClientModel)
    (admin : Bool) (gid clientId issuedFor : String) (salt : Bytes) : Py Clients := do
  let (password, salt) ← storePassword env client.password env.hashKey salt
  let group ← clientGroup env admin gid client.groupId
  let row := clientData client group password salt issuedFor
  if clientId ∈ clients.keys ∨ !uniqueAmong clients clientId row then .error .integrityError
  else return clients.set clientId row

/-- The group part of `_update_client`; the flag says whether the client is to be revoked. -/
def updateGroup (env : PasswordEnv) (update : UpdateClientModel) (client : ClientRow)
    (admin : Bool) (gid : String) (rmGroup : Bool) : Py (ClientRow × Bool) :=
  match truthy update.groupId with
  | some groupId => do
    let group ← getGroup env admin gid groupId
    return ({ client with group }, true)
  | none => if rmGroup then .ok ({ client with group := none }, true) else .ok (client, false)

/-- The password part: what is hashed is the client's password column. -/
def updatePassword (env : PasswordEnv) (update : UpdateClientModel) (client : ClientRow)
    (salt : Bytes) (isRevoked : Bool) : Py (ClientRow × Bool) :=
  match truthy update.password with
  | some _ => do
    -- the new password in `update` is only asked whether it is there
    let (password, salt) ← storePassword env client.password env.hashKey salt
    return ({ client with password, passwordSalt := bytesRepr salt }, true)
  | none => .ok (client, isRevoked)

/-- The remaining columns. -/
def updateColumns (env : PasswordEnv) (update : UpdateClientModel) (client : ClientRow)
    (isRevoked : Bool) : Py (ClientRow × Bool) :=
  let scope := update.clientScope.getD client.clientScope
  let isRevoked := isRevoked || client.clientScope != scope
  let client := { client with
    clientDescription := update.clientDescription.getD client.clientDescription
    clientName := (truthy update.clientName).or client.clientName
    clientScope := scope }
  match (truthy update.issuedFor).filter (client.issuedFor ≠ ·) with
  | some issuedFor => .ok ({ client with issuedFor }, true)
  | none =>
    if scope = .SoloDolo ∧ !env.ipv4Validator client.issuedFor then .error .valueError
    else if scope = .Organization ∧ !env.ipv4SubnetValidator client.issuedFor then
      .error .valueError
    else .ok (client, isRevoked)

/-- `_update_client`. -/
def updateClientRow (env : PasswordEnv) (update : UpdateClientModel) (client : ClientRow)
    (admin : Bool) (gid : String) (rmGroup : Bool) (salt : Bytes) : Py (ClientRow × Bool) := do
  let (client, isRevoked) ← updateGroup env update client admin gid rmGroup
  let (client, isRevoked) ← updatePassword env update client salt isRevoked
  updateColumns env update client isRevoked

/-- `update_client`: revoking sets `authenticated`; either way the row is saved. -/
def updateClient (env : PasswordEnv) (clients : Clients) (clientId : String)
    (update : UpdateClientModel) (admin : Bool) (gid : String) (rmGroup : Bool)
    (salt : Bytes) : Py Clients :=
  match clients.get? clientId with
  | none => .error (.httpException 404 "Client does not exist")
  | some client => do
    let (client, isRevoked) ← updateClientRow env update client admin gid rmGroup salt
    let client := { client with authenticated := client.authenticated && !isRevoked }
    if !uniqueAmong clients clientId client then .error .integrityError
    else return clients.set clientId client

/-- What `issue_auth_token` (`true`) and `revoke_tokens` (`false`) do to a client row. -/
def setCanLogin (clients : Clients) (clientId : String) (value : Bool) : Py Clients :=
  match clients.get? clientId with
  | none => .error (.httpException 404 "Client does not exist")
  | some client => .ok (clients.set clientId
      { client with canLogin := value, authenticated := value })

/-! ## Logging in -/

/-- Basic credentials and the query parameter `cid`. -/
structure Attempt where
  cid : String
  username : String
  password : String

/-- `GetClient(skip=True, raise_=False)`. No client this code creates is of type `Admin`. -/
def getClient (clients : Clients) (attempt : Attempt) : Py (Option (String × ClientRow)) :=
  if attempt.username = "" then .ok none
  else match attempt.cid with
    | "id" => .ok ((clients.get? attempt.username).map fun row => (attempt.username, row))
    | "name" => .ok (clients.entries.find? fun e => e.2.clientName = some attempt.username)
    | _ => .error (.httpException 400 "Invalid CID type")

/-- `get_client_by_password`. The verdict of the check is computed and dropped. -/
def getClientByPassword (env : PasswordEnv) (clients : Clients) (attempt : Attempt) :
    Py (String × ClientRow) := do
  match ← getClient clients attempt with
  | none => .error (.httpException 400 "Invalid username or password")
  | some client =>
    -- `error` in the source is an expression here, not a `raise`
    let _ ← verifyPassword env client.2.password client.2.passwordSalt attempt.password
      (some env.checkKey)
    if !client.2.canLogin then
      .error (.httpException 401
        "Cant authenticate right now... get your token from the admin!")
    else return client

/-! ## Histories -/

/-- An operation that writes a client row. -/
inductive ClientEvent
  | create (client : ClientModel) (admin : Bool) (gid clientId issuedFor : String) (salt : Bytes)
  | update (clientId : String) (model : UpdateClientModel) (admin : Bool) (gid : String)
      (rmGroup : Bool) (salt : Bytes)
  | issueAuth (clientId : String)
  | revokeTokens (clientId : String)

/-- One operation; an exception rolls it back. -/
def ClientEvent.apply (env : PasswordEnv) (clients : Clients) : ClientEvent → Py Clients
  | create client admin gid clientId issuedFor salt =>
    createClient env clients client admin gid clientId issuedFor salt
  | update clientId model admin gid rmGroup salt =>
    updateClient env clients clientId model admin gid rmGroup salt
  | issueAuth clientId => setCanLogin clients clientId true
  | revokeTokens clientId => setCanLogin clients clientId false

/-- A password as it was set: the text the caller gave, the text the code hashed, the salt. -/
structure PasswordSet where
  password : String
  hashed : String
  salt : Bytes

/-- The client table and, for each client, the last password set. -/
structure Accounts where
  clients : Clients
  sets : String → Option PasswordSet

/-- The record of passwords after an operation that went through. -/
def ClientEvent.record (st : Accounts) : ClientEvent → String → Option PasswordSet
  | create client _ _ clientId _ salt =>
    Function.update st.sets clientId (some ⟨client.password, client.password, salt⟩)
  | update clientId model _ _ _ salt =>
    match truthy model.password, st.clients.get? clientId with
    | some password, some row =>
      Function.update st.sets clientId (some ⟨password, row.password, salt⟩)
    | _, _ => st.sets
  | issueAuth _ => st.sets
  | revokeTokens _ => st.sets

/-- One operation on the table and the record. -/
def Accounts.step (env : PasswordEnv) (st : Accounts) (e : ClientEvent) : Accounts :=
  match e.apply env st.clients with
  | .ok clients => { clients, sets := e.record st }
  | .error _ => st

/-- A history, from an empty table. -/
def Accounts.run (env : PasswordEnv) (history : List ClientEvent) : Accounts :=
  history.foldl (Accounts.step env) { clients := .empty, sets := fun _ => none }

end Notifyr
