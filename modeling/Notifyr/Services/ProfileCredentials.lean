import Notifyr.Auth.Secrets
import Notifyr.Theory.Runs

/-!
# Credentials of profiles

`ProfileService` (`app/services/profile_service.py`): the secret fields of a profile are taken
out of its document, flattened, encrypted and put into the vault; a `ProfileMiniService` reads
and decrypts them and hands them to a service in a `ChaCha20Poly1305SecretsWrapper`.

- `Profile`: a profile; `mask` is what stays in the document for a secret.
- `ProfileStore`: the collection and the vault; `addProfile`, `updateCredentials`,
  `readCredentials`: what is done with them.
- `StoredCreds`: the credentials as they were last stored, which the store should keep.
- `CredentialsKept`: they are read back, and no document has a secret.
- `Keepable`: only values are stored that their text gives back, and nothing is updated beside a
  nested dictionary.
-/

namespace Notifyr

open Theory NestedDict

variable {φ γ : Type}

/-! ## Profiles -/

/-- What a service may raise here. -/
inductive ProfileExc
  | secrets (e : SecretsExc)
  | miniServiceDoesNotExistsError
  /-- `pymongo.errors.DuplicateKeyError`. -/
  | duplicateKeyError
  /-- `hvac.exceptions.InvalidRequest` and `hvac.exceptions.InvalidPath`. -/
  | invalidRequest
  | invalidPath
  deriving DecidableEq

/-- An attribute of a profile: data, or an object of a class of its own. -/
inductive Attr (φ : Type)
  | value (v : PyJson φ)
  | object

/-- The class of a profile: `_secrets_keys` and `_vault`. -/
structure ProfileModel where
  secretsKeys : List PyStr
  vault : PyStr
  nodup : secretsKeys.Nodup

/-- A profile. -/
structure Profile (φ : Type) where
  model : ProfileModel
  fields : Dict PyStr (Attr φ)

/-- `getattr(profile, key, None)`. -/
def Profile.getattr (p : Profile φ) (key : PyStr) : Attr φ :=
  (p.fields.get? key).getD (.value (.atom .none))

/-- `setattr(profile, key, a)`. -/
def Profile.setattr (p : Profile φ) (key : PyStr) (a : Attr φ) : Profile φ :=
  { p with fields := p.fields.set key a }

/-- `randint(a, b)`, at each secret. -/
structure Randint where
  draw : PyStr → ℤ → ℤ → ℤ
  draw_mem : ∀ key a b, a ≤ b → a ≤ draw key a b ∧ draw key a b ≤ b

/-- What replaces a secret. A `bool` is an `int`. -/
def mask (r : Randint) (key : PyStr) : Attr φ → Attr φ
  | .value (.atom (.str _)) =>
    .value (.str (List.replicate (r.draw key 40 60).toNat (ord '*')))
  | .value (.atom (.int _)) => .value (.atom (.int (r.draw key 1000000 10000000)))
  | .value (.atom (.float _)) => .value (.atom (.int (r.draw key 1000000 10000000)))
  | .value (.atom (.bool _)) => .value (.atom (.int (r.draw key 1000000 10000000)))
  | .value (.dict _) => .value (.dict [])
  | _ => .value (.atom .none)

/-- One secret: masked in the profile, and added to the credentials. -/
def addSecret (r : Randint) (st : Profile φ × Entries PyStr (PyAtom φ)) (key : PyStr) :
    Except ProfileExc (Profile φ × Entries PyStr (PyAtom φ)) :=
  let secret := st.1.getattr key
  let profile := st.1.setattr key (mask r key secret)
  match secret with
  | .object => .error (.secrets (.py .typeError))
  | .value (.list _) => .error (.secrets (.py .typeError))
  | .value (.atom .none) => .ok (profile, st.2)
  | .value v => .ok (profile, insertKey st.2 key v)

/-! ## The vault -/

/-- What is around the service. -/
structure ProfileEnv (φ γ : Type) where
  secrets : SecretsEnv φ
  /-- `str(v)` of what is no text, no integer and no constant. -/
  repr : PyJson φ → Except SecretsExc PyStr
  /-- The transit engine; each encryption has a seed of its own. -/
  encryptData : ℕ → String → γ
  decryptData : γ → Option String
  decrypt_encrypt : ∀ seed plaintext, decryptData (encryptData seed plaintext) = some plaintext
  /-- The vault answers with the fields of a secret, in an order of its own. -/
  arrange : Dict PyStr γ → Dict PyStr γ
  get?_arrange : ∀ d key, (arrange d).get? key = d.get? key
  /-- Whether a secret without fields can be put. -/
  takesEmpty : Bool

/-- `str(v)`. An integer with too many digits has none. -/
def strOf (env : ProfileEnv φ γ) : PyJson φ → Except SecretsExc PyStr
  | .atom (.str s) => .ok s
  | .atom .none => .ok (pyText "None")
  | .atom (.bool b) => .ok (pyText (if b then "True" else "False"))
  | .atom (.int n) =>
    let limit := env.secrets.json.intMaxStrDigits
    if limit = 0 ∨ (natStr n.natAbs).length ≤ limit then .ok (intStr n)
    else .error (.py .valueError)
  | v => env.repr v

/-- `transit_engine.encrypt`. -/
def transitEncrypt (env : ProfileEnv φ γ) (seed : ℕ) (plaintext : PyStr) :
    Except SecretsExc γ :=
  match plaintext.text? with
  | some text => .ok (env.encryptData seed (b64Encode text))
  | none => .error .unicodeEncodeError

/-- `transit_engine.decrypt`. -/
def transitDecrypt (env : ProfileEnv φ γ) (ciphertext : γ) : Except ProfileExc PyStr :=
  match env.decryptData ciphertext with
  | some encoded => ((b64Decode encoded).map pyText).mapError fun e => .secrets (.py e)
  | none => .error .invalidRequest

/-- The collection of the profiles, and the secrets by vault and profile. -/
structure ProfileStore (φ γ : Type) where
  documents : Dict PyStr (Profile φ)
  vault : Dict (PyStr × PyStr) (Dict PyStr γ)

/-- `secrets_engine.put`. -/
def ProfileStore.put (env : ProfileEnv φ γ) (s : ProfileStore φ γ) (path : PyStr × PyStr)
    (data : Dict PyStr γ) : Except ProfileExc (ProfileStore φ γ) :=
  if data.entries = [] ∧ env.takesEmpty = false then .error .invalidRequest
  else .ok { s with vault := s.vault.set path data }

/-- `secrets_engine.read`. -/
def ProfileStore.read (env : ProfileEnv φ γ) (s : ProfileStore φ γ) (path : PyStr × PyStr) :
    Except ProfileExc (Dict PyStr γ) :=
  match s.vault.get? path with
  | some data => .ok (env.arrange data)
  | none => .error .invalidPath

/-! ## The service -/

/-- The separator of the flattened credentials. -/
abbrev slash : ℕ := ord '/'

/-- A field as it is put. -/
def sealEntry (env : ProfileEnv φ γ) (seed : PyStr → ℕ) (e : PyStr × PyJson φ) :
    Except SecretsExc (PyStr × γ) := do
  let v ← strOf env e.2
  return (e.1, ← transitEncrypt env (seed e.1) v)

/-- `_put_encrypted_creds`. -/
def putEncryptedCreds (env : ProfileEnv φ γ) (s : ProfileStore φ γ) (id : PyStr)
    (data : Entries PyStr (PyAtom φ)) (vault : PyStr) (seed : PyStr → ℕ) :
    Except ProfileExc (ProfileStore φ γ) := do
  let data ← (flattenDict [slash] data).mapError fun e => ProfileExc.secrets (.py e)
  let sealed ← (data.mapM (sealEntry env seed)).mapError ProfileExc.secrets
  s.put env (vault, id) (.ofEntries sealed)

/-- A field as it is read. -/
def openEntry (env : ProfileEnv φ γ) (e : PyStr × γ) : Except ProfileExc (PyStr × PyStr) := do
  return (e.1, ← transitDecrypt env e.2)

/-- `_read_encrypted_creds`, of the mini service that was built from the document. -/
def readEncryptedCreds (env : ProfileEnv φ γ) (s : ProfileStore φ γ) (id : PyStr) :
    Except ProfileExc (Dict PyStr PyStr) :=
  match s.documents.get? id with
  | none => .error .miniServiceDoesNotExistsError
  | some profile => do
    let data ← s.read env (profile.model.vault, id)
    return .ofEntries (← data.entries.mapM (openEntry env))

/-- What a service is handed: `credentials.to_plain()`. -/
def readCredentials (env : ProfileEnv φ γ) (s : ProfileStore φ γ) (id : PyStr) :
    Except ProfileExc (PlainData φ) := do
  let data ← readEncryptedCreds env s id
  ((Poly1305.new env.secrets (.dict (flatTexts data.entries)) none) >>=
    Poly1305.toPlain env.secrets).mapError ProfileExc.secrets

/-- `add_profile`. The insertion is part of a transaction that ends with the secrets. -/
def addProfile (env : ProfileEnv φ γ) (s : ProfileStore φ γ) (id : PyStr) (profile : Profile φ)
    (r : Randint) (seed : PyStr → ℕ) : Except ProfileExc (ProfileStore φ γ) := do
  let (profile, creds) ← profile.model.secretsKeys.foldlM (addSecret r) (profile, [])
  if id ∈ s.documents.keys then .error .duplicateKeyError
  else
    putEncryptedCreds env { s with documents := s.documents.set id profile } id creds
      profile.model.vault seed

/-- `update_credentials`. The route gives the vault of the profile's class. -/
def updateCredentials (env : ProfileEnv φ γ) (s : ProfileStore φ γ) (id : PyStr)
    (creds : Entries PyStr (PyAtom φ)) (vault : PyStr) (seed : PyStr → ℕ) :
    Except ProfileExc (ProfileStore φ γ) := do
  let currentCreds ← readEncryptedCreds env s id
  putEncryptedCreds env s id (insertAll (flatTexts currentCreds.entries) creds) vault seed

/-! ## What should be kept -/

/-- What is done with profiles. -/
inductive ProfileOp (φ : Type)
  | create (id : PyStr) (profile : Profile φ) (r : Randint) (seed : PyStr → ℕ)
  | update (id : PyStr) (creds : Entries PyStr (PyAtom φ)) (seed : PyStr → ℕ)
  | read (id : PyStr)

/-- The secret at a key, unless it is `None` or no data. -/
def Profile.secret (p : Profile φ) (key : PyStr) : Option (PyStr × PyJson φ) :=
  match p.getattr key with
  | .value (.atom .none) => none
  | .value v => some (key, v)
  | .object => none

/-- The credentials of a profile: its secrets that are not `None`. -/
def Profile.credentials (p : Profile φ) : Entries PyStr (PyAtom φ) :=
  p.model.secretsKeys.filterMap p.secret

/-- The credentials of each profile as they were last stored. -/
abbrev StoredCreds (φ : Type) := Dict PyStr (Entries PyStr (PyAtom φ))

/-- A store, and what was stored. -/
structure ProfileWorld (φ γ : Type) where
  store : ProfileStore φ γ
  stored : StoredCreds φ

/-- Before any profile. -/
def ProfileWorld.start : ProfileWorld φ γ := ⟨⟨.empty, .empty⟩, .empty⟩

/-- What the service does. -/
def ProfileWorld.attempt (env : ProfileEnv φ γ) (w : ProfileWorld φ γ) :
    ProfileOp φ → Except ProfileExc (ProfileStore φ γ)
  | .create id profile r seed => addProfile env w.store id profile r seed
  | .update id creds seed =>
    match w.store.documents.get? id with
    | none => .error .miniServiceDoesNotExistsError
    | some profile => updateCredentials env w.store id creds profile.model.vault seed
  | .read id => do
    let _ ← readCredentials env w.store id
    return w.store

/-- What is stored then: a profile's credentials, or those given for an update. -/
def ProfileOp.stores (stored : StoredCreds φ) : ProfileOp φ → StoredCreds φ
  | .create id profile _ _ => stored.set id profile.credentials
  | .update id creds _ =>
    match stored.get? id with
    | none => stored
    | some current => stored.set id (insertAll current creds)
  | .read _ => stored

/-- One step; one that raises stores nothing. -/
def ProfileWorld.step (env : ProfileEnv φ γ) (w : ProfileWorld φ γ) (op : ProfileOp φ) :
    ProfileWorld φ γ :=
  match w.attempt env op with
  | .ok store => { store, stored := op.stores w.stored }
  | .error _ => w

/-- A value that tells nothing about a secret. -/
inductive Masked : Attr φ → Prop
  | stars (n : ℕ) : 40 ≤ n → n ≤ 60 → Masked (.value (.str (List.replicate n (ord '*'))))
  | number (n : ℤ) : 1000000 ≤ n → n ≤ 10000000 → Masked (.value (.atom (.int n)))
  | empty : Masked (.value (.dict []))
  | none : Masked (.value (.atom .none))

/-- What was stored is read back, field by field, and the documents hold no secret. -/
structure CredentialsKept (env : ProfileEnv φ γ) (w : ProfileWorld φ γ) : Prop where
  read : ∀ id creds, w.stored.get? id = some creds →
    ∃ es, readCredentials env w.store id = .ok (.dict es) ∧ SameLeaves creds es
  masked : ∀ id profile, w.store.documents.get? id = some profile →
    ∀ key ∈ profile.model.secretsKeys, Masked (profile.getattr key)

/-- A step raises nothing, and the credentials are kept after it. -/
def StepKept (env : ProfileEnv φ γ) (w : ProfileWorld φ γ) (op : ProfileOp φ) : Prop :=
  (∃ store, w.attempt env op = .ok store) ∧ CredentialsKept env (w.step env op)

/-! ## What can be kept -/

/-- A leaf whose text gives it back: a text that is no JSON document, an integer that is not too
long, and what else has a text that is its document. -/
def Kept (env : ProfileEnv φ γ) : PyJson φ → Prop
  | .atom (.str s) => s.text?.isSome ∧ PlainText env.secrets.json s
  | .atom (.int n) =>
    env.secrets.json.intMaxStrDigits = 0 ∨
      (natStr n.natAbs).length ≤ env.secrets.json.intMaxStrDigits
  | .atom .none => False
  | .atom (.bool _) => False
  | v => ∃ s, env.repr v = .ok s ∧ s.text?.isSome ∧ loads env.secrets.json s = .ok v

/-- Credentials that survive: dictionaries that are not empty, keys without a slash, and leaves
that are kept. -/
structure Storable (env : ProfileEnv φ γ) (creds : Entries PyStr (PyAtom φ)) : Prop where
  full : FullEntries creds
  plain : PlainKeysOf slash creds
  kept : ∀ leaf ∈ leavesOf creds, Kept env leaf.2

/-- Credentials without a dictionary in them. -/
def Shallow (creds : Entries PyStr (PyAtom φ)) : Prop := ∀ e ∈ creds, ∀ es, e.2 ≠ .dict es

/-- A secret of the accepted kinds. -/
def Accepted : Attr φ → Prop
  | .object => False
  | .value (.list _) => False
  | .value _ => True

/-- A step whose credentials can be kept. An update reads the flattened credentials, so that
there must be no dictionary among the stored ones. -/
def Keepable (env : ProfileEnv φ γ) (w : ProfileWorld φ γ) : ProfileOp φ → Prop
  | .create id profile _ _ =>
    id ∉ w.store.documents.keys ∧ (∀ key ∈ profile.model.secretsKeys,
      Accepted (profile.getattr key)) ∧ Storable env profile.credentials ∧
      (profile.credentials = [] → env.takesEmpty = true)
  | .update id creds _ =>
    (∃ current, w.stored.get? id = some current ∧ Shallow current) ∧ Storable env creds
  | .read id => id ∈ w.stored.keys

end Notifyr
