import Mathlib.Data.Rat.Defs
import Mathlib.Algebra.Order.Field.Rat
import Notifyr.Runtime.Bytes

/-!
# Tokens

`EncryptDecryptInterface` and the token functions of `JWTAuthService`
(`app/services/security_service.py`), the cipher wrapper of `app/classes/secrets.py`, and the
decoding of a WebSocket token (`app/definition/_ws.py`).

- `JwtEnv`: the ChaCha20 keystream, `jwt.encode` and `jwt.decode`, the vault's tokens.
- `encodeValue`, `decodeValue`: the pair every token goes through.
- `encodeToken`, `decodeToken`: the signed and encrypted claims; the decoder is memoised.
- `TokenRequest`: the four kinds of tokens with what they are made from; `verify` is the
  verifier of a kind.
- `tokens_never_sound`: no value and no token ever comes back.
- `verify_rejects`: every verifier rejects every token.
-/

namespace Notifyr

open Theory

/-- A value of a claims record. -/
inductive Claim
  | text (s : String)
  | number (q : ℚ)
  | null
  deriving DecidableEq

/-- A claims record. -/
abbrev Claims := Dict String Claim

/-- What the token code finds around it. -/
structure JwtEnv where
  /-- The ChaCha20 keystream of a key and a nonce. -/
  keystream : Bytes → Bytes → Nat → UInt8
  /-- `jwt.encode(obj, secret_key, algorithm)`. -/
  jwtEncode : Claims → Option String → String → Py String
  /-- `jwt.decode(token, secret_key, algorithms)`. -/
  jwtDecode : String → Option String → String → Py Claims
  /-- `vaultService.tokens`. -/
  tokens : Dict String String
  jwtAlgorithm : String
  generationId : Option String
  authExpiration : ℚ
  refreshExpiration : ℚ

/-- `JWTAuthService.NONCE`, encoded. -/
def jwtNonce : Bytes := encodeUtf8 "1234567891234578"

/-- `vaultService.JWT_SECRET_KEY`. -/
def JwtEnv.jwtSecretKey (env : JwtEnv) : Option String := env.tokens.get? "JWT_SECRET_KEY"

/-- `vaultService.ON_TOP_SECRET_KEY`. -/
def JwtEnv.onTopSecretKey (env : JwtEnv) : Option String :=
  ((env.tokens.get? "ON_TOP_SECRET_KEY").filter (· ≠ "")).map fun token =>
    String.ofList (token.toList.take 32)

/-! ## The cipher -/

/-- What `cipher_data` may hold for a text: the bytes `_encrypt` leaves, or a text assigned
from outside. -/
inductive CipherData
  | bytes (b : Bytes)
  | text (s : String)

/-- `ChaCha20SecretsWrapper` on a text. -/
structure ChaCha20SecretsWrapper where
  key : Bytes
  nonce : Bytes
  cipherData : CipherData

/-- `_new_cipher`: sizes are checked. -/
def newCipher (key nonce : Bytes) : Py Unit :=
  if key.length ≠ 32 then .error .valueError
  else if nonce.length ≠ 16 then .error .valueError
  else .ok ()

/-- `update` of an encryptor or decryptor; it takes bytes. -/
def cipherUpdate (env : JwtEnv) (key nonce : Bytes) : CipherData → Py Bytes
  | .bytes b => .ok (b.mapIdx fun i x => x ^^^ env.keystream key nonce i)
  | .text _ => .error .typeError

/-- `ChaCha20SecretsWrapper(plain_data, key, nonce)`. -/
def ChaCha20SecretsWrapper.new (env : JwtEnv) (plainData : String) (key nonce : Bytes) :
    Py ChaCha20SecretsWrapper := do
  newCipher key nonce
  let cipherData ← cipherUpdate env key nonce (.bytes (encodeUtf8 plainData))
  return { key, nonce, cipherData := .bytes cipherData }

/-- `_decrypt`: a text goes to the decryptor as it is, bytes are taken for a dictionary. -/
def ChaCha20SecretsWrapper.decrypt (env : JwtEnv) (w : ChaCha20SecretsWrapper) : Py String :=
  match w.cipherData with
  | .text s => do
    newCipher w.key w.nonce
    let plain ← cipherUpdate env w.key w.nonce (.text s)
    decodeUtf8 plain
  | .bytes _ => .error .attributeError

/-- `key.encode()`. -/
def encodeKey : Option String → Py Bytes
  | some key => .ok (encodeUtf8 key)
  | none => .error .attributeError

/-- `_encode_value`. -/
def encodeValue (env : JwtEnv) (value : String) (key : Option String) : Py String := do
  let key ← encodeKey key
  let cipher ← ChaCha20SecretsWrapper.new env (b64Encode value) key jwtNonce
  match cipher.cipherData with
  | .bytes b => decodeUtf8 b
  | .text _ => .error .attributeError

/-- `_decode_value`. -/
def decodeValue (env : JwtEnv) (value : String) (key : Option String) : Py String := do
  let key ← encodeKey key
  let cipher ← ChaCha20SecretsWrapper.new env value key jwtNonce
  let value ← ChaCha20SecretsWrapper.decrypt env { cipher with cipherData := .text value }
  b64Decode value

/-! ## Tokens -/

/-- `_encode_token`. -/
def encodeToken (env : JwtEnv) (obj : Claims) (secretKey : Option String) (lookup : Bool) :
    Py String := do
  let secretKey := match secretKey with
    | none => env.jwtSecretKey
    | some key => if lookup then (env.tokens.get? key).or env.jwtSecretKey else some key
  let encoded ← env.jwtEncode obj secretKey env.jwtAlgorithm
  encodeValue env encoded env.onTopSecretKey

/-- The decoder's cache: the arguments of a call, its result and when it was made. -/
abbrev TokenCache := List ((String × Option String) × Claims × ℚ)

/-- The `try` block of `_decode_token`. A key name leads to calling the dictionary of tokens. -/
def decodeTokenBody (env : JwtEnv) (token : String) (secretKey : Option String) : Py Claims := do
  let secretKey ← match secretKey with
    | none => .ok env.jwtSecretKey
    | some _ => .error .typeError
  let token ← decodeValue env token env.onTopSecretKey
  env.jwtDecode token secretKey env.jwtAlgorithm

/-- `_decode_token`, memoised for three hours and fifty entries; an exception is not kept. -/
def decodeToken (env : JwtEnv) (cache : TokenCache) (token : String) (secretKey : Option String)
    (now : ℚ) : Py Claims × TokenCache :=
  match (cache.filter fun e => now < e.2.2 + 60 * 60 * 3).lookup (token, secretKey) with
  | some (claims, _) => (.ok claims, cache)
  | none =>
    match decodeTokenBody env token secretKey with
    | .ok claims => (.ok claims, ((token, secretKey), claims, now) :: cache.take 49)
    | .error _ => (.error (.httpException 403 "Invalid token"), cache)

/-- A number in a claims record. -/
def getNumber (permission : Claims) (k : String) : Py ℚ := do
  match ← getItem permission k with
  | .number q => .ok q
  | _ => .error .typeError

/-- `set_status`. -/
def setStatus (permission : Claims) (now : ℚ) : Py Claims := do
  let expiredAt ← getNumber permission "expired_at"
  let createdAt ← getNumber permission "created_at"
  let status :=
    if expiredAt - now < 0 then "expired"
    else if (expiredAt - createdAt) * (8 / 10) < now - createdAt then "inactive"
    else "active"
  return permission.set "status" (.text status)

/-- The four kinds of tokens. -/
inductive TokenKind
  | auth | refresh | contact | ws
  deriving DecidableEq

/-- The claims part of `verify_auth_permission`, after decoding. -/
def checkAuth (env : JwtEnv) (token : Claims) (now : ℚ) : Py (Option Claims) :=
  let body : Py (Option Claims) := do
    let permission ← setStatus token now
    let generationId ← getItem permission "generation_id"
    if generationId ≠ (env.generationId.elim .null .text) then
      .error (.httpException 403 "Old Token not valid anymore")
    else return some permission
  match body with
  | .error .keyError => .error (.httpException 401 "Data missing")
  | r => r

/-- The claims part of `verify_refresh_permission`. -/
def checkRefresh (token : Claims) (now : ℚ) : Py (Option Claims) := do
  let permission ← setStatus token now
  if permission.get? "status" = some (.text "expired") then
    .error (.httpException 401 "Token expired")
  else return some permission

/-- The claims part of `verify_contact_permission`; it returns nothing. -/
def checkContact (token : Claims) (now : ℚ) : Py (Option Claims) :=
  match getNumber token "expired_at" with
  | .error .keyError => .error (.httpException 401 "Data missing")
  | .error e => .error e
  | .ok expiredAt =>
    if expiredAt < now then .error (.httpException 403 "Token expired") else .ok none

/-- The verifier of a kind of tokens. -/
def verify (env : JwtEnv) (cache : TokenCache) (kind : TokenKind) (token : String) (now : ℚ) :
    Py (Option Claims) × TokenCache :=
  let (claims, cache) := decodeToken env cache token
    (match kind with
      | .auth | .refresh => none
      | .contact => some "CONTACT_JWT_SECRET_KEY"
      | .ws => some "WS_JWT_SECRET_KEY") now
  (do
    let claims ← claims
    match kind with
    | .auth => checkAuth env claims now
    | .refresh => checkRefresh claims now
    | .contact => checkContact claims now
    | .ws => .ok (some claims), cache)

/-- `ContactPermissionScope`. -/
inductive ContactPermissionScope
  | update | create | any
  deriving DecidableEq

/-- The literal of a scope. -/
def ContactPermissionScope.text : ContactPermissionScope → String
  | update => "update"
  | create => "create"
  | any => "any"

/-- What a token is made from. -/
inductive TokenRequest
  | auth (authzId clientId challenge : String) (groupId : Option String)
  | refresh (clientId challenge : String) (groupId : Option String)
  | contact (contactId : String) (expiration : ℚ) (scope : ContactPermissionScope)
  | ws (runId operationId : String) (expiration : ℚ)

namespace TokenRequest

/-- The kind of the token. -/
def kind : TokenRequest → TokenKind
  | auth .. => .auth
  | refresh .. => .refresh
  | contact .. => .contact
  | ws .. => .ws

/-- An optional text as a claim. -/
def optional (s : Option String) : Claim := s.elim .null .text

/-- The claims record, made at a time with a salt. -/
def permission (env : JwtEnv) (now : ℚ) (salt : Bytes) : TokenRequest → Claims
  | auth authzId clientId challenge groupId => .ofEntries [
      ("generation_id", optional env.generationId), ("created_at", .number now),
      ("expired_at", .number (now + env.authExpiration * (1 / 2))),
      ("salt", .text (bytesRepr salt)), ("group_id", optional groupId),
      ("challenge", .text challenge), ("client_id", .text clientId), ("authz_id", .text authzId)]
  | refresh clientId challenge groupId => .ofEntries [
      ("client_id", .text clientId), ("generation_id", optional env.generationId),
      ("created_at", .number now), ("salt", .text (bytesRepr salt)),
      ("challenge", .text challenge),
      ("expired_at", .number (now + env.refreshExpiration * (1 / 2))),
      ("group_id", optional groupId)]
  | contact contactId expiration scope => .ofEntries [
      ("expired_at", .number (now + expiration)), ("create_at", .number now),
      ("scope", .text scope.text), ("contact_id", .text contactId),
      ("salt", .text (bytesRepr salt))]
  | ws runId operationId expiration => .ofEntries [
      ("operation_id", .text operationId), ("expired_at", .number (now + expiration)),
      ("created_at", .number now), ("run_id", .text runId), ("salt", .text (bytesRepr salt))]

/-- `encode_auth_token`, `encode_refresh_token`, `encode_contact_token`, `encode_ws_token`. The
first two answer `None` where the others raise. -/
def encode (env : JwtEnv) (now : ℚ) (salt : Bytes) (request : TokenRequest) :
    Py (Option String) :=
  let permission := request.permission env now salt
  let token (secretKey : Option String) (lookup : Bool) :=
    encodeToken env permission secretKey lookup
  match request with
  | auth .. | refresh .. => .ok (token none true).toOption
  | contact .. => (token (env.tokens.get? "CONTACT_JWT_SECRET_KEY") false).map some
  | ws .. => (token (env.tokens.get? "WS_JWT_SECRET_KEY") false).map some

end TokenRequest

/-! ## What comes back -/

/-- A value comes back: encoding and decoding under one key. -/
def ValueRoundTrip (env : JwtEnv) (v : String) (k : Option String) : Prop :=
  (do
    let cipher ← encodeValue env v k
    decodeValue env cipher k) = .ok v

/-- A token comes back: the request is encoded, and the verifier of its kind, on some cache and
at some time, returns the claims that were put in, a status apart. -/
def TokenRoundTrip (env : JwtEnv) (cache : TokenCache) (request : TokenRequest) (salt : Bytes)
    (made now : ℚ) : Prop :=
  ∃ token claims, request.encode env made salt = .ok (some token) ∧
    (verify env cache request.kind token now).1 = .ok (some claims) ∧
    ∀ k, k ≠ "status" → claims.get? k = (request.permission env made salt).get? k

/-- The cache after a history of calls to the decoder, whatever their arguments. -/
def cacheAfter (env : JwtEnv) (calls : List (String × Option String × ℚ)) : TokenCache :=
  calls.foldl (fun cache call => (decodeToken env cache call.1 call.2.1 call.2.2).2) []

/-- Decoding a value always raises: a text is given to the decryptor. -/
theorem decodeValue_error (env : JwtEnv) (v : String) (k : Option String) :
    ∃ e, decodeValue env v k = .error e := by
  unfold decodeValue
  cases k with
  | none => exact ⟨_, rfl⟩
  | some k =>
    cases hnew : ChaCha20SecretsWrapper.new env v (encodeUtf8 k) jwtNonce with
    | error e =>
      refine ⟨e, ?_⟩
      simp [encodeKey, bind, Except.bind, hnew]
    | ok w =>
      -- the cipher is made; what it is given to decrypt is the text
      simp only [encodeKey, bind, Except.bind, hnew, ChaCha20SecretsWrapper.decrypt]
      cases newCipher w.key w.nonce with
      | error e => exact ⟨e, rfl⟩
      | ok u => exact ⟨.typeError, rfl⟩

/-- The decoder's `try` block always raises. -/
theorem decodeTokenBody_error (env : JwtEnv) (token : String) (secretKey : Option String) :
    ∃ e, decodeTokenBody env token secretKey = .error e := by
  unfold decodeTokenBody
  cases secretKey with
  | some k => exact ⟨.typeError, rfl⟩
  | none =>
    obtain ⟨e, he⟩ := decodeValue_error env token env.onTopSecretKey
    refine ⟨e, ?_⟩
    simp [bind, Except.bind, he]

/-- One call on the empty cache: it rejects, and the cache stays empty. -/
theorem decodeToken_nil (env : JwtEnv) (token : String) (secretKey : Option String) (now : ℚ) :
    decodeToken env [] token secretKey now =
      (.error (.httpException 403 "Invalid token"), []) := by
  obtain ⟨e, he⟩ := decodeTokenBody_error env token secretKey
  simp [decodeToken, he]

/-- The cache never gets an entry. -/
theorem cacheAfter_nil (env : JwtEnv) (calls : List (String × Option String × ℚ)) :
    cacheAfter env calls = [] := by
  unfold cacheAfter
  induction calls with
  | nil => rfl
  | cons call rest ih =>
    rw [List.foldl_cons, decodeToken_nil]
    exact ih

/-- **Every verifier rejects every token**, at any time and after any history. -/
theorem verify_rejects (env : JwtEnv) (calls : List (String × Option String × ℚ))
    (kind : TokenKind) (token : String) (now : ℚ) :
    verify env (cacheAfter env calls) kind token now =
      (.error (.httpException 403 "Invalid token"), []) := by
  rw [cacheAfter_nil]
  unfold verify
  rw [decodeToken_nil]
  rfl

/-- **Nothing ever comes back**: no value under any key, and no token of any kind, at any time
and after any history of decodings. -/
theorem tokens_never_sound (env : JwtEnv) (calls : List (String × Option String × ℚ))
    (v : String) (k : Option String) (request : TokenRequest) (salt : Bytes) (made now : ℚ) :
    ¬ ValueRoundTrip env v k ∧
      ¬ TokenRoundTrip env (cacheAfter env calls) request salt made now := by
  constructor
  · intro h
    obtain ⟨cipher, -, hdecode⟩ := bind_ok h
    obtain ⟨e, he⟩ := decodeValue_error env cipher k
    rw [he] at hdecode
    cases hdecode
  · rintro ⟨token, claims, -, hverify, -⟩
    rw [verify_rejects] at hverify
    cases hverify

/-- An environment whose keystream is zero; nothing is signed in it. -/
def JwtEnv.plain : JwtEnv where
  keystream _ _ _ := 0
  jwtEncode _ _ _ := .error .valueError
  jwtDecode _ _ _ := .error .valueError
  tokens := .ofEntries [("ON_TOP_SECRET_KEY", "0123456789abcdef0123456789abcdef")]
  jwtAlgorithm := "HS256"
  generationId := some "g"
  authExpiration := 100
  refreshExpiration := 100

/-- A value that is encoded well and does not come back. -/
theorem not_valueRoundTrip :
    encodeValue .plain "hello" (some "0123456789abcdef0123456789abcdef") = .ok "aGVsbG8=" ∧
      decodeValue .plain "aGVsbG8=" (some "0123456789abcdef0123456789abcdef") =
        .error .typeError ∧
      ¬ ValueRoundTrip .plain "hello" (some "0123456789abcdef0123456789abcdef") := by
  have hencode : encodeValue .plain "hello" (some "0123456789abcdef0123456789abcdef") =
      .ok "aGVsbG8=" := by decide +kernel
  have hdecode : decodeValue .plain "aGVsbG8=" (some "0123456789abcdef0123456789abcdef") =
      .error .typeError := rfl
  refine ⟨hencode, hdecode, fun h => ?_⟩
  obtain ⟨cipher, hcipher, hback⟩ := bind_ok h
  cases hencode.symm.trans hcipher
  rw [hdecode] at hback
  cases hback

end Notifyr
