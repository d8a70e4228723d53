import Notifyr.Auth.Secrets
import Notifyr.Theory.Runs

/-!
# Keystreams

Which texts `ChaCha20SecretsWrapper` and `JWTAuthService._encode_token` encrypt under which key
and nonce, over the life of a process. The default arguments of the wrapper are evaluated once,
the nonce of the tokens is a class constant, and every entry of a dictionary is encrypted with
the wrapper's own pair.

- `Encryption`: one use of the cipher, with where its pair comes from.
- `CipherRequest`: a wrapper or a token that is asked for; `encryptions` are the uses it makes.
- `new_values`, `encodeToken_eq`: the ciphertexts of the code are those of the listed uses.
- `UsedOnce`, `NoLeak`: no pair serves two texts; no two ciphertexts give away two plaintexts.
- `usedOnce_iff`: a run is so exactly if each source is asked for one text.
-/

namespace Notifyr

open Theory

variable {φ : Type}

/-- Where the key and the nonce of an encryption come from. -/
inductive CipherSource
  | defaults
  | given
  | token
  deriving DecidableEq

/-- One use of the cipher. -/
structure Encryption where
  source : CipherSource
  key : Bytes
  nonce : Bytes
  plaintext : Bytes
  deriving DecidableEq

/-- What came out of it. -/
def Encryption.ciphertext (env : SecretsEnv φ) (e : Encryption) : Bytes :=
  xorKeystream env e.key e.nonce e.plaintext

/-- A process: what the wrappers and the tokens find around them, with one cipher for both. -/
structure CipherProcess (φ : Type) where
  secrets : SecretsEnv φ
  jwt : JwtEnv
  keystream_eq : jwt.keystream = secrets.keystream

/-- What a process is asked for. -/
inductive CipherRequest (φ : Type)
  | wrap (plainData : PlainData φ) (key nonce : Option Bytes)
  | encode (obj : Claims) (secretKey : Option String) (lookup : Bool)

/-- Where the pair of a wrapper comes from. -/
def wrapSource (key nonce : Option Bytes) : CipherSource :=
  if key = none ∧ nonce = none then .defaults else .given

/-- The encoded values of a dictionary, up to the first that has no encoding. -/
def encodedPrefix : List (PyStr × PyJson φ) → List Bytes
  | [] => []
  | e :: es =>
    match encodePlain e.2 with
    | .ok b => b :: encodedPrefix es
    | .error _ => []

/-- The plaintexts of some data. -/
def PlainData.plaintexts : PlainData φ → List Bytes
  | .str s => (encodeStr s).toOption.toList
  | .dict entries => encodedPrefix entries

/-- The encryptions of a wrapper. -/
def wrapEncryptions (env : SecretsEnv φ) (plainData : PlainData φ) (key nonce : Option Bytes) :
    List Encryption :=
  let k := key.getD env.defaultKey
  let n := nonce.getD env.defaultNonce
  match newCipher k n with
  | .ok () => plainData.plaintexts.map fun b => ⟨wrapSource key nonce, k, n, b⟩
  | .error _ => []

/-- The encryption of `_encode_value`. -/
def valueEncryption (value : String) (key : Option String) : Py Encryption := do
  let key ← encodeKey key
  newCipher key jwtNonce
  return ⟨.token, key, jwtNonce, encodeUtf8 (b64Encode value)⟩

/-- The encryption of a token. -/
def tokenEncryption (env : JwtEnv) (obj : Claims) (secretKey : Option String) (lookup : Bool) :
    Py Encryption := do
  let secretKey := match secretKey with
    | none => env.jwtSecretKey
    | some key => if lookup then (env.tokens.get? key).or env.jwtSecretKey else some key
  let encoded ← env.jwtEncode obj secretKey env.jwtAlgorithm
  valueEncryption encoded env.onTopSecretKey

/-- The encryptions a request makes. -/
def CipherProcess.encryptions (p : CipherProcess φ) : CipherRequest φ → List Encryption
  | .wrap plainData key nonce => wrapEncryptions p.secrets plainData key nonce
  | .encode obj secretKey lookup =>
    (tokenEncryption p.jwt obj secretKey lookup).toOption.toList

/-- A request, and what was encrypted so far. -/
def CipherProcess.step (p : CipherProcess φ) (log : List Encryption) (r : CipherRequest φ) :
    List Encryption := log ++ p.encryptions r

/-! ## The listed uses are those of the code -/

/-- The ciphertexts of a wrapper. -/
def CipherText.values : CipherText → List Bytes
  | .bytes b => [b]
  | .dict entries => entries.map Prod.snd

theorem encryptEntries_values {env : SecretsEnv φ} {key nonce : Bytes}
    {entries : List (PyStr × PyJson φ)} {out : List (PyStr × Bytes)}
    (h : entries.mapM (ChaCha20.encryptEntry env key nonce) = .ok out) :
    out.map Prod.snd = (encodedPrefix entries).map (xorKeystream env key nonce) := by
  induction entries generalizing out with
  | nil =>
    cases h
    rfl
  | cons e entries ih =>
    rw [List.mapM_cons] at h
    obtain ⟨c, hc, h⟩ := bind_ok h
    obtain ⟨rest, hrest, h⟩ := bind_ok h
    cases h
    obtain ⟨b, hb, hc⟩ := bind_ok hc
    obtain ⟨c', hc', hc⟩ := bind_ok hc
    cases hc
    obtain ⟨u, -, hc'⟩ := bind_ok hc'
    cases hc'
    rw [encodedPrefix, hb, List.map_cons, List.map_cons, ih hrest]

/-- What a wrapper holds are the ciphertexts of its encryptions. -/
theorem new_values {env : SecretsEnv φ} {plainData : PlainData φ} {key nonce : Option Bytes}
    {w : SecretsWrapper Bytes} (h : ChaCha20.new env plainData key nonce = .ok w) :
    w.cipherData.values =
      plainData.plaintexts.map (xorKeystream env (key.getD env.defaultKey)
        (nonce.getD env.defaultNonce)) := by
  obtain ⟨c, hc, h⟩ := bind_ok h
  cases h
  cases plainData with
  | str s =>
    obtain ⟨b, hb, hc⟩ := bind_ok hc
    obtain ⟨c', hc', hc⟩ := bind_ok hc
    cases hc
    obtain ⟨u, -, hc'⟩ := bind_ok hc'
    cases hc'
    show [_] = (encodeStr s).toOption.toList.map _
    rw [hb]
    rfl
  | dict entries =>
    obtain ⟨out, hout, rfl⟩ := map_ok hc
    exact encryptEntries_values hout

theorem encodeValue_eq (p : CipherProcess φ) (value : String) (key : Option String) :
    encodeValue p.jwt value key =
      valueEncryption value key >>= fun e => decodeUtf8 (e.ciphertext p.secrets) := by
  have hstream : ∀ key b, cipherUpdate p.jwt key jwtNonce (.bytes b) =
      .ok (xorKeystream p.secrets key jwtNonce b) := by
    intro key b
    unfold xorKeystream cipherUpdate
    rw [p.keystream_eq]
  unfold encodeValue valueEncryption ChaCha20SecretsWrapper.new
  cases encodeKey key with
  | error e => rfl
  | ok key =>
    show ((newCipher key jwtNonce >>= fun _ => cipherUpdate p.jwt key jwtNonce _ >>= fun c => _) >>=
      fun w => _) = (newCipher key jwtNonce >>= fun _ => _) >>= fun e => _
    cases newCipher key jwtNonce with
    | error e => rfl
    | ok u =>
      simp only [bind, Except.bind, hstream]
      rfl

/-- A token is the ciphertext of its encryption. -/
theorem encodeToken_eq (p : CipherProcess φ) (obj : Claims) (secretKey : Option String)
    (lookup : Bool) :
    encodeToken p.jwt obj secretKey lookup =
      tokenEncryption p.jwt obj secretKey lookup >>= fun e =>
        decodeUtf8 (e.ciphertext p.secrets) := by
  unfold encodeToken tokenEncryption
  dsimp only
  cases p.jwt.jwtEncode obj (match secretKey with
    | none => p.jwt.jwtSecretKey
    | some key => if lookup then (p.jwt.tokens.get? key).or p.jwt.jwtSecretKey else some key)
    p.jwt.jwtAlgorithm with
  | error e => rfl
  | ok encoded => exact encodeValue_eq p encoded p.jwt.onTopSecretKey

/-! ## One keystream, two texts -/

/-- The bytewise XOR of two byte strings. -/
def xorBytes (a b : Bytes) : Bytes := List.zipWith (· ^^^ ·) a b

/-- Two encryptions use the same keystream. -/
def Encryption.SamePair (a b : Encryption) : Prop := a.key = b.key ∧ a.nonce = b.nonce

/-- No pair of key and nonce serves two plaintexts. -/
def UsedOnce (log : List Encryption) : Prop :=
  ∀ a ∈ log, ∀ b ∈ log, a.SamePair b → a.plaintext = b.plaintext

/-- No two ciphertexts have the XOR of their plaintexts because one keystream made both. -/
def NoLeak (env : SecretsEnv φ) (log : List Encryption) : Prop :=
  ∀ a ∈ log, ∀ b ∈ log, a.plaintext ≠ b.plaintext →
    ¬ (a.SamePair b ∧
      xorBytes (a.ciphertext env) (b.ciphertext env) = xorBytes a.plaintext b.plaintext)

/-- Under one keystream the XOR of the ciphertexts is that of the plaintexts. -/
theorem xorBytes_ciphertext (env : SecretsEnv φ) {a b : Encryption} (h : a.SamePair b) :
    xorBytes (a.ciphertext env) (b.ciphertext env) = xorBytes a.plaintext b.plaintext := by
  obtain ⟨hkey, hnonce⟩ := h
  unfold xorBytes Encryption.ciphertext xorKeystream
  rw [hkey, hnonce]
  refine List.ext_getElem (by simp) fun i h₁ h₂ => ?_
  simp only [List.getElem_zipWith, List.getElem_mapIdx]
  generalize env.keystream b.key b.nonce i = k
  have hcancel : ∀ x y : UInt8, x ^^^ k ^^^ (y ^^^ k) = x ^^^ y := by
    intro x y
    rw [UInt8.xor_comm y k, ← UInt8.xor_assoc, UInt8.xor_assoc x k k, UInt8.xor_self,
      UInt8.xor_zero]
  exact hcancel _ _

/-- Using a pair twice is what gives plaintexts away. -/
theorem noLeak_iff (env : SecretsEnv φ) (log : List Encryption) :
    NoLeak env log ↔ UsedOnce log := by
  constructor
  · intro h a ha b hb hpair
    by_contra hne
    exact h a ha b hb hne ⟨hpair, xorBytes_ciphertext env hpair⟩
  · intro h a ha b hb hne hpair
    exact hne (h a ha b hb hpair.1)

/-! ## Runs -/

/-- Each source is asked for one text: the default arguments, the tokens, and whoever gives a
pair of his own that serves elsewhere too. -/
structure OneTextEach (log : List Encryption) : Prop where
  defaults : ∀ a ∈ log, ∀ b ∈ log, a.source = .defaults → b.source = .defaults →
    a.plaintext = b.plaintext
  token : ∀ a ∈ log, ∀ b ∈ log, a.source = .token → b.source = .token →
    a.plaintext = b.plaintext
  elsewhere : ∀ a ∈ log, ∀ b ∈ log, a.source = .given ∨ a.source ≠ b.source → a.SamePair b →
    a.plaintext = b.plaintext

/-- What the sources that never change stand for. -/
def CipherProcess.Constant (p : CipherProcess φ) (e : Encryption) : Prop :=
  (e.source = .defaults → e.key = p.secrets.defaultKey ∧ e.nonce = p.secrets.defaultNonce) ∧
    (e.source = .token → some e.key = p.jwt.onTopSecretKey.map encodeUtf8 ∧ e.nonce = jwtNonce)

theorem CipherProcess.constant_of_request {p : CipherProcess φ} {r : CipherRequest φ}
    {e : Encryption} (h : e ∈ p.encryptions r) : p.Constant e := by
  cases r with
  | wrap plainData key nonce =>
    unfold CipherProcess.encryptions wrapEncryptions at h
    dsimp only at h
    split at h
    · obtain ⟨b, -, rfl⟩ := List.mem_map.mp h
      constructor
      · intro hsource
        have hnone : key = none ∧ nonce = none := by
          by_contra hne
          unfold wrapSource at hsource
          rw [if_neg hne] at hsource
          cases hsource
        obtain ⟨rfl, rfl⟩ := hnone
        exact ⟨rfl, rfl⟩
      · intro hsource
        unfold wrapSource at hsource
        split at hsource
        · cases hsource
        · cases hsource
    · cases h
  | encode obj secretKey lookup =>
    have h : e ∈ (tokenEncryption p.jwt obj secretKey lookup).toOption.toList := h
    have htoken : tokenEncryption p.jwt obj secretKey lookup = .ok e := by
      cases hr : tokenEncryption p.jwt obj secretKey lookup with
      | error x =>
        rw [hr] at h
        cases h
      | ok e' =>
        rw [hr] at h
        rw [List.mem_singleton.mp h]
    obtain ⟨encoded, -, hvalue⟩ := bind_ok htoken
    obtain ⟨key, hkey, hvalue⟩ := bind_ok hvalue
    obtain ⟨u, -, hvalue⟩ := bind_ok hvalue
    cases hvalue
    constructor
    · intro hsource
      cases hsource
    · intro _
      refine ⟨?_, rfl⟩
      cases htop : p.jwt.onTopSecretKey with
      | none =>
        rw [htop] at hkey
        cases hkey
      | some top =>
        rw [htop] at hkey
        cases hkey
        rfl

/-- Along a run the pairs of the default arguments and of the tokens never change. -/
theorem CipherProcess.constant_of_run (p : CipherProcess φ) {log : List Encryption}
    (hlog : ∀ e ∈ log, p.Constant e) (requests : List (CipherRequest φ)) :
    ∀ e ∈ runFrom p.step log requests, p.Constant e := by
  induction requests generalizing log with
  | nil => exact hlog
  | cons r requests ih =>
    refine ih fun e he => ?_
    rcases List.mem_append.mp he with hold | hnew
    · exact hlog e hold
    · exact CipherProcess.constant_of_request hnew

theorem usedOnce_iff_oneTextEach {p : CipherProcess φ} {log : List Encryption}
    (h : ∀ e ∈ log, p.Constant e) : UsedOnce log ↔ OneTextEach log := by
  constructor
  · intro honce
    refine ⟨?_, ?_, ?_⟩
    · intro a ha b hb hsa hsb
      obtain ⟨hka, hna⟩ := (h a ha).1 hsa
      obtain ⟨hkb, hnb⟩ := (h b hb).1 hsb
      exact honce a ha b hb ⟨hka.trans hkb.symm, hna.trans hnb.symm⟩
    · intro a ha b hb hsa hsb
      obtain ⟨hka, hna⟩ := (h a ha).2 hsa
      obtain ⟨hkb, hnb⟩ := (h b hb).2 hsb
      exact honce a ha b hb ⟨Option.some.inj (hka.trans hkb.symm), hna.trans hnb.symm⟩
    · intro a ha b hb _ hpair
      exact honce a ha b hb hpair
  · intro heach a ha b hb hpair
    by_cases hsource : a.source = b.source
    · cases hsa : a.source with
      | defaults => exact heach.defaults a ha b hb hsa (hsource.symm.trans hsa)
      | token => exact heach.token a ha b hb hsa (hsource.symm.trans hsa)
      | given => exact heach.elsewhere a ha b hb (.inl hsa) hpair
    · exact heach.elsewhere a ha b hb (.inr hsource) hpair

/-- **A process keeps its keystreams to one text each exactly if every source is asked for one
text**; and the same of what its ciphertexts give away. -/
theorem usedOnce_run_iff (p : CipherProcess φ) (requests : List (CipherRequest φ)) :
    (UsedOnce (runFrom p.step [] requests) ↔ OneTextEach (runFrom p.step [] requests)) ∧
      (NoLeak p.secrets (runFrom p.step [] requests) ↔
        OneTextEach (runFrom p.step [] requests)) := by
  have hempty : ∀ e ∈ ([] : List Encryption), p.Constant e := by
    intro e he
    cases he
  have hconstant := p.constant_of_run hempty requests
  have honce := usedOnce_iff_oneTextEach hconstant
  exact ⟨honce, (noLeak_iff p.secrets _).trans honce⟩

/-- A process that has no tokens, whose ciphers change nothing. -/
def CipherProcess.clear : CipherProcess Unit where
  secrets := SecretsEnv.clear
  jwt :=
    { keystream := fun _ _ _ => 0
      jwtEncode := fun _ _ _ => .error .valueError
      jwtDecode := fun _ _ _ => .error .valueError
      tokens := .empty
      jwtAlgorithm := "HS256"
      generationId := none
      authExpiration := 0
      refreshExpiration := 0 }
  keystream_eq := rfl

/-- A user name and a password. -/
def twoFields : PlainData Unit :=
  .dict (flatTexts [(pyText "user", pyText "bob"), (pyText "password", pyText "tom")])

theorem twoFields_plaintexts :
    twoFields.plaintexts = [encodeUtf8 "bob", encodeUtf8 "tom"] := by
  have hbob : encodePlain (.atom (.str (pyText "bob")) : PyJson Unit) = .ok (encodeUtf8 "bob") :=
    encodeStr_pyText "bob"
  have htom : encodePlain (.atom (.str (pyText "tom")) : PyJson Unit) = .ok (encodeUtf8 "tom") :=
    encodeStr_pyText "tom"
  show encodedPrefix [(pyText "user", .atom (.str (pyText "bob"))),
    (pyText "password", .atom (.str (pyText "tom")))] = _
  rw [encodedPrefix, hbob]
  dsimp only
  rw [encodedPrefix, htom]
  rfl

/-- The fields of one wrapper are encrypted with one keystream. -/
theorem fields_share_keystream :
    ¬ UsedOnce (runFrom CipherProcess.clear.step [] [.wrap twoFields none none]) := by
  have hlog : runFrom CipherProcess.clear.step [] [.wrap twoFields none none] =
      twoFields.plaintexts.map fun b =>
        ⟨.defaults, List.replicate 32 0, List.replicate 16 0, b⟩ := rfl
  rw [hlog, twoFields_plaintexts]
  intro h
  have htexts : encodeUtf8 "bob" = encodeUtf8 "tom" :=
    h _ List.mem_cons_self _ (List.mem_cons_of_mem _ List.mem_cons_self) ⟨rfl, rfl⟩
  have hdecoded := congrArg decodeUtf8 htexts
  rw [decodeUtf8_encodeUtf8, decodeUtf8_encodeUtf8] at hdecoded
  exact absurd (Except.ok.inj hdecoded) (by decide)

end Notifyr
