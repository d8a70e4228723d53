import Notifyr.Auth.Token
import Notifyr.Utils.Nesting

/-!
# Secrets in memory

The wrappers of `app/classes/secrets.py`: `ChaCha20SecretsWrapper` with the key and the nonce
its default arguments were given once, and `ChaCha20Poly1305SecretsWrapper` with a nonce for
every encryption, its `export` and `from_encrypted`.

- `PlainData`: what a wrapper is built from; `SecretsWrapper`: what it holds.
- `ChaCha20.new`, `ChaCha20.decrypt`, `Poly1305.new`, `Poly1305.decrypt`: the methods.
- `toPlain`: decrypting, and for a dictionary unflattening.
- `Restored`: the plain data came back, nested at the separators.
- `toPlain_restored_iff`: when each of the wrappers gives back what it was built from, and when
  an exported wrapper gives what the wrapper gives.
-/

namespace Notifyr

open Theory NestedDict

variable {φ : Type}

/-- The exceptions of the wrappers. -/
inductive SecretsExc
  | py (e : PyErr)
  | unicodeEncodeError
  /-- `cryptography.exceptions.InvalidTag`. -/
  | invalidTag
  | json (e : JsonExc)
  deriving DecidableEq

/-- An authenticated cipher; a nonce has twelve bytes, a key has thirty-two. -/
structure Aead where
  encrypt : Bytes → Bytes → Bytes → Bytes
  decrypt : Bytes → Bytes → Bytes → Option Bytes
  decrypt_encrypt : ∀ key nonce data, key.length = 32 → nonce.length = 12 →
    decrypt key nonce (encrypt key nonce data) = some data

/-- What the wrappers find around them. -/
structure SecretsEnv (φ : Type) where
  json : JsonEnv φ
  /-- The ChaCha20 keystream of a key and a nonce. -/
  keystream : Bytes → Bytes → ℕ → UInt8
  aead : Aead
  /-- `urandom(32)` and `urandom(16)`, when the class was defined. -/
  defaultKey : Bytes
  defaultNonce : Bytes
  defaultKey_length : defaultKey.length = 32
  defaultNonce_length : defaultNonce.length = 16
  /-- `ChaCha20Poly1305.generate_key()`. -/
  generateKey : Bytes
  generateKey_length : generateKey.length = 32
  /-- `urandom(12)`, at the first encryption, the second and so on. -/
  urandom12 : ℕ → Bytes
  urandom12_length : ∀ i, (urandom12 i).length = 12

/-- What a wrapper is built from. -/
inductive PlainData (φ : Type)
  | str (s : PyStr)
  | dict (entries : List (PyStr × PyJson φ))

/-- `type(plain_data)`. -/
inductive PlainType
  | str
  | dict
  deriving DecidableEq

/-- `cipher_data`. -/
inductive CipherText
  | bytes (b : Bytes)
  | dict (entries : List (PyStr × Bytes))

/-- What a wrapper holds; `ν` is what its nonce is. -/
structure SecretsWrapper (ν : Type) where
  plainType : PlainType
  key : Bytes
  nonce : ν
  cipherData : CipherText

/-- `plain_type` of some data. -/
def PlainData.type : PlainData φ → PlainType
  | .str _ => .str
  | .dict _ => .dict

/-- `s.encode()`. -/
def encodeStr (s : PyStr) : Except SecretsExc Bytes :=
  match s.encode with
  | some b => .ok b
  | none => .error .unicodeEncodeError

/-- `v.encode()`: only a text has it. -/
def encodePlain : PyJson φ → Except SecretsExc Bytes
  | .atom (.str s) => encodeStr s
  | _ => .error (.py .attributeError)

/-- `b.decode()`. -/
def decodePlain (b : Bytes) : Except SecretsExc PyStr := (decodeStr b).mapError .py

/-! ## ChaCha20 -/

/-- `update` of an encryptor or a decryptor, on bytes. -/
def xorKeystream (env : SecretsEnv φ) (key nonce b : Bytes) : Bytes :=
  b.mapIdx fun i x => x ^^^ env.keystream key nonce i

/-- A fresh cipher over some bytes. -/
def ChaCha20.update (env : SecretsEnv φ) (key nonce b : Bytes) : Except SecretsExc Bytes := do
  (newCipher key nonce).mapError .py
  return xorKeystream env key nonce b

/-- An entry with its value encrypted. -/
def ChaCha20.encryptEntry (env : SecretsEnv φ) (key nonce : Bytes) (e : PyStr × PyJson φ) :
    Except SecretsExc (PyStr × Bytes) := do
  return (e.1, ← ChaCha20.update env key nonce (← encodePlain e.2))

/-- `_encrypt`. -/
def ChaCha20.encrypt (env : SecretsEnv φ) (key nonce : Bytes) :
    PlainData φ → Except SecretsExc CipherText
  | .str s => do return .bytes (← ChaCha20.update env key nonce (← encodeStr s))
  | .dict entries => (entries.mapM (ChaCha20.encryptEntry env key nonce)).map .dict

/-- `ChaCha20SecretsWrapper(plain_data, key, nonce)`; the arguments have defaults. -/
def ChaCha20.new (env : SecretsEnv φ) (plainData : PlainData φ) (key nonce : Option Bytes) :
    Except SecretsExc (SecretsWrapper Bytes) := do
  let key := key.getD env.defaultKey
  let nonce := nonce.getD env.defaultNonce
  let cipherData ← ChaCha20.encrypt env key nonce plainData
  return { plainType := plainData.type, key, nonce, cipherData }

/-- What `_decrypt` gives. -/
inductive Decrypted
  | str (s : PyStr)
  | dict (entries : List (PyStr × PyStr))

/-- An entry with its value decrypted. -/
def ChaCha20.decryptEntry (env : SecretsEnv φ) (key nonce : Bytes) (e : PyStr × Bytes) :
    Except SecretsExc (PyStr × PyStr) := do
  return (e.1, ← decodePlain (← ChaCha20.update env key nonce e.2))

/-- `_decrypt`. The cipher data is bytes or a dictionary and never a `str`, so bytes are asked
for their items too. -/
def ChaCha20.decrypt (env : SecretsEnv φ) (w : SecretsWrapper Bytes) :
    Except SecretsExc Decrypted :=
  match w.cipherData with
  | .bytes _ => .error (.py .attributeError)
  | .dict entries => (entries.mapM (ChaCha20.decryptEntry env w.key w.nonce)).map .dict

/-! ## ChaCha20-Poly1305 -/

/-- The nonces of a wrapper, by key. -/
abbrev Nonces := Dict PyStr Bytes

/-- The key under which the nonce of a text is kept. -/
def singleKey : PyStr := pyText "__single__"

/-- The entries whose value is a text. -/
def textEntries (entries : List (PyStr × PyJson φ)) : List (PyStr × PyStr) :=
  entries.filterMap fun e =>
    match e.2 with
    | .atom (.str s) => some (e.1, s)
    | _ => none

/-- The cipher text of an entry, under the nonce that is drawn for it. -/
def Poly1305.encryptEntry (env : SecretsEnv φ) (key : Bytes) (e : (PyStr × PyStr) × ℕ) :
    Except SecretsExc (PyStr × Bytes × Bytes) := do
  let b ← encodeStr e.1.2
  return (e.1.1, env.aead.encrypt key (env.urandom12 e.2) b, env.urandom12 e.2)

/-- `_encrypt`: the cipher data and the nonces. What is no text is passed over. -/
def Poly1305.encrypt (env : SecretsEnv φ) (key : Bytes) :
    PlainData φ → Except SecretsExc (CipherText × Nonces)
  | .str s => do
    let b ← encodeStr s
    return (.bytes (env.aead.encrypt key (env.urandom12 0) b),
      .ofEntries [(singleKey, env.urandom12 0)])
  | .dict entries => do
    let done ← (textEntries entries).zipIdx.mapM (Poly1305.encryptEntry env key)
    return (.dict (done.map fun e => (e.1, e.2.1)), .ofEntries (done.map fun e => (e.1, e.2.2)))

/-- `ChaCha20Poly1305(key)`: the size is checked. -/
def Poly1305.checkKey (key : Bytes) : Except SecretsExc Unit :=
  if key.length ≠ 32 then .error (.py .valueError) else .ok ()

/-- `ChaCha20Poly1305SecretsWrapper(plain_data, key)`: without a key one is generated. -/
def Poly1305.new (env : SecretsEnv φ) (plainData : PlainData φ) (key : Option Bytes) :
    Except SecretsExc (SecretsWrapper Nonces) := do
  let key := if key = none ∨ key = some [] then env.generateKey else key.getD []
  Poly1305.checkKey key
  let (cipherData, nonce) ← Poly1305.encrypt env key plainData
  return { plainType := plainData.type, key, nonce, cipherData }

/-- A cipher text under the nonce that is kept for a key. -/
def Poly1305.unseal (env : SecretsEnv φ) (w : SecretsWrapper Nonces) (k : PyStr) (b : Bytes) :
    Except SecretsExc PyStr :=
  match w.nonce.get? k with
  | none => .error (.py .keyError)
  | some nonce =>
    match env.aead.decrypt w.key nonce b with
    | none => .error .invalidTag
    | some data => decodePlain data

/-- An entry with its value decrypted. -/
def Poly1305.unsealEntry (env : SecretsEnv φ) (w : SecretsWrapper Nonces) (e : PyStr × Bytes) :
    Except SecretsExc (PyStr × PyStr) := do
  return (e.1, ← Poly1305.unseal env w e.1 e.2)

/-- `_decrypt`: the plain type says what the cipher data is. -/
def Poly1305.decrypt (env : SecretsEnv φ) (w : SecretsWrapper Nonces) :
    Except SecretsExc Decrypted :=
  match w.plainType, w.cipherData with
  | .str, .bytes b => do return .str (← Poly1305.unseal env w singleKey b)
  | .str, .dict _ =>
    if singleKey ∈ w.nonce.keys then .error (.py .typeError) else .error (.py .keyError)
  | .dict, .bytes _ => .error (.py .attributeError)
  | .dict, .dict entries => (entries.mapM (Poly1305.unsealEntry env w)).map .dict

/-- `export`. -/
structure Exported where
  cipherData : CipherText
  nonces : Nonces
  key : Bytes

/-- `export()`. -/
def Poly1305.export (w : SecretsWrapper Nonces) : Exported :=
  { cipherData := w.cipherData, nonces := w.nonce, key := w.key }

/-- `from_encrypted(data)`. -/
def Poly1305.fromEncrypted (data : Exported) : Except SecretsExc (SecretsWrapper Nonces) := do
  Poly1305.checkKey data.key
  return { plainType := if singleKey ∈ data.nonces.keys then .str else .dict
           key := data.key, nonce := data.nonces, cipherData := data.cipherData }

/-! ## Back to plain data -/

/-- The default separator of `to_plain`. -/
def plainSep : PyStr := pyText "/"

/-- `to_plain()`, of what `_decrypt` gave. -/
def toPlain (env : SecretsEnv φ) (plainType : PlainType) (decrypted : Decrypted) :
    Except SecretsExc (PlainData φ) :=
  match plainType, decrypted with
  | .dict, .dict entries =>
    ((unflattenedDict env.json plainSep (flatTexts entries)).map PlainData.dict).mapError .json
  | .dict, .str _ => .error (.py .attributeError)
  | .str, .str s => .ok (.str s)
  | .str, .dict entries => .ok (.dict (flatTexts entries))

/-- `ChaCha20SecretsWrapper.to_plain()`. -/
def ChaCha20.toPlain (env : SecretsEnv φ) (w : SecretsWrapper Bytes) :
    Except SecretsExc (PlainData φ) := do
  Notifyr.toPlain env w.plainType (← ChaCha20.decrypt env w)

/-- `ChaCha20Poly1305SecretsWrapper.to_plain()`. -/
def Poly1305.toPlain (env : SecretsEnv φ) (w : SecretsWrapper Nonces) :
    Except SecretsExc (PlainData φ) := do
  Notifyr.toPlain env w.plainType (← Poly1305.decrypt env w)

/-! ## What comes back -/

/-- A secret: a text, or a dictionary of texts. -/
inductive Secret
  | text (s : PyStr)
  | texts (d : Dict PyStr PyStr)

/-- The data a wrapper is built from. -/
def Secret.plain : Secret → PlainData φ
  | .text s => .str s
  | .texts d => .dict (flatTexts d.entries)

/-- The texts of a secret. -/
def Secret.values : Secret → List PyStr
  | .text s => [s]
  | .texts d => d.entries.map Prod.snd

/-- Every text can be encoded: none has a lone surrogate. -/
def Secret.Encodable (s : Secret) : Prop := ∀ t ∈ s.values, t.encode.isSome

/-- The plain data came back: the text, or the texts nested at the separators. -/
def Secret.Restored : Secret → Except SecretsExc (PlainData φ) → Prop
  | .text s, r => r = .ok (.str s)
  | .texts d, r => ∃ es, r = .ok (.dict es) ∧ Nests (textLeaves plainSep d.entries) es

/-- The arguments a cipher takes: a key of thirty-two bytes, a nonce of sixteen. -/
structure CipherArgs where
  key : Option Bytes
  nonce : Option Bytes
  key_length : ∀ k ∈ key, k.length = 32
  nonce_length : ∀ n ∈ nonce, n.length = 16

/-- Built with `ChaCha20SecretsWrapper`, the secret comes back. -/
def ChaCha20Right (env : SecretsEnv φ) (args : CipherArgs) (s : Secret) : Prop :=
  ∃ w, ChaCha20.new env s.plain args.key args.nonce = .ok w ∧
    s.Restored (ChaCha20.toPlain env w)

/-- Built with `ChaCha20Poly1305SecretsWrapper`, the secret comes back. -/
def Poly1305Right (env : SecretsEnv φ) (args : CipherArgs) (s : Secret) : Prop :=
  ∃ w, Poly1305.new env s.plain args.key = .ok w ∧ s.Restored (Poly1305.toPlain env w)

/-- An exported wrapper gives what the wrapper gives. -/
def ExportRight (env : SecretsEnv φ) (args : CipherArgs) (s : Secret) : Prop :=
  ∀ w : SecretsWrapper Nonces, Poly1305.new env s.plain args.key = .ok w →
    (Poly1305.fromEncrypted (Poly1305.export w) >>= Poly1305.toPlain env) =
      Poly1305.toPlain env w

/-- The ciphers keep what they are given, and the exported ones too. -/
def SecretsRight (env : SecretsEnv φ) (args : CipherArgs) (s : Secret) : Prop :=
  ChaCha20Right env args s ∧ Poly1305Right env args s ∧ ExportRight env args s

/-! ## The ciphers -/

theorem xorKeystream_xorKeystream (env : SecretsEnv φ) (key nonce b : Bytes) :
    xorKeystream env key nonce (xorKeystream env key nonce b) = b := by
  unfold xorKeystream
  rw [List.mapIdx_mapIdx]
  refine List.ext_getElem (by simp) fun i h₁ h₂ => ?_
  rw [List.getElem_mapIdx]
  show b[i] ^^^ env.keystream key nonce i ^^^ env.keystream key nonce i = b[i]
  rw [UInt8.xor_assoc, UInt8.xor_self, UInt8.xor_zero]

theorem newCipher_ok {key nonce : Bytes} (hkey : key.length = 32) (hnonce : nonce.length = 16) :
    newCipher key nonce = .ok () := by
  unfold newCipher
  rw [if_neg (not_not.mpr hkey), if_neg (not_not.mpr hnonce)]

theorem ChaCha20.update_ok (env : SecretsEnv φ) {key nonce : Bytes} (hkey : key.length = 32)
    (hnonce : nonce.length = 16) (b : Bytes) :
    ChaCha20.update env key nonce b = .ok (xorKeystream env key nonce b) := by
  unfold ChaCha20.update
  rw [newCipher_ok hkey hnonce]
  rfl

theorem encodeStr_ok_iff {s : PyStr} {b : Bytes} : encodeStr s = .ok b ↔ s.encode = some b := by
  unfold encodeStr
  cases s.encode with
  | none => exact iff_of_false (by intro h; cases h) (by intro h; cases h)
  | some b' =>
    rw [Except.ok.injEq, Option.some.injEq]

theorem encodeStr_pyText (t : String) : encodeStr (pyText t) = .ok (encodeUtf8 t) := by
  refine encodeStr_ok_iff.mpr ?_
  unfold PyStr.encode
  rw [text?_pyText]
  rfl

theorem decodePlain_ok {s : PyStr} {b : Bytes} (h : s.encode = some b) :
    decodePlain b = .ok s := by
  unfold decodePlain
  rw [decodeStr_encode h]
  rfl

theorem CipherArgs.key_getD (args : CipherArgs) (env : SecretsEnv φ) :
    (args.key.getD env.defaultKey).length = 32 := by
  cases h : args.key with
  | none => exact env.defaultKey_length
  | some k => exact args.key_length k h

theorem CipherArgs.nonce_getD (args : CipherArgs) (env : SecretsEnv φ) :
    (args.nonce.getD env.defaultNonce).length = 16 := by
  cases h : args.nonce with
  | none => exact env.defaultNonce_length
  | some n => exact args.nonce_length n h

/-! ### ChaCha20 -/

variable (env : SecretsEnv φ) (args : CipherArgs)

/-- A text is decrypted as a dictionary, and fails. -/
theorem not_chaCha20Right_text (t : PyStr) : ¬ ChaCha20Right env args (.text t) := by
  rintro ⟨w, hw, hr⟩
  obtain ⟨cipherData, hcipher, hw⟩ := bind_ok hw
  cases hw
  obtain ⟨b, -, hcipher⟩ := bind_ok hcipher
  obtain ⟨b', -, hcipher⟩ := bind_ok hcipher
  cases hcipher
  cases hr

theorem ChaCha20.encodable_of_new {d : Dict PyStr PyStr} {w : SecretsWrapper Bytes}
    (h : ChaCha20.new env (Secret.texts d).plain args.key args.nonce = .ok w) :
    (Secret.texts d).Encodable := by
  intro t ht
  obtain ⟨e, he, rfl⟩ := List.mem_map.mp ht
  obtain ⟨cipherData, hcipher, -⟩ := bind_ok h
  obtain ⟨entries, hentries, -⟩ := map_ok hcipher
  obtain ⟨c, -, hc⟩ := exists_ok_of_mapM hentries (mem_flatTexts he)
  obtain ⟨b, hb, -⟩ := bind_ok hc
  rw [encodeStr_ok_iff.mp hb]
  rfl

theorem ChaCha20.encryptEntry_ok {key nonce : Bytes} (hkey : key.length = 32)
    (hnonce : nonce.length = 16) {e : PyStr × PyStr} {b : Bytes} (hb : e.2.encode = some b) :
    ChaCha20.encryptEntry env key nonce (e.1, .atom (.str e.2)) =
      .ok (e.1, xorKeystream env key nonce b) := by
  show (encodeStr e.2 >>= fun b => _) = _
  rw [encodeStr_ok_iff.mpr hb]
  show (ChaCha20.update env key nonce b >>= fun c => _) = _
  rw [ChaCha20.update_ok env hkey hnonce]
  rfl

theorem ChaCha20.decryptEntry_ok {key nonce : Bytes} (hkey : key.length = 32)
    (hnonce : nonce.length = 16) {e : PyStr × PyStr} {b : Bytes} (hb : e.2.encode = some b) :
    ChaCha20.decryptEntry env key nonce (e.1, xorKeystream env key nonce b) = .ok e := by
  show (ChaCha20.update env key nonce (xorKeystream env key nonce b) >>= fun b => _) = _
  rw [ChaCha20.update_ok env hkey hnonce, xorKeystream_xorKeystream]
  show (decodePlain b >>= fun s => _) = _
  rw [decodePlain_ok hb]
  rfl

/-- The texts of a dictionary come out of the cipher. -/
theorem ChaCha20.decrypt_new {d : Dict PyStr PyStr} (h : (Secret.texts d).Encodable) :
    ∃ w, ChaCha20.new env (Secret.texts d).plain args.key args.nonce = .ok w ∧
      w.plainType = .dict ∧ ChaCha20.decrypt env w = .ok (.dict d.entries) := by
  have hkey := args.key_getD env
  have hnonce := args.nonce_getD env
  obtain ⟨entries, henc, hdec⟩ := mapM_mapM_ok (l := d.entries)
    (f := fun e => ChaCha20.encryptEntry env (args.key.getD env.defaultKey)
      (args.nonce.getD env.defaultNonce) (e.1, .atom (.str e.2)))
    (g := ChaCha20.decryptEntry env (args.key.getD env.defaultKey)
      (args.nonce.getD env.defaultNonce)) (by
    intro e he
    obtain ⟨b, hb⟩ := Option.isSome_iff_exists.mp (h e.2 (List.mem_map.mpr ⟨e, he, rfl⟩))
    exact ⟨_, ChaCha20.encryptEntry_ok env hkey hnonce hb,
      ChaCha20.decryptEntry_ok env hkey hnonce hb⟩)
  have hflat : (flatTexts d.entries).mapM (ChaCha20.encryptEntry env
      (args.key.getD env.defaultKey) (args.nonce.getD env.defaultNonce)) = .ok entries := by
    rw [flatTexts, List.mapM_map]
    exact henc
  refine ⟨⟨.dict, args.key.getD env.defaultKey, args.nonce.getD env.defaultNonce,
    .dict entries⟩, ?_, rfl, ?_⟩
  · show (Except.map CipherText.dict ((flatTexts d.entries).mapM _) >>= fun c => _) = _
    rw [hflat]
    rfl
  · show Except.map Decrypted.dict (entries.mapM _) = _
    rw [hdec]
    rfl

/-- What `to_plain` makes of texts is right exactly if they unfold. -/
theorem restored_toPlain_iff (d : Dict PyStr PyStr) :
    (Secret.texts d).Restored (Notifyr.toPlain env .dict (.dict d.entries)) ↔
      Unfolds env.json plainSep d.entries := by
  rw [← unflattenedDict_texts_iff env.json (by decide) d.nodup]
  show (∃ es, ((unflattenedDict env.json plainSep (flatTexts d.entries)).map
    PlainData.dict).mapError SecretsExc.json = .ok (.dict es) ∧ _) ↔ _
  cases unflattenedDict env.json plainSep (flatTexts d.entries) with
  | error x =>
    refine iff_of_false ?_ ?_
    · rintro ⟨es, hes, -⟩
      cases hes
    · rintro ⟨es, hes, -⟩
      cases hes
  | ok es =>
    constructor
    · rintro ⟨es', hes, hnests⟩
      cases hes
      exact ⟨es, rfl, hnests⟩
    · rintro ⟨es', hes, hnests⟩
      cases hes
      exact ⟨es, rfl, hnests⟩

/-- `ChaCha20SecretsWrapper` keeps dictionaries that unfold. -/
theorem chaCha20Right_iff (s : Secret) :
    ChaCha20Right env args s ↔
      ∃ d, s = .texts d ∧ s.Encodable ∧ Unfolds env.json plainSep d.entries := by
  cases s with
  | text t =>
    refine iff_of_false (not_chaCha20Right_text env args t) ?_
    rintro ⟨d, h, -⟩
    cases h
  | texts d =>
    constructor
    · rintro ⟨w, hw, hr⟩
      have henc := ChaCha20.encodable_of_new env args hw
      obtain ⟨w', hw', htype, hdec⟩ := ChaCha20.decrypt_new env args henc
      rw [hw] at hw'
      cases hw'
      refine ⟨d, rfl, henc, (restored_toPlain_iff env d).mp ?_⟩
      unfold ChaCha20.toPlain at hr
      rw [hdec, htype] at hr
      exact hr
    · rintro ⟨d', h, henc, hunfolds⟩
      cases h
      obtain ⟨w, hw, htype, hdec⟩ := ChaCha20.decrypt_new env args henc
      refine ⟨w, hw, ?_⟩
      unfold ChaCha20.toPlain
      rw [hdec, htype]
      exact (restored_toPlain_iff env d).mpr hunfolds

/-! ### ChaCha20-Poly1305 -/

/-- The key a wrapper takes. -/
def CipherArgs.sealKey (args : CipherArgs) (env : SecretsEnv φ) : Bytes :=
  args.key.getD env.generateKey

theorem CipherArgs.sealKey_length : (args.sealKey env).length = 32 := by
  unfold CipherArgs.sealKey
  cases h : args.key with
  | none => exact env.generateKey_length
  | some k => exact args.key_length k h

theorem CipherArgs.key_ne_nil : args.key ≠ some [] := by
  intro h
  have hlen := args.key_length [] h
  cases hlen

theorem Poly1305.checkKey_ok {key : Bytes} (h : key.length = 32) :
    Poly1305.checkKey key = .ok () := if_neg (not_not.mpr h)

theorem Poly1305.new_eq (p : PlainData φ) :
    Poly1305.new env p args.key =
      (Poly1305.encrypt env (args.sealKey env) p).map fun c =>
        { plainType := p.type, key := args.sealKey env, nonce := c.2, cipherData := c.1 } := by
  have hkey : (if args.key = none ∨ args.key = some [] then env.generateKey
      else args.key.getD []) = args.sealKey env := by
    unfold CipherArgs.sealKey
    cases h : args.key with
    | none => rfl
    | some k =>
      rw [if_neg]
      · rfl
      · rintro (hnone | hnil)
        · cases hnone
        · exact args.key_ne_nil (h.trans hnil)
  unfold Poly1305.new
  rw [hkey]
  dsimp only
  rw [Poly1305.checkKey_ok (args.sealKey_length env)]
  cases Poly1305.encrypt env (args.sealKey env) p with
  | error e => rfl
  | ok c => rfl

theorem textEntries_flatTexts (texts : List (PyStr × PyStr)) :
    textEntries (flatTexts texts : Entries PyStr (PyAtom φ)) = texts := by
  unfold textEntries flatTexts
  rw [List.filterMap_map]
  exact List.filterMap_some

/-- What becomes of the text at a key, which is the `i`-th to be encrypted. -/
def Poly1305.sealed (e : (PyStr × PyStr) × ℕ) : PyStr × Bytes × Bytes :=
  (e.1.1, env.aead.encrypt (args.sealKey env) (env.urandom12 e.2) (e.1.2.encode.getD []),
    env.urandom12 e.2)

theorem Poly1305.encryptEntry_ok {e : (PyStr × PyStr) × ℕ} (h : e.1.2.encode.isSome) :
    Poly1305.encryptEntry env (args.sealKey env) e = .ok (Poly1305.sealed env args e) := by
  obtain ⟨b, hb⟩ := Option.isSome_iff_exists.mp h
  show (encodeStr e.1.2 >>= fun b => _) = _
  rw [encodeStr_ok_iff.mpr hb, Poly1305.sealed, hb]
  rfl

/-- The wrapper of a secret whose texts can be encoded. -/
def Poly1305.built : Secret → SecretsWrapper Nonces
  | .text s =>
    { plainType := .str, key := args.sealKey env,
      nonce := .ofEntries [(singleKey, env.urandom12 0)],
      cipherData := .bytes (env.aead.encrypt (args.sealKey env) (env.urandom12 0)
        (s.encode.getD [])) }
  | .texts d =>
    let done := d.entries.zipIdx.map (Poly1305.sealed env args)
    { plainType := .dict, key := args.sealKey env,
      nonce := .ofEntries (done.map fun e => (e.1, e.2.2)),
      cipherData := .dict (done.map fun e => (e.1, e.2.1)) }

theorem Poly1305.new_ok {s : Secret} (h : s.Encodable) :
    Poly1305.new env s.plain args.key = .ok (Poly1305.built env args s) := by
  rw [Poly1305.new_eq]
  cases s with
  | text t =>
    obtain ⟨b, hb⟩ := Option.isSome_iff_exists.mp (h t List.mem_cons_self)
    show Except.map _ (encodeStr t >>= fun b => _) = _
    rw [encodeStr_ok_iff.mpr hb, Poly1305.built, hb]
    rfl
  | texts d =>
    have hdone : (textEntries (flatTexts d.entries : Entries PyStr (PyAtom φ))).zipIdx.mapM
        (Poly1305.encryptEntry env (args.sealKey env)) =
        .ok (d.entries.zipIdx.map (Poly1305.sealed env args)) := by
      rw [textEntries_flatTexts]
      refine mapM_eq_ok_map fun e he => Poly1305.encryptEntry_ok env args ?_
      exact h e.1.2 (List.mem_map.mpr ⟨e.1, List.fst_mem_of_mem_zipIdx he, rfl⟩)
    show Except.map _ ((textEntries (flatTexts d.entries)).zipIdx.mapM _ >>= fun done => _) = _
    rw [hdone]
    rfl

theorem Poly1305.encodable_of_new {s : Secret} {w : SecretsWrapper Nonces}
    (h : Poly1305.new env s.plain args.key = .ok w) : s.Encodable := by
  rw [Poly1305.new_eq] at h
  obtain ⟨c, hc, -⟩ := map_ok h
  intro t ht
  cases s with
  | text t' =>
    rw [List.mem_singleton.mp ht]
    obtain ⟨b, hb, -⟩ := bind_ok hc
    rw [encodeStr_ok_iff.mp hb]
    rfl
  | texts d =>
    obtain ⟨e, he, rfl⟩ := List.mem_map.mp ht
    obtain ⟨done, hdone, -⟩ := bind_ok hc
    rw [textEntries_flatTexts] at hdone
    obtain ⟨i, hi⟩ := List.getElem?_of_mem he
    obtain ⟨c', -, hc'⟩ := exists_ok_of_mapM hdone (List.mk_mem_zipIdx_iff_getElem?.mpr hi)
    obtain ⟨b, hb, -⟩ := bind_ok hc'
    rw [encodeStr_ok_iff.mp hb]
    rfl

theorem Poly1305.unseal_ok {w : SecretsWrapper Nonces} {k s : PyStr} {b : Bytes} {i : ℕ}
    (hkey : w.key.length = 32) (hnonce : w.nonce.get? k = some (env.urandom12 i))
    (hb : s.encode = some b) :
    Poly1305.unseal env w k (env.aead.encrypt w.key (env.urandom12 i) b) = .ok s := by
  unfold Poly1305.unseal
  rw [hnonce]
  dsimp only
  rw [env.aead.decrypt_encrypt _ _ _ hkey (env.urandom12_length i)]
  exact decodePlain_ok hb

theorem Poly1305.sealed_keys (d : Dict PyStr PyStr) :
    ((d.entries.zipIdx.map (Poly1305.sealed env args)).map fun e => (e.1, e.2.2)).map Prod.fst =
      d.keys := by
  rw [List.map_map, List.map_map]
  show d.entries.zipIdx.map (Prod.fst ∘ Prod.fst) = d.entries.map Prod.fst
  rw [← List.map_map, List.zipIdx_map_fst]

theorem Poly1305.mem_built_keys (d : Dict PyStr PyStr) (k : PyStr) :
    k ∈ (Poly1305.built env args (.texts d)).nonce.keys ↔ k ∈ d.keys := by
  show k ∈ (Dict.ofEntries _).keys ↔ _
  rw [Dict.mem_keys_ofEntries, Poly1305.sealed_keys]

/-- Each text has the nonce it was encrypted with. -/
theorem Poly1305.built_nonce {d : Dict PyStr PyStr} {e : (PyStr × PyStr) × ℕ}
    (he : e ∈ d.entries.zipIdx) :
    (Poly1305.built env args (.texts d)).nonce.get? e.1.1 = some (env.urandom12 e.2) := by
  have hnd : (((d.entries.zipIdx.map (Poly1305.sealed env args)).map
      fun e => (e.1, e.2.2)).map Prod.fst).Nodup := by
    rw [Poly1305.sealed_keys]
    exact d.nodup
  show (Dict.ofEntries _).get? e.1.1 = _
  rw [Dict.get?_ofEntries hnd]
  exact Dict.lookup_of_mem hnd (List.mem_map.mpr ⟨_, List.mem_map.mpr ⟨e, he, rfl⟩, rfl⟩)

/-- The texts come out of the cipher, each under the nonce it went in with. -/
theorem Poly1305.decrypt_built_texts {d : Dict PyStr PyStr} (h : (Secret.texts d).Encodable) :
    Poly1305.decrypt env (Poly1305.built env args (.texts d)) = .ok (.dict d.entries) := by
  have hentries : (((d.entries.zipIdx.map (Poly1305.sealed env args)).map
      fun e => (e.1, e.2.1)).mapM (Poly1305.unsealEntry env (Poly1305.built env args (.texts d)))) =
      .ok d.entries := by
    rw [List.map_map, List.mapM_map]
    refine (mapM_eq_ok_map (g := Prod.fst) fun e he => ?_).trans ?_
    · have hvalue : e.1.2 ∈ (Secret.texts d).values :=
        List.mem_map.mpr ⟨e.1, List.fst_mem_of_mem_zipIdx he, rfl⟩
      obtain ⟨b, hb⟩ := Option.isSome_iff_exists.mp (h e.1.2 hvalue)
      show (Poly1305.unseal env _ e.1.1 (env.aead.encrypt _ _ (e.1.2.encode.getD [])) >>=
        fun s => _) = _
      rw [hb]
      have hopen := Poly1305.unseal_ok env (w := Poly1305.built env args (.texts d))
        (args.sealKey_length env) (Poly1305.built_nonce env args he) hb
      show (Poly1305.unseal env _ e.1.1 (env.aead.encrypt (args.sealKey env) _ b) >>= fun s => _) = _
      rw [show Poly1305.unseal env _ e.1.1 (env.aead.encrypt (args.sealKey env) _ b) = _ from hopen]
      rfl
    · rw [List.zipIdx_map_fst]
  show Except.map Decrypted.dict (List.mapM _ _) = _
  rw [hentries]
  rfl

theorem Poly1305.decrypt_built_text {t : PyStr} (h : (Secret.text t).Encodable) :
    Poly1305.decrypt env (Poly1305.built env args (.text t)) = .ok (.str t) := by
  obtain ⟨b, hb⟩ := Option.isSome_iff_exists.mp (h t List.mem_cons_self)
  have hopen := Poly1305.unseal_ok env (w := Poly1305.built env args (.text t)) (k := singleKey)
    (i := 0) (args.sealKey_length env)
    (Dict.get?_set_self Dict.empty singleKey (env.urandom12 0)) hb
  show (Poly1305.unseal env _ singleKey (env.aead.encrypt _ _ (t.encode.getD [])) >>= fun s => _) = _
  rw [hb]
  show (Poly1305.unseal env _ singleKey (env.aead.encrypt (args.sealKey env) _ b) >>= fun s => _) = _
  rw [show Poly1305.unseal env _ singleKey (env.aead.encrypt (args.sealKey env) _ b) = _ from hopen]
  rfl

/-- `ChaCha20Poly1305SecretsWrapper` keeps texts, and dictionaries that unfold. -/
theorem poly1305Right_iff (s : Secret) :
    Poly1305Right env args s ↔
      s.Encodable ∧ ∀ d, s = .texts d → Unfolds env.json plainSep d.entries := by
  have hright : s.Encodable → (Poly1305Right env args s ↔
      s.Restored (Poly1305.toPlain env (Poly1305.built env args s))) := by
    intro henc
    constructor
    · rintro ⟨w, hw, hr⟩
      rw [Poly1305.new_ok env args henc] at hw
      cases hw
      exact hr
    · intro hr
      exact ⟨_, Poly1305.new_ok env args henc, hr⟩
  have hcases : s.Encodable → (s.Restored (Poly1305.toPlain env (Poly1305.built env args s)) ↔
      ∀ d, s = .texts d → Unfolds env.json plainSep d.entries) := by
    intro henc
    unfold Poly1305.toPlain
    cases s with
    | text t =>
      rw [Poly1305.decrypt_built_text env args henc]
      refine iff_of_true rfl ?_
      intro d h
      cases h
    | texts d =>
      rw [Poly1305.decrypt_built_texts env args henc]
      refine (restored_toPlain_iff env d).trans ⟨?_, ?_⟩
      · intro h d' heq
        cases heq
        exact h
      · intro h
        exact h d rfl
  constructor
  · intro h
    have henc : s.Encodable := by
      obtain ⟨w, hw, -⟩ := h
      exact Poly1305.encodable_of_new env args hw
    exact ⟨henc, (hcases henc).mp ((hright henc).mp h)⟩
  · rintro ⟨henc, h⟩
    exact (hright henc).mpr ((hcases henc).mpr h)

theorem Poly1305.fromEncrypted_export (w : SecretsWrapper Nonces) (h : w.key.length = 32) :
    Poly1305.fromEncrypted (Poly1305.export w) =
      .ok { w with plainType := if singleKey ∈ w.nonce.keys then .str else .dict } := by
  unfold Poly1305.fromEncrypted
  rw [show (Poly1305.export w).key = w.key from rfl, Poly1305.checkKey_ok h]
  rfl

/-- `to_plain` of texts raises nothing of its own. -/
theorem toPlain_texts_ne (d : Dict PyStr PyStr) (e : PyErr) :
    Notifyr.toPlain env .dict (.dict d.entries) ≠ .error (.py e) := by
  show ((unflattenedDict env.json plainSep (flatTexts d.entries)).map
    PlainData.dict).mapError SecretsExc.json ≠ _
  cases unflattenedDict env.json plainSep (flatTexts d.entries) with
  | error x =>
    intro h
    cases h
  | ok es =>
    intro h
    cases h

/-- What is exported is restored, but for a dictionary with the key that marks a text. -/
theorem exportRight_iff (s : Secret) :
    ExportRight env args s ↔ ∀ d, s = .texts d → s.Encodable → singleKey ∉ d.keys := by
  have hbuilt : ExportRight env args s ↔ (s.Encodable →
      (Poly1305.fromEncrypted (Poly1305.export (Poly1305.built env args s)) >>=
        Poly1305.toPlain env) = Poly1305.toPlain env (Poly1305.built env args s)) := by
    constructor
    · intro h henc
      exact h _ (Poly1305.new_ok env args henc)
    · intro h w hw
      have henc := Poly1305.encodable_of_new env args hw
      rw [Poly1305.new_ok env args henc] at hw
      cases hw
      exact h henc
  rw [hbuilt]
  cases s with
  | text t =>
    refine iff_of_true (fun _ => ?_) ?_
    · rw [Poly1305.fromEncrypted_export _ (args.sealKey_length env), if_pos]
      · rfl
      · exact (Dict.mem_keys_ofEntries _ _).mpr List.mem_cons_self
    · intro d h
      cases h
  | texts d =>
    by_cases hkey : singleKey ∈ d.keys
    · -- restored as a text, the wrapper fails on its dictionary
      refine ⟨fun h d' heq henc => ?_, fun h henc => absurd hkey (h d rfl henc)⟩
      have h := h henc
      rw [Poly1305.fromEncrypted_export _ (args.sealKey_length env),
        if_pos ((Poly1305.mem_built_keys env args d _).mpr hkey)] at h
      have hfail : Poly1305.toPlain env { Poly1305.built env args (.texts d) with
          plainType := .str } = .error (.py .typeError) := by
        show ((if singleKey ∈ (Poly1305.built env args (.texts d)).nonce.keys then
          Except.error (SecretsExc.py PyErr.typeError) else
            Except.error (SecretsExc.py PyErr.keyError)) >>= Notifyr.toPlain env .str) = _
        rw [if_pos ((Poly1305.mem_built_keys env args d _).mpr hkey)]
        rfl
      have hplain : Poly1305.toPlain env (Poly1305.built env args (.texts d)) =
          Notifyr.toPlain env .dict (.dict d.entries) := by
        unfold Poly1305.toPlain
        rw [Poly1305.decrypt_built_texts env args henc]
        rfl
      exact absurd (hplain.symm.trans (h.symm.trans hfail)) (toPlain_texts_ne env d _)
    · refine iff_of_true (fun _ => ?_) ?_
      · rw [Poly1305.fromEncrypted_export _ (args.sealKey_length env),
          if_neg fun h => hkey ((Poly1305.mem_built_keys env args d _).mp h)]
        rfl
      · intro d' h _
        cases h
        exact hkey

/-- **The wrappers keep exactly the dictionaries that unfold**, without the key that marks a
text. -/
theorem secretsRight_iff (s : Secret) :
    SecretsRight env args s ↔
      ∃ d, s = .texts d ∧ s.Encodable ∧ Unfolds env.json plainSep d.entries ∧
        singleKey ∉ d.keys := by
  unfold SecretsRight
  rw [chaCha20Right_iff, poly1305Right_iff, exportRight_iff]
  constructor
  · rintro ⟨⟨d, rfl, henc, hunfolds⟩, -, hexport⟩
    exact ⟨d, rfl, henc, hunfolds, hexport d rfl henc⟩
  · rintro ⟨d, rfl, henc, hunfolds, hkey⟩
    refine ⟨⟨d, rfl, henc, hunfolds⟩, ⟨henc, ?_⟩, ?_⟩
    · intro d' h
      cases h
      exact hunfolds
    · intro d' h _
      cases h
      exact hkey

/-- Ciphers that change nothing, and an interpreter that reads floats as nothing. -/
def SecretsEnv.clear : SecretsEnv Unit where
  json := { parseFloat := fun _ => (), intMaxStrDigits := 4300, maxDepth := 900 }
  keystream _ _ _ := 0
  aead := { encrypt := fun _ _ data => data, decrypt := fun _ _ data => some data,
            decrypt_encrypt := fun _ _ _ _ _ => rfl }
  defaultKey := List.replicate 32 0
  defaultNonce := List.replicate 16 0
  defaultKey_length := rfl
  defaultNonce_length := rfl
  generateKey := List.replicate 32 0
  generateKey_length := rfl
  urandom12 _ := List.replicate 12 0
  urandom12_length _ := rfl

/-- No arguments. -/
def CipherArgs.default : CipherArgs where
  key := none
  nonce := none
  key_length := by
    intro k h
    cases h
  nonce_length := by
    intro n h
    cases h

/-- A text never comes back from `ChaCha20SecretsWrapper`. -/
theorem text_lost :
    ¬ SecretsRight SecretsEnv.clear CipherArgs.default (.text (pyText "api-key")) := by
  rintro ⟨h, -⟩
  exact not_chaCha20Right_text SecretsEnv.clear CipherArgs.default _ h

end Notifyr
