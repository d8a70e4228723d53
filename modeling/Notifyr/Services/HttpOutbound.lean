import Mathlib.Data.List.DropRight
import Notifyr.Runtime.FormFields
import Notifyr.Runtime.JsonCompact

/-!
# Delivering over HTTP

`HTTPOutboundMiniService` (`app/services/mini/outbound/http_outbound_service.py`).

- `HttpEnv`: the libraries the service calls: `hmac`, and the form encoders of `requests` and of
  `aiohttp`.
- `prepareRequest`, `deliver`, `deliverAsync`: the service.
- `DeliveryRight`: both deliveries send one request, signed over its body, whose body is the
  payload under the type that the request declares.
- `signedDeliveryRight_iff`: for which payloads and profiles this is so.
-/

namespace Notifyr

open Theory NestedDict

namespace HttpOutbound

variable {φ : Type}

/-! ## The profile -/

/-- The methods of `HTTPWebhookModel`. -/
inductive Method | post | put | patch | delete | get
  deriving DecidableEq

/-- `BodyEncoding`. -/
inductive BodyEncoding | raw | json | form
  deriving DecidableEq

/-- The algorithms of a `SignatureConfig`. -/
inductive Algo | sha256

/-- Its name. -/
def Algo.text : Algo → String
  | .sha256 => "sha256"

/-- `SignatureConfig`, as the credentials have it. -/
structure SignatureConfig where
  secret : Option String
  algo : Option Algo
  headerName : Option String

/-- The fields of `HTTPWebhookModel` that a delivery reads. -/
structure HTTPWebhookModel where
  method : Method
  encoding : BodyEncoding
  headers : Option (Dict String String)
  params : Option (Dict String String)
  sendAndWait : Bool

/-- `credentials.to_plain()`; what is not stored is missing. -/
structure Credentials where
  url : Option String
  auth : Option (Dict String String)
  secretHeaders : Option (Dict String String)
  signatureConfig : Option SignatureConfig

/-- The configuration, where it is not empty. -/
def Credentials.signing (cred : Credentials) : Option SignatureConfig :=
  cred.signatureConfig.filter fun config =>
    config.secret.isSome || config.algo.isSome || config.headerName.isSome

/-! ## The libraries -/

/-- How a delivery fails. -/
inductive HttpExc
  | dumps (e : DumpsExc)
  | unicodeEncodeError
  | typeError
  | attributeError
  | keyError

/-- The two clients. -/
inductive Client | requests | aiohttp

/-- The keyword argument with the body. -/
inductive BodyArg (φ : Type)
  | content (body : Bytes)
  | data (entries : List (PyKey φ × PyValue φ))

/-- The other arguments of `client.request`. -/
structure Call where
  method : Method
  url : String
  auth : Option (List String)
  headers : Dict String String
  params : Option (Dict String String)

/-- What is sent of a call, and the answer to it that a client returns. -/
structure Request where
  method : Method
  url : String
  auth : Option (List String)
  fields : List (String × String)
  params : Option (Dict String String)
  body : Bytes

/-- The values of a field: one text, or a list of them. -/
def formValue : List UrlText → PyValue φ
  | [v] => .atom (.str (v.map ord))
  | vs => .list (vs.map fun v => .atom (.str (v.map ord)))

/-- The entries of a payload that is a form. -/
def formEntries (form : Dict UrlText (List UrlText)) : List (PyKey φ × PyValue φ) :=
  form.entries.map fun e => (.str (e.1.map ord), formValue e.2)

/-- The form as bytes. -/
def formBytes (form : Dict UrlText (List UrlText)) : Bytes :=
  encodeText (urlencode (formPairs form.entries))

/-- A form in which each field has a value. -/
def IsForm (form : Dict UrlText (List UrlText)) : Prop := ∀ e ∈ form.entries, e.2 ≠ []

/-- What the service calls. The limit of recursion leaves room for a dictionary of lists.
`hexdigest` is `hmac.new(key, msg, algo).hexdigest()`. `encodeData` is the body a client makes of a
dictionary: for texts and lists of texts it is that of `urlencode`, and of whatever JSON has a text
for it quotes every brace. -/
structure HttpEnv (φ : Type) extends DumpsEnv φ where
  two_le_maxDepth : 2 ≤ maxDepth
  hexdigest : Algo → Bytes → Bytes → String
  encodeData : Client → List (PyKey φ × PyValue φ) → Except HttpExc Bytes
  encodeData_form : ∀ client form, IsForm form →
    encodeData client (formEntries form) = .ok (formBytes form)
  brace_not_mem_encodeData : ∀ client entries text body,
    compact toDumpsEnv maxDepth (.dict entries) = .ok text →
      encodeData client entries = .ok body → (123 : UInt8) ∉ body
  answer : Client → Request → ℤ × Bytes

/-- A name without regard to case. -/
def lower (name : String) : List Char := name.toList.map Char.toLower

/-- The headers in a dictionary that does not regard the case of its names. -/
def caseInsensitive (fields : List (String × String)) : List (String × String) :=
  (Dict.ofEntries (fields.map fun e => (lower e.1, e))).entries.map Prod.snd

/-- The header fields: `requests` has a dictionary without regard to case, and `aiohttp` a
dictionary with several values for a name. -/
def headerFields : Client → Dict String String → List (String × String)
  | .requests, headers => caseInsensitive headers.entries
  | .aiohttp, headers => headers.entries

/-- Whether a client takes what it is given for `auth`: a pair, or an object of its own. -/
def takesAuth : Client → Option (List String) → Bool
  | _, none => true
  | .requests, some auth => auth.length = 2
  | .aiohttp, some _ => false

/-- The keywords of `client.request`: neither client has a `content`. -/
def bindBody : BodyArg φ → Except HttpExc (List (PyKey φ × PyValue φ))
  | .content _ => .error .typeError
  | .data entries => .ok entries

/-- The request that a client sends. -/
def perform (env : HttpEnv φ) (client : Client) (call : Call)
    (entries : List (PyKey φ × PyValue φ)) : Except HttpExc Request :=
  if takesAuth client call.auth then do
    let body ← env.encodeData client entries
    return {
      method := call.method
      url := call.url
      auth := call.auth
      fields := headerFields client call.headers
      params := call.params
      body := body }
  else .error .typeError

/-! ## The service -/

/-- `json_bytes`. -/
def jsonBytes (env : HttpEnv φ) (payload : PyValue φ) : Except HttpExc Bytes :=
  match compact env.toDumpsEnv env.maxDepth payload with
  | .error e => .error (.dumps e)
  | .ok text =>
    match text.encode with
    | some body => .ok body
    | none => .error .unicodeEncodeError

/-- `hmac_signature`, whatever the algorithm is. -/
def hmacSignature (env : HttpEnv φ) (secret : String) (body : Bytes) (_algo : Option Algo) :
    String :=
  "sha256=" ++ env.hexdigest .sha256 (encodeUtf8 secret) body

/-- `headers.setdefault(name, value)`. -/
def setDefault (headers : Dict String String) (name value : String) : Dict String String :=
  if name ∈ headers.keys then headers else headers.set name value

/-- `headers.update(new)`. -/
def updated (headers new : Dict String String) : Dict String String :=
  new.entries.foldl (fun d e => d.set e.1 e.2) headers

/-- `set_encoding_data`: the argument, and the headers. -/
def setEncodingData (model : HTTPWebhookModel) (payload : PyValue φ) (body : Bytes)
    (headers : Dict String String) : BodyArg φ × Dict String String :=
  match model.encoding with
  | .json => (.content body, headers)
  | .form =>
    let headers := setDefault headers "Content-Type" "application/x-www-form-urlencoded"
    match payload with
    | .dict entries => (.data entries, headers)
    | _ => (.content body, headers)
  | .raw => (.content body, headers)

/-- The header of the signature. -/
def SignatureConfig.header (config : SignatureConfig) : String :=
  (config.headerName.filter (· ≠ "")).getD "X-Webhook-Signature"

/-- `sign`. -/
def sign (env : HttpEnv φ) (headers : Dict String String) (body : Bytes) (cred : Credentials) :
    Except HttpExc (Dict String String) :=
  match cred.signing with
  | none => .ok headers
  | some config =>
    match config.secret with
    | none => .error .attributeError
    | some secret => .ok (headers.set config.header (hmacSignature env secret body config.algo))

/-- The headers of every request; a delivery identifier is there in the services of webhooks. -/
def baseHeaders (deliveryId : Option String) (eventType : String) : Dict String String :=
  let headers := Dict.ofEntries [("Content-Type", "application/json"), ("X-Event-Type", eventType)]
  match deliveryId with
  | none => headers
  | some deliveryId => headers.set "X-Delivery-Id" deliveryId

/-- `prepare_request`. -/
def prepareRequest (env : HttpEnv φ) (model : HTTPWebhookModel) (cred : Credentials)
    (deliveryId : Option String) (payload : PyValue φ) (eventType : String) :
    Except HttpExc (Call × BodyArg φ) := do
  let body ← jsonBytes env payload
  let headers := baseHeaders deliveryId eventType
  match model.headers with
  | none => .error .typeError
  | some own =>
    let headers := updated headers own
    let headers := updated headers (cred.secretHeaders.getD Dict.empty)
    let headers ← sign env headers body cred
    let (arg, headers) := setEncodingData model payload body headers
    let auth := (cred.auth.filter (·.entries ≠ [])).map fun auth => auth.entries.map Prod.snd
    match cred.url with
    | none => .error .keyError
    | some url =>
      return ({
        method := model.method
        url := url
        auth := auth
        headers := headers
        params := model.params }, arg)

/-- A delivery: the request that went out, and what the caller gets. -/
structure Delivery where
  request : Option Request
  result : Except HttpExc (ℤ × Option Bytes)

section Deliveries

variable (env : HttpEnv φ) (model : HTTPWebhookModel) (cred : Credentials)
  (deliveryId : Option String) (payload : PyValue φ) (eventType : String)

/-- The arguments of the client, and the entries of the body. -/
def arguments : Except HttpExc (Call × List (PyKey φ × PyValue φ)) := do
  let (call, arg) ← prepareRequest env model cred deliveryId payload eventType
  let entries ← bindBody arg
  return (call, entries)

/-- `deliver`. -/
def deliver : Delivery :=
  match arguments env model cred deliveryId payload eventType with
  | .error e => ⟨none, .error e⟩
  | .ok (call, entries) =>
    match perform env .requests call entries with
    | .error e => ⟨none, .error e⟩
    | .ok request =>
      let (status, content) := env.answer .requests request
      ⟨some request, .ok (status, some content)⟩

/-- `deliver_async`: where it does not wait, the request is made in a task of its own. -/
def deliverAsync : Delivery :=
  match arguments env model cred deliveryId payload eventType with
  | .error e => ⟨none, .error e⟩
  | .ok (call, entries) =>
    match perform env .aiohttp call entries with
    | .error e => ⟨none, if model.sendAndWait then .error e else .ok (201, none)⟩
    | .ok request =>
      let (status, content) := env.answer .aiohttp request
      ⟨some request, .ok (if model.sendAndWait then (status, some content) else (201, none))⟩

end Deliveries

/-! ## What a delivery owes -/

/-- The media type in a `Content-Type`, without its parameters. -/
def mediaType (value : String) : List Char :=
  (((value.toList.takeWhile (· ≠ ';')).dropWhile Char.isWhitespace).rdropWhile
    Char.isWhitespace).map Char.toLower

/-- The type that the header fields declare. -/
def declaredType (fields : List (String × String)) : Option (List Char) :=
  (fields.find? fun e => lower e.1 = "content-type".toList).map fun e => mediaType e.2

/-- A form as a payload. -/
def formPayload (form : Dict UrlText (List UrlText)) : PyValue φ := .dict (formEntries form)

/-- What a receiver reads from the body. -/
def decodeBody (env : HttpEnv φ) (request : Request) : Option (PyValue φ) :=
  if declaredType request.fields = some "application/json".toList then
    match decodeStr request.body with
    | .error _ => none
    | .ok text => (loads env.toJsonEnv text).toOption.map ofJson
  else if declaredType request.fields = some "application/x-www-form-urlencoded".toList then
    (decodeUtf8 request.body).toOption.map fun text => formPayload (parseForm text.toList)
  else none

/-- The signature of a body: the name of the algorithm, and the digest of the body. -/
def expectedSignature (env : HttpEnv φ) (secret : String) (algo : Algo) (body : Bytes) : String :=
  algo.text ++ "=" ++ env.hexdigest algo (encodeUtf8 secret) body

/-- A request carries the signature of its body, where the profile has one. -/
def SignatureRight (env : HttpEnv φ) (cred : Credentials) (request : Request) : Prop :=
  ∀ config, cred.signing = some config → ∃ secret, config.secret = some secret ∧
    (config.header, expectedSignature env secret (config.algo.getD .sha256) request.body) ∈
      request.fields

section Right

variable (env : HttpEnv φ) (model : HTTPWebhookModel) (cred : Credentials)
  (deliveryId : Option String) (payload : PyValue φ) (eventType : String)

/-- Both deliveries send one and the same request: signed over its body, and with the payload in the
body under the type it declares. -/
def DeliveryRight : Prop :=
  ∃ request, (deliver env model cred deliveryId payload eventType).request = some request ∧
    (deliverAsync env model cred deliveryId payload eventType).request = some request ∧
    SignatureRight env cred request ∧ decodeBody env request = some payload

/-- The names of the headers. -/
def headerNames : List String :=
  ["Content-Type", "X-Event-Type"] ++ (deliveryId.map fun _ => "X-Delivery-Id").toList ++
    (model.headers.getD Dict.empty).keys ++ (cred.secretHeaders.getD Dict.empty).keys ++
    (cred.signing.map SignatureConfig.header).toList

/-- The type of the body that the profile sets itself. -/
def ownType : Option String :=
  ((cred.secretHeaders.getD Dict.empty).get? "Content-Type").or
    ((model.headers.getD Dict.empty).get? "Content-Type")

/-- What the signature asks for: none is configured, or the digest does not tell the JSON text of
the payload from its form. -/
def SignsForm (form : Dict UrlText (List UrlText)) : Prop :=
  ∀ config, cred.signing = some config → config.header ≠ "Content-Type" ∧
    ∃ secret, config.secret = some secret ∧ ∀ body, jsonBytes env payload = .ok body →
      env.hexdigest .sha256 (encodeUtf8 secret) body =
        env.hexdigest .sha256 (encodeUtf8 secret) (formBytes form)

/-- The deliveries that go as they should: of a form, under a type that the profile sets itself,
without a user, with names of headers that differ in more than their case, and without a signature
that tells one text from another. -/
structure Deliverable : Prop where
  encoding : model.encoding = .form
  url : cred.url.isSome
  auth : cred.auth.filter (·.entries ≠ []) = none
  headers : model.headers.isSome
  names : ∀ a ∈ headerNames model cred deliveryId, ∀ b ∈ headerNames model cred deliveryId,
    lower a = lower b → a = b
  type : (ownType model cred).map mediaType = some "application/x-www-form-urlencoded".toList
  form : ∃ form, IsForm form ∧ payload = formPayload form ∧ SignsForm env cred payload form

end Right

/-! ## Header fields -/

/-- A dictionary that does not regard case keeps all headers if they differ in more than case. -/
theorem caseInsensitive_eq_iff (fields : List (String × String)) :
    caseInsensitive fields = fields ↔ (fields.map fun e => lower e.1).Nodup := by
  have hkeys : (fields.map fun e => (lower e.1, e)).map Prod.fst =
      fields.map fun e => lower e.1 := by
    rw [List.map_map]
    rfl
  constructor
  · intro h
    have hentry : ∀ e ∈ (Dict.ofEntries (fields.map fun e => (lower e.1, e))).entries,
        e.1 = lower e.2.1 := by
      intro e he
      obtain ⟨e', -, rfl⟩ := List.mem_map.mp (Dict.mem_of_ofEntries he)
      rfl
    have hnd := (Dict.ofEntries (fields.map fun e => (lower e.1, e))).nodup
    rw [List.map_congr_left hentry] at hnd
    rw [← h]
    unfold caseInsensitive
    rw [List.map_map]
    exact hnd
  · intro h
    unfold caseInsensitive
    rw [Dict.entries_ofEntries (hkeys ▸ h), List.map_map]
    exact List.map_id _

/-- The names of a dictionary differ in more than their case. -/
theorem nodup_lower_iff (headers : Dict String String) :
    (headers.entries.map fun e => lower e.1).Nodup ↔
      ∀ a ∈ headers.keys, ∀ b ∈ headers.keys, lower a = lower b → a = b := by
  have hmap : headers.entries.map (fun e => lower e.1) = headers.keys.map lower := by
    rw [Dict.keys, List.map_map]
    rfl
  rw [hmap]
  exact ⟨fun h _ ha _ hb => List.inj_on_of_nodup_map h ha hb, headers.nodup.map_on⟩

theorem lower_contentType : lower "Content-Type" = "content-type".toList := by decide

/-- The type is declared by the one header of that name. -/
theorem declaredType_entries {headers : Dict String String}
    (hnd : (headers.entries.map fun e => lower e.1).Nodup) {value : String}
    (h : headers.get? "Content-Type" = some value) :
    declaredType headers.entries = some (mediaType value) := by
  have hmem : ("Content-Type", value) ∈ headers.entries := (headers.mem_entries_iff _ _).mpr h
  unfold declaredType
  cases hfind : headers.entries.find? fun e => lower e.1 = "content-type".toList with
  | none =>
    exact absurd (decide_eq_true lower_contentType) (List.find?_eq_none.mp hfind _ hmem)
  | some e =>
    have hname : lower e.1 = "content-type".toList :=
      of_decide_eq_true (List.find?_some hfind :)
    have he : e = ("Content-Type", value) :=
      List.inj_on_of_nodup_map hnd (List.mem_of_find?_eq_some hfind) hmem
        (hname.trans lower_contentType.symm)
    rw [he]
    rfl

theorem get?_updated (headers new : Dict String String) (name : String) :
    (updated headers new).get? name = (new.get? name).or (headers.get? name) :=
  Dict.get?_foldl_set new.nodup headers name

theorem mem_keys_updated (headers new : Dict String String) (name : String) :
    name ∈ (updated headers new).keys ↔ name ∈ headers.keys ∨ name ∈ new.keys :=
  Dict.mem_keys_foldl_set new.entries headers name

/-- The headers without a signature. -/
def unsignedHeaders (cred : Credentials) (deliveryId : Option String) (eventType : String)
    (own : Dict String String) : Dict String String :=
  updated (updated (baseHeaders deliveryId eventType) own) (cred.secretHeaders.getD Dict.empty)

section Headers

variable (env : HttpEnv φ) (model : HTTPWebhookModel) (cred : Credentials)
  (deliveryId : Option String) (payload : PyValue φ) (eventType : String)

theorem mem_keys_baseHeaders (name : String) :
    name ∈ (baseHeaders deliveryId eventType).keys ↔
      name ∈ ["Content-Type", "X-Event-Type"] ++
        (deliveryId.map fun _ => "X-Delivery-Id").toList := by
  unfold baseHeaders
  cases deliveryId with
  | none =>
    rw [Dict.mem_keys_ofEntries]
    simp
  | some deliveryId =>
    show name ∈ (Dict.set _ _ _).keys ↔ _
    rw [Dict.mem_keys_set, Dict.mem_keys_ofEntries]
    simp
    tauto

theorem get?_baseHeaders :
    (baseHeaders deliveryId eventType).get? "Content-Type" = some "application/json" := by
  unfold baseHeaders
  cases deliveryId with
  | none => rfl
  | some deliveryId =>
    show (Dict.set _ _ _).get? _ = _
    rw [Dict.get?_set_ne _ _ (by decide)]
    rfl

variable {env model cred deliveryId payload eventType}

/-- What signing does. -/
theorem sign_ok {headers signed : Dict String String} {body : Bytes}
    (h : sign env headers body cred = .ok signed) :
    cred.signing = none ∧ signed = headers ∨
      ∃ config secret, cred.signing = some config ∧ config.secret = some secret ∧
        signed = headers.set config.header (hmacSignature env secret body config.algo) := by
  unfold sign at h
  cases hsigning : cred.signing with
  | none =>
    rw [hsigning] at h
    cases h
    exact .inl ⟨rfl, rfl⟩
  | some config =>
    rw [hsigning] at h
    dsimp only at h
    cases hsecret : config.secret with
    | none =>
      rw [hsecret] at h
      cases h
    | some secret =>
      rw [hsecret] at h
      cases h
      exact .inr ⟨config, secret, rfl, hsecret, rfl⟩

/-- The names of the headers that are sent. -/
theorem mem_keys_signed {own signed : Dict String String} {body : Bytes}
    (hown : model.headers = some own)
    (h : sign env (unsignedHeaders cred deliveryId eventType own) body cred = .ok signed)
    (name : String) : name ∈ signed.keys ↔ name ∈ headerNames model cred deliveryId := by
  have hunsigned : name ∈ (unsignedHeaders cred deliveryId eventType own).keys ↔
      name ∈ ["Content-Type", "X-Event-Type"] ++ (deliveryId.map fun _ => "X-Delivery-Id").toList ++
        own.keys ++ (cred.secretHeaders.getD Dict.empty).keys := by
    unfold unsignedHeaders
    rw [mem_keys_updated, mem_keys_updated, mem_keys_baseHeaders]
    simp only [List.mem_append]
  unfold headerNames
  rw [hown, Option.getD_some, List.mem_append]
  rcases sign_ok h with ⟨hnone, rfl⟩ | ⟨config, secret, hsome, -, rfl⟩
  · rw [hunsigned, hnone]
    simp
  · rw [Dict.mem_keys_set, hunsigned, hsome, or_comm]
    simp

theorem contentType_mem_signed {own signed : Dict String String} {body : Bytes}
    (h : sign env (unsignedHeaders cred deliveryId eventType own) body cred = .ok signed) :
    "Content-Type" ∈ signed.keys := by
  have hbase : "Content-Type" ∈ (unsignedHeaders cred deliveryId eventType own).keys := by
    unfold unsignedHeaders
    rw [mem_keys_updated, mem_keys_updated, mem_keys_baseHeaders]
    exact .inl (.inl (List.mem_append_left _ List.mem_cons_self))
  rcases sign_ok h with ⟨-, rfl⟩ | ⟨config, secret, -, -, rfl⟩
  · exact hbase
  · exact (Dict.mem_keys_set ..).mpr (.inr hbase)

theorem get?_contentType_unsigned {own : Dict String String} (hown : model.headers = some own) :
    (unsignedHeaders cred deliveryId eventType own).get? "Content-Type" =
      some ((ownType model cred).getD "application/json") := by
  unfold unsignedHeaders ownType
  rw [get?_updated, get?_updated, get?_baseHeaders, hown, Option.getD_some, ← Option.or_assoc]
  cases ((cred.secretHeaders.getD Dict.empty).get? "Content-Type").or (own.get? "Content-Type") with
  | none => rfl
  | some value => rfl

/-- The type that is declared, where the signature has another header. -/
theorem get?_contentType_signed {own signed : Dict String String} {body : Bytes}
    (hown : model.headers = some own)
    (h : sign env (unsignedHeaders cred deliveryId eventType own) body cred = .ok signed)
    (hheader : ∀ config, cred.signing = some config → config.header ≠ "Content-Type") :
    signed.get? "Content-Type" = some ((ownType model cred).getD "application/json") := by
  rcases sign_ok h with ⟨-, rfl⟩ | ⟨config, secret, hconfig, -, rfl⟩
  · exact get?_contentType_unsigned hown
  · rw [Dict.get?_set_ne _ _ (hheader config hconfig).symm]
    exact get?_contentType_unsigned hown

/-- Signing goes through where there is a secret. -/
theorem exists_sign (headers : Dict String String) (body : Bytes)
    (h : ∀ config, cred.signing = some config → ∃ secret, config.secret = some secret) :
    ∃ signed, sign env headers body cred = .ok signed := by
  unfold sign
  cases hconfig : cred.signing with
  | none => exact ⟨headers, rfl⟩
  | some config =>
    obtain ⟨secret, hsecret⟩ := h config hconfig
    dsimp only
    rw [hsecret]
    exact ⟨_, rfl⟩

end Headers

/-! ## What is sent -/

section Sent

variable {env : HttpEnv φ} {model : HTTPWebhookModel} {cred : Credentials}
  {deliveryId : Option String} {payload : PyValue φ} {eventType : String}

/-- Only a dictionary under the form encoding becomes data; its headers have a type already. -/
theorem setEncodingData_data_iff {body : Bytes} {headers headers' : Dict String String}
    {entries : List (PyKey φ × PyValue φ)} (htype : "Content-Type" ∈ headers.keys) :
    setEncodingData model payload body headers = (.data entries, headers') ↔
      model.encoding = .form ∧ payload = .dict entries ∧ headers' = headers := by
  have hdefault : setDefault headers "Content-Type" "application/x-www-form-urlencoded" = headers :=
    if_pos htype
  unfold setEncodingData
  rw [hdefault]
  cases model.encoding with
  | raw => exact ⟨nofun, fun h => by cases h.1⟩
  | json => exact ⟨nofun, fun h => by cases h.1⟩
  | form =>
    cases payload with
    | dict es =>
      constructor
      · intro h
        cases h
        exact ⟨rfl, rfl, rfl⟩
      · rintro ⟨-, hes, rfl⟩
        cases hes
        rfl
    | _ => exact ⟨nofun, fun h => by cases h.2.1⟩

/-- The client is given a body that it takes for a form with a dictionary, and then only. -/
theorem arguments_eq_ok_iff {call : Call} {entries : List (PyKey φ × PyValue φ)} :
    arguments env model cred deliveryId payload eventType = .ok (call, entries) ↔
      model.encoding = .form ∧ payload = .dict entries ∧ ∃ own body signed url,
        model.headers = some own ∧ jsonBytes env payload = .ok body ∧
        sign env (unsignedHeaders cred deliveryId eventType own) body cred = .ok signed ∧
        cred.url = some url ∧
        call = {
          method := model.method
          url := url
          auth := (cred.auth.filter (·.entries ≠ [])).map fun auth => auth.entries.map Prod.snd
          headers := signed
          params := model.params } := by
  constructor
  · intro h
    obtain ⟨⟨call', arg⟩, hprepare, h⟩ := bind_ok h
    obtain ⟨entries', hbind, h⟩ := bind_ok h
    cases h
    cases arg with
    | content body => cases hbind
    | data entries' =>
      cases hbind
      obtain ⟨body, hbody, hprepare⟩ := bind_ok hprepare
      cases hown : model.headers with
      | none =>
        rw [hown] at hprepare
        cases hprepare
      | some own =>
        rw [hown] at hprepare
        obtain ⟨signed, hsign, hprepare⟩ := bind_ok hprepare
        dsimp only at hprepare
        cases hurl : cred.url with
        | none =>
          rw [hurl] at hprepare
          cases hprepare
        | some url =>
          rw [hurl] at hprepare
          obtain ⟨hcall, harg⟩ := Prod.mk.injEq _ _ _ _ ▸ Except.ok.inj hprepare
          have hset : setEncodingData model payload body signed =
              (.data entries, (setEncodingData model payload body signed).2) :=
            Prod.ext harg rfl
          obtain ⟨hform, hpayload, hheaders⟩ :=
            (setEncodingData_data_iff (contentType_mem_signed hsign)).mp hset
          rw [hheaders] at hcall
          exact ⟨hform, hpayload, own, body, signed, url, rfl, hbody, hsign, rfl, hcall.symm⟩
  · rintro ⟨hform, hpayload, own, body, signed, url, hown, hbody, hsign, hurl, rfl⟩
    have hset : setEncodingData model payload body signed = (.data entries, signed) :=
      (setEncodingData_data_iff (contentType_mem_signed hsign)).mpr ⟨hform, hpayload, rfl⟩
    have hsign' : sign env (updated (updated (baseHeaders deliveryId eventType) own)
        (cred.secretHeaders.getD Dict.empty)) body cred = .ok signed := hsign
    unfold arguments prepareRequest
    simp only [bind, Except.bind, hbody, hown, hsign', hset, hurl]
    rfl

theorem perform_ok {client : Client} {call : Call} {entries : List (PyKey φ × PyValue φ)}
    {request : Request} (h : perform env client call entries = .ok request) :
    takesAuth client call.auth ∧ request.fields = headerFields client call.headers ∧
      env.encodeData client entries = .ok request.body := by
  unfold perform at h
  split at h
  · rename_i htakes
    obtain ⟨body, hbody, h⟩ := bind_ok h
    cases h
    exact ⟨htakes, rfl, hbody⟩
  · cases h

theorem perform_eq {client : Client} {call : Call} {entries : List (PyKey φ × PyValue φ)}
    {fields : List (String × String)} {body : Bytes} (htakes : takesAuth client call.auth)
    (hfields : headerFields client call.headers = fields)
    (hbody : env.encodeData client entries = .ok body) :
    perform env client call entries = .ok {
      method := call.method
      url := call.url
      auth := call.auth
      fields := fields
      params := call.params
      body := body } := by
  unfold perform
  rw [if_pos htakes, hbody, ← hfields]
  rfl

theorem request_deliver_iff {request : Request} :
    (deliver env model cred deliveryId payload eventType).request = some request ↔
      ∃ call entries, arguments env model cred deliveryId payload eventType = .ok (call, entries) ∧
        perform env .requests call entries = .ok request := by
  unfold deliver
  cases harguments : arguments env model cred deliveryId payload eventType with
  | error e => simp
  | ok args =>
    obtain ⟨call, entries⟩ := args
    dsimp only
    cases hperform : perform env .requests call entries with
    | error e => simp [hperform]
    | ok request => simp [hperform]

theorem request_deliverAsync_iff {request : Request} :
    (deliverAsync env model cred deliveryId payload eventType).request = some request ↔
      ∃ call entries, arguments env model cred deliveryId payload eventType = .ok (call, entries) ∧
        perform env .aiohttp call entries = .ok request := by
  unfold deliverAsync
  cases harguments : arguments env model cred deliveryId payload eventType with
  | error e => simp
  | ok args =>
    obtain ⟨call, entries⟩ := args
    dsimp only
    cases hperform : perform env .aiohttp call entries with
    | error e => simp [hperform]
    | ok request => simp [hperform]

end Sent

/-! ## Writing and reading a form -/

/-- A field has a JSON text. -/
theorem compact_formValue (env : DumpsEnv φ) (depth : ℕ) (values : List UrlText) :
    ∃ t, compact env (depth + 1) (formValue values) = .ok t ∧ IsUnicode t := by
  have hitem : ∀ v : UrlText, IsUnicode (compactStr (v.map ord)) := fun v =>
    isUnicode_compactStr (isUnicode_map_ord v)
  have hitems : ∀ vs : List UrlText,
      compactItems env depth (vs.map fun v => .atom (.str (v.map ord))) =
        .ok (vs.map fun v => compactStr (v.map ord)) := by
    intro vs
    induction vs with
    | nil => rfl
    | cons v vs ih =>
      rw [List.map_cons, compactItems, compact, ih]
      rfl
  unfold formValue
  split
  · exact ⟨_, rfl, hitem _⟩
  · refine ⟨compactBracketed '[' ']' (values.map fun v => compactStr (v.map ord)), ?_, ?_⟩
    · rw [compact, hitems]
      rfl
    · refine isUnicode_compactBracketed _ _ fun p hp => ?_
      obtain ⟨v, -, rfl⟩ := List.mem_map.mp hp
      exact hitem v

/-- A form has a JSON text. -/
theorem exists_jsonBytes_form (env : HttpEnv φ) (form : Dict UrlText (List UrlText)) :
    ∃ body, jsonBytes env (formPayload form) = .ok body := by
  have hentries : ∀ (depth : ℕ) (fields : List (UrlText × List UrlText)),
      ∃ parts, compactEntries env.toDumpsEnv (depth + 1)
        (fields.map fun e => (.str (e.1.map ord), formValue e.2)) = .ok parts ∧
          ∀ p ∈ parts, IsUnicode p := by
    intro depth fields
    induction fields with
    | nil => exact ⟨[], rfl, List.forall_mem_nil _⟩
    | cons e fields ih =>
      obtain ⟨parts, hparts, hunicode⟩ := ih
      obtain ⟨t, ht, htext⟩ := compact_formValue env.toDumpsEnv depth e.2
      refine ⟨(compactStr (e.1.map ord) ++ pyText ":" ++ t) :: parts, ?_, ?_⟩
      · rw [List.map_cons, compactEntries, keyText, ht, hparts]
        rfl
      · have hkey := isUnicode_compactStr (isUnicode_map_ord e.1)
        exact List.forall_mem_cons.mpr ⟨(hkey.append (isUnicode_map_ord _)).append htext, hunicode⟩
  obtain ⟨depth, hdepth⟩ := Nat.exists_eq_add_of_le' env.two_le_maxDepth
  obtain ⟨parts, hparts, hunicode⟩ := hentries depth form.entries
  have htext : compact env.toDumpsEnv env.maxDepth (formPayload form) =
      .ok (compactBracketed '{' '}' parts) := by
    rw [hdepth, formPayload, compact, formEntries, hparts]
    rfl
  obtain ⟨body, hbody⟩ := (isUnicode_compactBracketed '{' '}' hunicode).encode
  exact ⟨body, by rw [jsonBytes, htext]; simp only [hbody]⟩

/-- The body of a form is read as the form. -/
theorem decodeBody_form (env : HttpEnv φ) {request : Request} {form : Dict UrlText (List UrlText)}
    (hform : IsForm form)
    (htype : declaredType request.fields = some "application/x-www-form-urlencoded".toList)
    (hbody : request.body = formBytes form) :
    decodeBody env request = some (formPayload form) := by
  have hne : ¬ some "application/x-www-form-urlencoded".toList =
      some "application/json".toList := by decide
  have htext : formBytes form = encodeUtf8 (String.ofList (urlencode (formPairs form.entries))) :=
    (encodeUtf8_ofList _).symm
  unfold decodeBody
  rw [htype, if_neg hne, if_pos rfl, hbody, htext, decodeUtf8_encodeUtf8]
  show some (formPayload (parseForm (String.ofList _).toList)) = _
  rw [String.toList_ofList, parseForm_urlencode form hform]

/-- A dictionary that is read from a body without braces is a form. -/
theorem form_of_decodeBody {env : HttpEnv φ} {request : Request}
    {entries : List (PyKey φ × PyValue φ)} (hbrace : (123 : UInt8) ∉ request.body)
    (h : decodeBody env request = some (.dict entries)) :
    declaredType request.fields = some "application/x-www-form-urlencoded".toList ∧
      ∃ form, IsForm form ∧ entries = formEntries form := by
  unfold decodeBody at h
  split_ifs at h with hjson htype
  · cases hdecode : decodeUtf8 request.body with
    | error e =>
      rw [decodeStr, hdecode] at h
      cases h
    | ok s =>
      rw [decodeStr, hdecode] at h
      obtain ⟨j, hj, hdict⟩ := Option.map_eq_some_iff.mp h
      cases hloads : loads env.toJsonEnv (pyText s) with
      | error e =>
        rw [hloads] at hj
        cases hj
      | ok j' =>
        rw [hloads] at hj
        cases hj
        cases j with
        | atom a => cases hdict
        | list items => cases hdict
        | dict es =>
          have hmem : '{' ∈ s.toList := ord_mem_pyText.mp (brace_of_loads_dict hloads)
          have hbytes : encodeText s.toList = request.body := by
            rw [← encodeUtf8_of_decodeUtf8 hdecode, encodeUtf8_eq]
            rfl
          exact absurd (hbytes ▸ (brace_mem_encodeText_iff s.toList).mpr hmem) hbrace
  · obtain ⟨s, -, hdict⟩ := Option.map_eq_some_iff.mp h
    cases hdict
    exact ⟨htype, parseForm s.toList, fun e he => values_parseForm he, rfl⟩

/-! ## Signatures -/

theorem expectedSignature_eq (env : HttpEnv φ) (secret : String) (algo algo' : Option Algo)
    (body : Bytes) :
    expectedSignature env secret (algo.getD .sha256) body =
      hmacSignature env secret body algo' := by
  have htext : (algo.getD .sha256).text ++ "=" = "sha256=" := by
    cases algo.getD .sha256
    decide
  unfold expectedSignature hmacSignature
  rw [htext]

theorem hmacSignature_inj {env : HttpEnv φ} {secret : String} {body body' : Bytes}
    {algo algo' : Option Algo}
    (h : hmacSignature env secret body algo = hmacSignature env secret body' algo') :
    env.hexdigest .sha256 (encodeUtf8 secret) body =
      env.hexdigest .sha256 (encodeUtf8 secret) body' :=
  (String.append_right_inj "sha256=").mp h

/-- A signature is not the type of a form. -/
theorem mediaType_hmacSignature_ne (env : HttpEnv φ) (secret : String) (body : Bytes)
    (algo : Option Algo) :
    mediaType (hmacSignature env secret body algo) ≠
      "application/x-www-form-urlencoded".toList := by
  intro h
  obtain ⟨rest, hrest⟩ : ∃ rest, (hmacSignature env secret body algo).toList = 's' :: rest := by
    unfold hmacSignature
    rw [String.toList_append]
    exact ⟨_, rfl⟩
  have hkept : (((hmacSignature env secret body algo).toList.takeWhile (· ≠ ';')).dropWhile
      Char.isWhitespace) = 's' :: rest.takeWhile (· ≠ ';') := by
    rw [hrest, List.takeWhile_cons_of_pos (by decide), List.dropWhile_cons_of_neg (by decide)]
  unfold mediaType at h
  rw [hkept] at h
  have hprefix := List.rdropWhile_prefix Char.isWhitespace (l := 's' :: rest.takeWhile (· ≠ ';'))
  cases hmedia : ('s' :: rest.takeWhile (· ≠ ';')).rdropWhile Char.isWhitespace with
  | nil =>
    rw [hmedia] at h
    exact absurd h (by decide)
  | cons c cs =>
    rw [hmedia] at h hprefix
    obtain ⟨rfl, -⟩ := List.cons_prefix_cons.mp hprefix
    have hhead : some 's' = some 'a' := congrArg List.head? h
    exact absurd hhead (by decide)

/-! ## The deliveries that go as they should -/

section Main

variable {env : HttpEnv φ} {model : HTTPWebhookModel} {cred : Credentials}
  {deliveryId : Option String} {payload : PyValue φ} {eventType : String}

theorem jsonBytes_ok {text : Bytes} (h : jsonBytes env payload = .ok text) :
    ∃ t, compact env.toDumpsEnv env.maxDepth payload = .ok t ∧ t.encode = some text := by
  unfold jsonBytes at h
  cases hcompact : compact env.toDumpsEnv env.maxDepth payload with
  | error e =>
    rw [hcompact] at h
    cases h
  | ok t =>
    rw [hcompact] at h
    dsimp only at h
    cases hencode : t.encode with
    | none =>
      rw [hencode] at h
      cases h
    | some b =>
      rw [hencode] at h
      cases h
      exact ⟨t, rfl, hencode⟩

/-- **What is signed is never what is sent**: the JSON text has a brace, and the body has none. -/
theorem body_ne_jsonBytes {client : Client} {entries : List (PyKey φ × PyValue φ)}
    {text body : Bytes} (htext : jsonBytes env (.dict entries) = .ok text)
    (hbody : env.encodeData client entries = .ok body) : (123 : UInt8) ∉ body ∧ body ≠ text := by
  obtain ⟨t, hcompact, hencode⟩ := jsonBytes_ok htext
  have hnot := env.brace_not_mem_encodeData client entries t body hcompact hbody
  refine ⟨hnot, fun heq => hnot ?_⟩
  obtain ⟨u, hu, rfl⟩ := Option.map_eq_some_iff.mp hencode
  have hbrace : ord '{' ∈ pyText u := pyText_of_text? hu ▸ brace_of_compact_dict hcompact
  have hbytes : encodeUtf8 u = encodeText u.toList := encodeUtf8_eq u
  rw [heq, hbytes]
  exact (brace_mem_encodeText_iff u.toList).mpr (ord_mem_pyText.mp hbrace)

/-- A delivery that goes as it should is one of those. -/
theorem deliverable_of_right
    (h : DeliveryRight env model cred deliveryId payload eventType) :
    Deliverable env model cred deliveryId payload := by
  obtain ⟨request, hsync, hasync, hsignature, hdecode⟩ := h
  obtain ⟨call, entries, harguments, hperform⟩ := request_deliver_iff.mp hsync
  obtain ⟨call', entries', harguments', hperform'⟩ := request_deliverAsync_iff.mp hasync
  obtain ⟨rfl, rfl⟩ : call = call' ∧ entries = entries' := by
    rw [harguments] at harguments'
    cases harguments'
    exact ⟨rfl, rfl⟩
  obtain ⟨hencoding, rfl, own, text, signed, url, hown, htext, hsign, hurl, hcall⟩ :=
    arguments_eq_ok_iff.mp harguments
  obtain ⟨-, hfields, hbody⟩ := perform_ok hperform
  obtain ⟨hauth, hfields', -⟩ := perform_ok hperform'
  subst hcall
  have hentries : request.fields = signed.entries := hfields'
  have hnd : (signed.entries.map fun e => lower e.1).Nodup :=
    (caseInsensitive_eq_iff signed.entries).mp (hfields.symm.trans hentries)
  obtain ⟨htype, form, hform, rfl⟩ := form_of_decodeBody (body_ne_jsonBytes htext hbody).1 hdecode
  have hmedia : ∀ value, signed.get? "Content-Type" = some value →
      mediaType value = "application/x-www-form-urlencoded".toList := by
    intro value hvalue
    rw [hentries, declaredType_entries hnd hvalue] at htype
    exact Option.some.inj htype
  have hsent : request.body = formBytes form := by
    rw [env.encodeData_form .requests form hform] at hbody
    exact (Except.ok.inj hbody).symm
  have hsigns : SignsForm env cred (formPayload form) form := by
    intro config hconfig
    rcases sign_ok hsign with ⟨hnone, -⟩ | ⟨config', secret, hconfig', hsecret, rfl⟩
    · rw [hnone] at hconfig
      cases hconfig
    · obtain rfl : config' = config := Option.some.inj (hconfig'.symm.trans hconfig)
      refine ⟨fun heq => ?_, secret, hsecret, fun body htext' => ?_⟩
      · refine mediaType_hmacSignature_ne env secret text config'.algo (hmedia _ ?_)
        rw [← heq, Dict.get?_set_self]
      · obtain ⟨secret', hsecret', hmem⟩ := hsignature config' hconfig
        obtain rfl : secret = secret' := Option.some.inj (hsecret.symm.trans hsecret')
        obtain rfl : text = body := Except.ok.inj (htext.symm.trans htext')
        rw [hentries, Dict.mem_entries_iff, Dict.get?_set_self, hsent,
          expectedSignature_eq env secret config'.algo none] at hmem
        exact hmacSignature_inj (Option.some.inj hmem)
  have hdeclared := get?_contentType_signed hown hsign fun config hconfig =>
    (hsigns config hconfig).1
  exact {
    encoding := hencoding
    url := hurl ▸ rfl
    auth := by
      cases hfilter : cred.auth.filter (·.entries ≠ []) with
      | none => rfl
      | some auth =>
        rw [hfilter] at hauth
        cases hauth
    headers := hown ▸ rfl
    names := fun a ha b hb => (nodup_lower_iff signed).mp hnd a
      ((mem_keys_signed hown hsign a).mpr ha) b ((mem_keys_signed hown hsign b).mpr hb)
    type := by
      have hvalue := hmedia _ hdeclared
      cases htype : ownType model cred with
      | none =>
        rw [htype] at hvalue
        exact absurd hvalue (by decide)
      | some value =>
        rw [htype] at hvalue
        exact congrArg some hvalue
    form := ⟨form, hform, rfl, hsigns⟩ }

/-- And those go as they should. -/
theorem right_of_deliverable (h : Deliverable env model cred deliveryId payload) :
    DeliveryRight env model cred deliveryId payload eventType := by
  obtain ⟨form, hform, rfl, hsigns⟩ := h.form
  obtain ⟨own, hown⟩ := Option.isSome_iff_exists.mp h.headers
  obtain ⟨url, hurl⟩ := Option.isSome_iff_exists.mp h.url
  obtain ⟨text, htext⟩ := exists_jsonBytes_form env form
  obtain ⟨signed, hsign⟩ : ∃ signed,
      sign env (unsignedHeaders cred deliveryId eventType own) text cred = .ok signed :=
    exists_sign _ text fun config hconfig => (hsigns config hconfig).2.imp fun _ h => h.1
  have harguments := arguments_eq_ok_iff.mpr
    ⟨h.encoding, rfl, own, text, signed, url, hown, htext, hsign, hurl, rfl⟩
  have hnd : (signed.entries.map fun e => lower e.1).Nodup := by
    rw [nodup_lower_iff]
    intro a ha b hb
    exact h.names a ((mem_keys_signed hown hsign a).mp ha) b ((mem_keys_signed hown hsign b).mp hb)
  have hdeclared := get?_contentType_signed hown hsign fun config hconfig =>
    (hsigns config hconfig).1
  have htype : declaredType signed.entries =
      some "application/x-www-form-urlencoded".toList := by
    rw [declaredType_entries hnd hdeclared]
    obtain ⟨value, hvalue, hmedia⟩ := Option.map_eq_some_iff.mp h.type
    rw [hvalue, Option.getD_some, hmedia]
  refine ⟨_, request_deliver_iff.mpr ⟨_, _, harguments, perform_eq ?_
    ((caseInsensitive_eq_iff _).mpr hnd) (env.encodeData_form .requests form hform)⟩,
    request_deliverAsync_iff.mpr ⟨_, _, harguments, perform_eq ?_ rfl
      (env.encodeData_form .aiohttp form hform)⟩, ?_, decodeBody_form env hform htype rfl⟩
  · rw [h.auth]
    rfl
  · rw [h.auth]
    rfl
  · intro config hconfig
    obtain ⟨-, secret, hsecret, hdigest⟩ := hsigns config hconfig
    refine ⟨secret, hsecret, ?_⟩
    rcases sign_ok hsign with ⟨hnone, -⟩ | ⟨config', secret', hconfig', hsecret', rfl⟩
    · rw [hnone] at hconfig
      cases hconfig
    · obtain rfl : config' = config := Option.some.inj (hconfig'.symm.trans hconfig)
      obtain rfl : secret' = secret := Option.some.inj (hsecret'.symm.trans hsecret)
      have hsame : expectedSignature env secret' (config'.algo.getD .sha256) (formBytes form) =
          hmacSignature env secret' text config'.algo := by
        rw [expectedSignature_eq env secret' config'.algo config'.algo]
        unfold hmacSignature
        rw [hdigest text htext]
      refine (Dict.mem_entries_iff _ _ _).mpr ?_
      rw [hsame]
      exact Dict.get?_set_self ..

end Main

/-- The characters of a text. -/
def textOf (s : PyStr) : Except HttpExc UrlText :=
  match s.mapM charOf with
  | some cs => .ok cs
  | none => .error .unicodeEncodeError

/-- A value that is a text. -/
def itemText : PyValue φ → Except HttpExc UrlText
  | .atom (.str v) => textOf v
  | _ => .error .typeError

/-- The texts of a field. -/
def fieldTexts : PyKey φ × PyValue φ → Except HttpExc (UrlText × List UrlText)
  | (.str k, .list items) => do return (← textOf k, ← items.mapM itemText)
  | (.str k, item) => do return (← textOf k, [← itemText item])
  | _ => .error .typeError

theorem textOf_map_ord (cs : List Char) : textOf (cs.map ord) = .ok cs := by
  unfold textOf
  rw [mapM_charOf]

/-- The texts of a field are those it was made of. -/
theorem fieldTexts_formValue (e : UrlText × List UrlText) :
    fieldTexts ((.str (e.1.map ord), formValue e.2) : PyKey φ × PyValue φ) = .ok e := by
  have hitems : ∀ vs : List UrlText,
      (vs.map fun v => (.atom (.str (v.map ord)) : PyValue φ)).mapM itemText =
        (.ok vs : Except HttpExc _) := by
    intro vs
    induction vs with
    | nil => rfl
    | cons v vs ih =>
      rw [List.map_cons, List.mapM_cons, ih, itemText, textOf_map_ord]
      rfl
  obtain ⟨k, vs⟩ := e
  unfold formValue
  split
  · rename_i v hvs
    obtain rfl : vs = [v] := hvs
    rw [fieldTexts, itemText, textOf_map_ord, textOf_map_ord]
    · rfl
    · nofun
  · rw [fieldTexts, textOf_map_ord, hitems]
    rfl

/-- A client that takes texts only. -/
def encodeTexts (entries : List (PyKey φ × PyValue φ)) : Except HttpExc Bytes := do
  let fields ← entries.mapM fieldTexts
  return encodeText (urlencode (formPairs fields))

theorem encodeTexts_form (form : Dict UrlText (List UrlText)) :
    encodeTexts (formEntries form : List (PyKey φ × PyValue φ)) = .ok (formBytes form) := by
  have hfields : ∀ fields : List (UrlText × List UrlText),
      (fields.map fun e => ((.str (e.1.map ord), formValue e.2) : PyKey φ × PyValue φ)).mapM
        fieldTexts = .ok fields := by
    intro fields
    induction fields with
    | nil => rfl
    | cons e fields ih =>
      rw [List.map_cons, List.mapM_cons, fieldTexts_formValue, ih]
      rfl
  unfold encodeTexts formEntries
  rw [hfields]
  rfl

theorem brace_not_mem_encodeTexts {entries : List (PyKey φ × PyValue φ)} {body : Bytes}
    (h : encodeTexts entries = .ok body) : (123 : UInt8) ∉ body := by
  obtain ⟨fields, -, h⟩ := bind_ok h
  cases h
  exact (brace_mem_encodeText_iff _).not.mpr (brace_not_mem_urlencode _)

/-- An interpreter with the digests of two texts under the secret `k`. -/
def textEnv : HttpEnv Unit where
  toDumpsEnv := zeroEnv
  two_le_maxDepth := by decide
  hexdigest := fun _ _ body =>
    if body = encodeUtf8 "a=b" then
      "9055a9e8bdf0e7d125445fcaee1c8922a856d6c0d6a6c33f0c71a6fac8b557d0"
    else "2381a6a342615c16ff856100cb336a8103f7745cda2c47d9e8130b72bcb562d0"
  encodeData := fun _ => encodeTexts
  encodeData_form := fun _ form _ => encodeTexts_form form
  brace_not_mem_encodeData := fun _ _ _ _ _ h => brace_not_mem_encodeTexts h
  answer := fun _ _ => (200, [])

/-- A profile with a secret, and one text to deliver. -/
def signedProfile : Credentials where
  url := some "https://hooks.example/in"
  auth := none
  secretHeaders := none
  signatureConfig := some ⟨some "k", some .sha256, some "X-Signature"⟩

def webhookModel (encoding : BodyEncoding) : HTTPWebhookModel where
  method := .post
  encoding := encoding
  headers := some Dict.empty
  params := some Dict.empty
  sendAndWait := true

end HttpOutbound

end Notifyr
