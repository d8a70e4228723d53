import Notifyr.Runtime.Bytes
import Notifyr.Utils.PathFilter

/-!
# The objects of the asset bucket

`ObjectS3Service` (`app/services/database/object_service.py`) and the routes of
`app/ressources/object_s3_ressource.py` that upload, read, download and modify.

- `Minio`, `TransitEngine`: the client and the vault engine the service is built on.
- `upload`, `readSingle`, `downloadStream`, `modifyObject`: the four routes; `downloadObjects` is
  the loop under a download.
- `AssetRight`: what is uploaded is read back on every path, and stays encrypted.
- `downloadObjects_ok`: a download is one entry under the name of the bucket, so that
  `asset_never_right`; `downloadStream_upload_iff` and `modifyObject_ok` are about the other routes.
-/

namespace Notifyr

open Theory

/-! ## The services behind it -/

/-- `MinioConstant.ASSETS_BUCKET` and `MinioConstant.ENCRYPTED_KEY`. -/
def assetsBucket : String := "assets"
def encryptedKey : String := "encrypted"

/-- The key of the transit engine. -/
def restKey : String := "s3-rest-key"

/-- What the routes of the objects raise. -/
inductive ObjectError
  | objectNotFoundError
  | extensionNotAllowedError
  | assetTypeNotAllowedError
  /-- `minio.error.S3Error`. -/
  | s3Error (code : String)
  /-- An error of the vault. -/
  | vaultError
  | py (e : PyErr)
  deriving DecidableEq, Repr

abbrev ObjectM := Except ObjectError

/-- `minio.datatypes.Object`. -/
structure Object where
  bucketName : String
  objectName : String
  versionId : Option String
  size : ℕ
  /-- The headers of the user; a listing does not ask for them. -/
  metadata : Option (Dict String String)
  isDir : Bool
  isDeleteMarker : Bool

/-- `obj.metadata and obj.metadata.get(MinioConstant.ENCRYPTED_KEY, False)`, as a condition. -/
def Object.encrypted (o : Object) : Bool :=
  match o.metadata.bind (·.get? encryptedKey) with
  | some value => !value.isEmpty
  | none => false

/-- A minio client, on the state `σ` of the server. -/
structure Minio (σ : Type) where
  putObject : σ → (bucket name : String) → (data : Bytes) → (length : ℕ) → (contentType : String) →
    (metadata : Option (Dict String Bool)) → ObjectM σ
  /-- The status and the content. -/
  getObject : σ → (bucket name : String) → (versionId : Option String) → ObjectM (ℕ × Bytes)
  statObject : σ → (bucket name : String) → (versionId : Option String) → ObjectM Object
  listObjects : σ → (bucket namePrefix : String) → (recursive includeVersion : Bool) →
    ObjectM (List Object)
  /-- The latest version is what was put last. -/
  getObject_putObject {s s' bucket name data length contentType metadata} :
    putObject s bucket name data length contentType metadata = .ok s' →
      getObject s' bucket name none = .ok (200, data)
  /-- An object is listed under its own name. -/
  listObjects_putObject {s s' bucket name data length contentType metadata} :
    putObject s bucket name data length contentType metadata = .ok s' →
      ∃ objects, listObjects s' bucket name true false = .ok objects ∧
        ∃ o ∈ objects, o.objectName = name ∧ o.isDir = false ∧ o.isDeleteMarker = false
  /-- What is listed lies in the bucket, and comes without the headers of the user. -/
  mem_listObjects {s bucket namePrefix recursive includeVersion objects} :
    listObjects s bucket namePrefix recursive includeVersion = .ok objects →
      ∀ o ∈ objects, o.bucketName = bucket ∧ o.metadata = none

/-- `transit_engine` of the vault: texts under a named key. -/
structure TransitEngine where
  encrypt : (text key : String) → ObjectM String
  decrypt : (text key : String) → ObjectM String
  decrypt_encrypt {text key cipher} :
    encrypt text key = .ok cipher → decrypt cipher key = .ok text

structure ObjectS3Service (σ : Type) where
  client : Minio σ
  transitEngine : TransitEngine
  /-- `PurePath(path).match(pattern)`. -/
  pathMatch : String → String → Bool

/-- The routes, with the templates of `AssetService` they turn to. -/
structure S3ObjectRessource (σ : Type) extends ObjectS3Service σ where
  /-- The content of the asset a path names. -/
  assetContent : String → ObjectM String
  /-- The constructors of the templates, which check their content. -/
  htmlTemplate : String → ObjectM Unit
  phoneTemplate : String → ObjectM Unit
  smsTemplate : String → ObjectM Unit

/-- `decode()` in a route. -/
def decode (b : Bytes) : ObjectM String := (decodeUtf8 b).mapError .py

theorem decode_eq_ok {b : Bytes} {text : String} (h : decode b = .ok text) :
    decodeUtf8 b = .ok text := by
  unfold decode at h
  cases hb : decodeUtf8 b with
  | error e => rw [hb] at h; cases h
  | ok t => rw [hb] at h; cases h; rfl

/-! ## The service -/

namespace ObjectS3Service

variable {σ : Type} (service : ObjectS3Service σ) (s : σ)

/-- `FileService.file_matching`. -/
def fileMatching (path : String) : Option String → Bool
  | none => true
  | some pattern => pattern.isEmpty || service.pathMatch path pattern

/-- `read_object`, with the content that is read from the response. -/
def readObject (name : String) (versionId : Option String) : ObjectM Bytes := do
  let (status, content) ← service.client.getObject s assetsBucket name versionId
  if status ≠ 200 then throw .objectNotFoundError
  return content

def listObjects (namePrefix : String) (recursive : Bool) (pattern : Option String)
    (includeVersion includeDeleteMarker : Bool) : ObjectM (List Object) := do
  let objects ← service.client.listObjects s assetsBucket namePrefix recursive includeVersion
  return objects.filter fun o => service.fileMatching o.objectName pattern && !o.isDir &&
    (includeDeleteMarker || !o.isDeleteMarker)

/-- `fetch_objects`. -/
def fetchObjects (namePrefix : String) (recursive : Bool) (pattern : Option String)
    (includeVersion : Bool) : ObjectM (List Object) := do
  let objects ← service.listObjects s namePrefix recursive pattern includeVersion false
  if objects.isEmpty then throw .objectNotFoundError
  return objects

def uploadObject (name : String) (data : Bytes) (metadata : Option (Dict String Bool)) :
    ObjectM σ :=
  service.client.putObject s assetsBucket name data data.length "application/octet-stream" metadata

def statObject (name : String) (versionId : Option String) (checkExistence : Bool) :
    ObjectM Object := do
  if checkExistence then
    let _ ← service.readObject s name versionId
  service.client.statObject s assetsBucket name versionId

/-- One turn of the loop of `download_objects`. -/
def downloadObject (downloaded : Dict String Bytes) (obj : Object) :
    ObjectM (Dict String Bytes) := do
  let content ← service.readObject s obj.objectName none
  if obj.encrypted then
    let text ← decode content
    let plain ← service.transitEngine.decrypt text restKey
    return downloaded.set obj.bucketName (encodeUtf8 plain)
  return downloaded.set obj.bucketName content

def downloadObjects (namePrefix : String) (recursive : Bool) (pattern : Option String)
    (objects : Option (List Object)) : ObjectM (Dict String Bytes) := do
  let objects ← match objects with
    | some objects => pure objects
    | none => service.listObjects s namePrefix recursive pattern false false
  if objects.isEmpty then throw .objectNotFoundError
  objects.foldlM (service.downloadObject s) .empty

end ObjectS3Service

/-! ## The routes -/

/-- `PurePath(path).name`. -/
def pathName (path : String) : List Char := (pathComponents '/' path).getLast?.getD []

/-- `PurePath(path).suffix`: the last component from its last dot, where something stands on both
sides of it. -/
def suffix (path : String) : List Char :=
  match (pathName path).reverse.span (· ≠ '.') with
  | (ext, dot :: stem) => if ext = [] ∨ stem = [] then [] else dot :: ext.reverse
  | (_, []) => []

/-- `template.split('/')[0]`. -/
def assetType (template : String) : List Char := (template.toList.splitOn '/').headD []

/-- `Extension.HTML.value`, which has no dot. -/
def htmlExtension : List Char := "html".toList

/-- `UploadFile`. -/
structure UploadFile where
  filename : String
  content : Bytes

/-- `ObjectsSearch`. -/
structure ObjectsSearch where
  recursive : Bool
  pattern : Option String
  versionId : Option String
  assets : Bool
  isFile : Bool

/-- What `upload` is called with: a file or a dictionary with the same keys, or a list of them. -/
inductive UploadArg
  | file (f : UploadFile)
  | dict (f : UploadFile)
  | list (fs : List UploadFile)

/-- `file['content']` and `file['filename']`, or the attributes. -/
def UploadArg.read : UploadArg → ObjectM UploadFile
  | file f => .ok f
  | dict f => .ok f
  | list _ => .error (.py .typeError)

/-- What a download answers: an object as it is stored, or an archive. -/
inductive Download
  | object (content : Bytes)
  | zip (entries : List (String × Bytes))

namespace S3ObjectRessource

variable {σ : Type} (r : S3ObjectRessource σ) (s : σ)

/-- `upload`, which runs after the answer. -/
def upload (file : UploadArg) (encrypt : Bool) : ObjectM σ := do
  let file ← file.read
  if encrypt then
    let text ← decode file.content
    let cipher ← r.transitEngine.encrypt text restKey
    let metadata := Dict.ofEntries [(encryptedKey, true)]
    r.uploadObject s file.filename (encodeUtf8 cipher) (some metadata)
  else
    r.uploadObject s file.filename file.content none

/-- The `read_object` route: the content in Base64. It is never decrypted. -/
def readSingle (template : String) (search : ObjectsSearch) : ObjectM String := do
  let content ←
    if search.assets ∧ suffix template = htmlExtension then
      r.assetContent template
    else do
      let objects ← r.readObject s template search.versionId
      decode objects
  return b64Encode content

/-- `download_stream`, with the name of the attachment. -/
def downloadStream (template : String) (search : ObjectsSearch) : ObjectM (Download × String) := do
  if search.isFile then
    let objects ← r.readObject s template search.versionId
    return (.object objects, template)
  else
    let files ← r.downloadObjects s template search.recursive search.pattern none
    return (.zip files.entries,
      if template.toList.getLast? = some '/' then
        String.ofList template.toList.dropLast ++ ".zip" else template)

/-- The check of the new content in `modify_object`. -/
def checkTemplate (template : String) (content : Bytes) : ObjectM Unit := do
  let assetType := assetType template
  if assetType = "email".toList then
    if suffix template = htmlExtension then r.htmlTemplate (← decode content)
  else if assetType = "phone".toList then r.phoneTemplate (← decode content)
  else if assetType = "sms".toList then r.smsTemplate (← decode content)

/-- `modify_object`, with the task it leaves behind: the store afterwards. The task is given a list
with the file in it, and what it raises is caught. -/
def modifyObject (template : String) (search : ObjectsSearch) (files : List UploadFile) :
    ObjectM σ := do
  let info ← r.statObject s template search.versionId true
  let _encrypted := info.encrypted
  match files with
  | [] => throw (.py .indexError)
  | file :: _ =>
    r.checkTemplate template file.content
    match r.upload s (.list [⟨template, file.content⟩]) false with
    | .ok s' => return s'
    | .error _ => return s

end S3ObjectRessource

/-! ## What is read back -/

namespace ObjectS3Service

variable {σ : Type} {service : ObjectS3Service σ} {s : σ}

/-- A turn of the loop on an object that was listed: it is not decrypted. -/
theorem downloadObject_listed (downloaded : Dict String Bytes) {obj : Object}
    (hmetadata : obj.metadata = none) :
    service.downloadObject s downloaded obj =
      (service.readObject s obj.objectName none).map (downloaded.set obj.bucketName) := by
  have hencrypted : obj.encrypted = false := by rw [Object.encrypted, hmetadata]; rfl
  unfold downloadObject
  rw [hencrypted]
  cases service.readObject s obj.objectName none with
  | error e => rfl
  | ok content => rfl

/-- What the loop leaves: the stored bytes of the last object, under the name of the bucket. -/
theorem foldlM_downloadObject {objects : List Object} {downloaded d : Dict String Bytes}
    {o : Object}
    (hlisted : ∀ obj ∈ o :: objects, obj.bucketName = assetsBucket ∧ obj.metadata = none)
    (h : (o :: objects).foldlM (service.downloadObject s) downloaded = .ok d) :
    ∃ content,
      service.readObject s ((o :: objects).getLast (List.cons_ne_nil _ _)).objectName none
        = .ok content ∧
      d.get? assetsBucket = some content ∧
      ∀ key, key ≠ assetsBucket → d.get? key = downloaded.get? key := by
  induction objects generalizing o downloaded with
  | nil =>
    obtain ⟨d', hd', h⟩ := bind_ok h
    cases h
    rw [downloadObject_listed _ (hlisted o List.mem_cons_self).2] at hd'
    obtain ⟨content, hcontent, rfl⟩ := map_ok hd'
    rw [(hlisted o List.mem_cons_self).1]
    exact ⟨content, hcontent, Dict.get?_set_self _ _ _, fun _ hkey => Dict.get?_set_ne _ _ hkey⟩
  | cons o' objects ih =>
    rw [List.foldlM_cons] at h
    obtain ⟨d', hd', h⟩ := bind_ok h
    rw [downloadObject_listed _ (hlisted o List.mem_cons_self).2] at hd'
    obtain ⟨content, -, rfl⟩ := map_ok hd'
    rw [(hlisted o List.mem_cons_self).1] at h
    obtain ⟨last, hlast, hget, hother⟩ :=
      ih (fun obj hobj => hlisted obj (List.mem_cons_of_mem _ hobj)) h
    refine ⟨last, hlast, hget, fun key hkey => ?_⟩
    rw [hother key hkey, Dict.get?_set_ne _ _ hkey]

theorem mem_listObjects {namePrefix : String} {recursive includeVersion includeDeleteMarker : Bool}
    {pattern : Option String} {objects : List Object}
    (h : service.listObjects s namePrefix recursive pattern includeVersion includeDeleteMarker
      = .ok objects) {o : Object} (ho : o ∈ objects) :
    o.bucketName = assetsBucket ∧ o.metadata = none := by
  obtain ⟨listed, hlisted, h⟩ := bind_ok h
  cases h
  exact service.client.mem_listObjects hlisted o (List.mem_of_mem_filter ho)

/-- A download has one entry, whatever it finds: the name of the bucket with the stored bytes of the
last object. -/
theorem downloadObjects_ok {namePrefix : String} {recursive : Bool} {pattern : Option String}
    {files : Dict String Bytes}
    (h : service.downloadObjects s namePrefix recursive pattern none = .ok files) :
    ∃ objects o content,
      service.listObjects s namePrefix recursive pattern false false = .ok objects ∧
      objects.getLast? = some o ∧ service.readObject s o.objectName none = .ok content ∧
      files.get? assetsBucket = some content ∧ ∀ key ∈ files.keys, key = assetsBucket := by
  obtain ⟨objects, hobjects, h⟩ := bind_ok h
  dsimp only at h
  split at h
  · cases h
  cases objects with
  | nil => contradiction
  | cons o objects =>
    obtain ⟨content, hcontent, hget, hother⟩ :=
      foldlM_downloadObject (fun _ => mem_listObjects hobjects) h
    refine ⟨_, _, content, hobjects, List.getLast?_eq_some_getLast _, hcontent, hget, ?_⟩
    intro key hkey
    by_contra hne
    rw [Dict.mem_keys_iff, hother key hne] at hkey
    obtain ⟨_, hnone⟩ := hkey
    cases hnone

/-- The content of an object that was uploaded. -/
theorem readObject_uploadObject {s' : σ} {name : String} {data : Bytes}
    {metadata : Option (Dict String Bool)}
    (h : service.uploadObject s name data metadata = .ok s') :
    service.readObject s' name none = .ok data := by
  unfold readObject
  rw [service.client.getObject_putObject h]
  rfl

/-- An object that was uploaded is among those a download of its name finds. -/
theorem listObjects_uploadObject {s' : σ} {name : String} {data : Bytes}
    {metadata : Option (Dict String Bool)}
    (h : service.uploadObject s name data metadata = .ok s') :
    ∃ objects, service.listObjects s' name true none false false = .ok objects ∧
      ∃ o ∈ objects, o.objectName = name := by
  obtain ⟨listed, hlisted, o, ho, hname, hdir, hmarker⟩ := service.client.listObjects_putObject h
  refine ⟨_, by rw [listObjects, hlisted]; rfl, o, List.mem_filter.mpr ⟨ho, ?_⟩, hname⟩
  rw [hdir, hmarker]
  rfl

end ObjectS3Service

/-- `AssetType._value2member_map_`: what the names of the routes start with. -/
def allowedAssets : List String := ["images", "pdf", "sms", "phone", "email"]

/-- A name that `ValidFreeInputTemplatePipe` lets through, as are those that are uploaded. -/
structure AssetName where
  text : String
  allowed : ∃ asset ∈ allowedAssets, startsWith text asset = true

theorem AssetName.text_ne (name : AssetName) : name.text ≠ assetsBucket := by
  intro htext
  obtain ⟨asset, hmem, hstart⟩ := name.allowed
  rw [htext, startsWith_iff] at hstart
  revert asset
  decide

namespace S3ObjectRessource

variable {σ : Type} {r : S3ObjectRessource σ} {s s' : σ} {name : String} {content : Bytes}
  {encrypt : Bool}

/-- What an upload leaves in the store. -/
theorem upload_ok (h : r.upload s (.file ⟨name, content⟩) encrypt = .ok s') :
    ∃ data metadata, r.uploadObject s name data metadata = .ok s' ∧
      if encrypt then
        ∃ text cipher, decode content = .ok text ∧
          r.transitEngine.encrypt text restKey = .ok cipher ∧ data = encodeUtf8 cipher
      else data = content := by
  obtain ⟨file, hfile, h⟩ := bind_ok h
  cases hfile
  cases encrypt with
  | false => exact ⟨content, none, h, rfl⟩
  | true =>
    obtain ⟨text, htext, h⟩ := bind_ok h
    obtain ⟨cipher, hcipher, h⟩ := bind_ok h
    exact ⟨_, _, h, text, cipher, htext, hcipher, rfl⟩

/-- Nothing is stored by `modify_object`: its task fails on the list it is given. -/
theorem modifyObject_ok {search : ObjectsSearch} {files : List UploadFile}
    (h : r.modifyObject s name search files = .ok s') : s' = s := by
  obtain ⟨info, -, h⟩ := bind_ok h
  cases files with
  | nil => cases h
  | cons file files =>
    obtain ⟨-, -, h⟩ := bind_ok h
    cases h
    rfl

/-- A download of an object gives what was uploaded if and only if that was not encrypted, or the
vault left it as it was. -/
theorem downloadStream_upload_iff (h : r.upload s (.file ⟨name, content⟩) encrypt = .ok s')
    {search : ObjectsSearch} (hfile : search.isFile = true) (hversion : search.versionId = none) :
    r.downloadStream s' name search = .ok (.object content, name) ↔
      (encrypt = true → ∃ text, decode content = .ok text ∧
        r.transitEngine.encrypt text restKey = .ok text) := by
  obtain ⟨data, metadata, hput, hdata⟩ := upload_ok h
  have hread : r.downloadStream s' name search = .ok (.object data, name) := by
    unfold downloadStream
    rw [if_pos hfile, hversion, ObjectS3Service.readObject_uploadObject hput]
    rfl
  rw [hread]
  cases encrypt with
  | false =>
    have hdata : data = content := hdata
    exact iff_of_true (by rw [hdata]) nofun
  | true =>
    obtain ⟨text, cipher, htext, hcipher, rfl⟩ := hdata
    have hcontent : encodeUtf8 text = content := encodeUtf8_of_decodeUtf8 (decode_eq_ok htext)
    constructor
    · intro heq _
      cases heq
      have hsame : decodeUtf8 (encodeUtf8 text) = decodeUtf8 (encodeUtf8 cipher) :=
        congrArg decodeUtf8 hcontent
      rw [decodeUtf8_encodeUtf8, decodeUtf8_encodeUtf8] at hsame
      cases hsame
      exact ⟨text, htext, hcipher⟩
    · intro hsame
      obtain ⟨text', htext', hsame⟩ := hsame rfl
      rw [htext] at htext'
      cases htext'
      rw [hcipher] at hsame
      cases hsame
      rw [hcontent]

end S3ObjectRessource

/-! ## What the routes should do -/

/-- An object is read back as `content` by both routes that read one; an archive has one entry for
each object that matches, under its own name; and an encrypted object stays so when it is
modified. -/
structure ReadsRight {σ : Type} (r : S3ObjectRessource σ) (s : σ) (name : String)
    (content : Bytes) : Prop where
  single : ∀ search : ObjectsSearch, search.isFile = true → search.versionId = none →
    ∃ text, r.readSingle s name search = .ok text ∧ Base64.decode text.toList = some content
  stream : ∀ search : ObjectsSearch, search.isFile = true → search.versionId = none →
    r.downloadStream s name search = .ok (.object content, name)
  archive : ∀ (namePrefix : String) (search : ObjectsSearch) (objects : List Object),
    search.isFile = false →
    r.listObjects s namePrefix search.recursive search.pattern false false = .ok objects →
    objects ≠ [] →
    ∃ entries attachment, r.downloadStream s namePrefix search = .ok (.zip entries, attachment) ∧
      (entries.map Prod.fst).Perm (objects.map Object.objectName) ∧
      ∀ data, (name, data) ∈ entries → data = content
  modified : ∀ (search : ObjectsSearch) (files : List UploadFile) (s' : σ) (info : Object),
    r.statObject s name none true = .ok info → info.encrypted = true →
    r.modifyObject s name search files = .ok s' →
    ∃ info', r.statObject s' name none true = .ok info' ∧ info'.encrypted = true

/-- Uploading an object and reading it back. -/
def AssetRight {σ : Type} (r : S3ObjectRessource σ) (s : σ) (name : String) (content : Bytes)
    (encrypt : Bool) : Prop :=
  ∃ s', r.upload s (.file ⟨name, content⟩) encrypt = .ok s' ∧ ReadsRight r s' name content

/-- An archive has no entry under another name than the bucket's. -/
theorem S3ObjectRessource.downloadStream_entries {σ : Type} {r : S3ObjectRessource σ} {s : σ}
    {namePrefix attachment : String} {search : ObjectsSearch} {entries : List (String × Bytes)}
    (h : r.downloadStream s namePrefix search = .ok (.zip entries, attachment)) {key : String}
    (hkey : key ∈ entries.map Prod.fst) : key = assetsBucket := by
  unfold downloadStream at h
  split at h
  · obtain ⟨_, -, h⟩ := bind_ok h
    cases h
  · obtain ⟨files, hfiles, h⟩ := bind_ok h
    cases h
    obtain ⟨_, _, _, -, -, -, -, hkeys⟩ := ObjectS3Service.downloadObjects_ok hfiles
    exact hkeys key hkey

/-- An object that is not called like the bucket is in no archive. -/
theorem not_readsRight {σ : Type} {r : S3ObjectRessource σ} {s s' : σ} {name : String}
    {content : Bytes} {encrypt : Bool} (hname : name ≠ assetsBucket)
    (h : r.upload s (.file ⟨name, content⟩) encrypt = .ok s') : ¬ ReadsRight r s' name content := by
  intro hright
  obtain ⟨data, metadata, hput, -⟩ := S3ObjectRessource.upload_ok h
  obtain ⟨objects, hlist, o, ho, honame⟩ := ObjectS3Service.listObjects_uploadObject hput
  obtain ⟨entries, attachment, hentries, hperm, -⟩ :=
    hright.archive name ⟨true, none, none, false, false⟩ objects rfl hlist (List.ne_nil_of_mem ho)
  have hkey : name ∈ entries.map Prod.fst :=
    hperm.mem_iff.mpr (List.mem_map.mpr ⟨o, ho, honame⟩)
  exact hname (S3ObjectRessource.downloadStream_entries hentries hkey)

/-- An object as it is kept: its bucket and name, its bytes and whether it is marked. -/
structure StoredObject where
  bucket : String
  name : String
  data : Bytes
  marked : Bool

/-- What is told of it. -/
def StoredObject.info (o : StoredObject) : Object where
  bucketName := o.bucket
  objectName := o.name
  versionId := none
  size := o.data.length
  metadata := none
  isDir := false
  isDeleteMarker := false

/-- The object of a name. -/
def findStored (s : List StoredObject) (bucket name : String) : ObjectM StoredObject :=
  match s.find? fun o => o.bucket == bucket && o.name == name with
  | some o => .ok o
  | none => .error (.s3Error "NoSuchKey")

theorem findStored_ok {s : List StoredObject} {bucket name : String} {o : StoredObject}
    (h : findStored s bucket name = .ok o) : o.name = name := by
  unfold findStored at h
  split at h
  · cases h
    have hkept := List.find?_some ‹_›
    simp only [Bool.and_eq_true, beq_iff_eq] at hkept
    exact hkept.2
  · cases h

theorem exists_findStored {s : List StoredObject} {o : StoredObject} (ho : o ∈ s) :
    ∃ o', findStored s o.bucket o.name = .ok o' := by
  unfold findStored
  split
  · exact ⟨_, rfl⟩
  · have hnone := List.find?_eq_none.mp ‹_› o ho
    simp at hnone

def memoryMinio : Minio (List StoredObject) where
  putObject s bucket name data _ _ metadata :=
    .ok (⟨bucket, name, data, metadata.isSome⟩ ::
      s.filter fun o => !(o.bucket == bucket && o.name == name))
  getObject s bucket name _ := (findStored s bucket name).map fun o => (200, o.data)
  statObject s bucket name versionId :=
    if versionId.isSome then .error (.s3Error "NoSuchVersion")
    else (findStored s bucket name).map fun o => { o.info with
      metadata := if o.marked then some (Dict.ofEntries [(encryptedKey, "True")]) else none }
  listObjects s bucket namePrefix recursive _ :=
    .ok ((s.filter fun o => o.bucket == bucket && startsWith o.name namePrefix &&
      (recursive || !(o.name.toList.drop namePrefix.toList.length).contains '/')).map
        StoredObject.info)
  getObject_putObject := by
    intro s s' bucket name data length contentType metadata h
    cases h
    simp [findStored, Except.map]
  listObjects_putObject := by
    intro s s' bucket name data length contentType metadata h
    cases h
    refine ⟨_, rfl, StoredObject.info ⟨bucket, name, data, metadata.isSome⟩, ?_, rfl, rfl, rfl⟩
    have hstart : startsWith name name = true := (startsWith_iff _ _).mpr (List.prefix_refl _)
    simp [hstart]
  mem_listObjects := by
    intro s bucket namePrefix recursive includeVersion objects h o ho
    cases h
    obtain ⟨stored, hstored, rfl⟩ := List.mem_map.mp ho
    have hbucket := (List.mem_filter.mp hstored).2
    simp only [Bool.and_eq_true, beq_iff_eq] at hbucket
    exact ⟨hbucket.1.1, rfl⟩

/-- The routes over it, with a vault that marks what it has encrypted. -/
def memoryRessource : S3ObjectRessource (List StoredObject) where
  client := memoryMinio
  transitEngine :=
    { encrypt := fun text _ => .ok ("vault:" ++ text)
      decrypt := fun text _ => .ok (String.ofList (text.toList.drop 6))
      decrypt_encrypt := by
        intro text key cipher h
        cases h
        simp }
  pathMatch _ _ := true
  assetContent _ := .error .objectNotFoundError
  htmlTemplate _ := .ok ()
  phoneTemplate _ := .ok ()
  smsTemplate _ := .ok ()

end Notifyr
