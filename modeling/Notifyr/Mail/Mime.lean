import Mathlib.Data.List.Infix
import Mathlib.Data.List.Perm.Basic
import Notifyr.Runtime.Effect
import Notifyr.Runtime.Percent
import Notifyr.Theory.Dict

/-!
# Mails that are built and read

`EmailBuilder` and `EmailReader` (`app/classes/email.py`).

- `EmailPackage`: what the two rely on of the package `email`.
- `createForRecipient`: the messages of a mail, one for each recipient.
- `EmailReader`: what is read of a message; `readMail`.
- `MailRight`: what is read is what was given.
- `mailRight_iff`: for which mails this is so.
-/

namespace Notifyr

open Theory

/-- The text of a mail, as its characters. -/
abbrev MailText := List Char

/-- What the builder and the reader rely on of `email`: a header and a body are read back as they
were given, the first one by decoding it. -/
structure EmailPackage where
  encodeHeader : MailText → MailText
  decodeHeader : MailText → MailText
  encodeBody : MailText → Bytes
  decodeBody : Bytes → MailText
  /-- The type of an image, where `MIMEImage` can tell it from the data. -/
  imageSubtype : Bytes → Option MailText
  /-- The header that a disposition and a file name make. -/
  contentDisposition : MailText → MailText → MailText
  formatdate : MailText
  decode_encodeHeader : ∀ s, decodeHeader (encodeHeader s) = s
  encodeHeader_nil : encodeHeader [] = []
  decode_encodeBody : ∀ s, decodeBody (encodeBody s) = s

/-! ## What is built -/

/-- The value that a header is set to. -/
inductive HeaderValue
  | absent
  | text (value : MailText)
  | texts (values : List MailText)

/-- A header that may be `None`. -/
def HeaderValue.ofOption : Option MailText → HeaderValue
  | none => absent
  | some value => text value

/-- `_X_Email_ID` and `_Message_ID`; a function is called once for each message. -/
inductive IdField
  | absent
  | text (value : MailText)
  | texts (values : List MailText)
  | call (makeId : ℕ → MailText)

/-- `id() if callable(id) else id[i]`. -/
def IdField.get : IdField → ℕ → Py MailText
  | absent, _ => .error .typeError
  | text value, i => (value[i]?).elim (.error .indexError) fun c => .ok [c]
  | texts values, i => (values[i]?).elim (.error .indexError) .ok
  | call makeId, i => .ok (makeId i)

/-- `get_value_in_list(id, i)`. -/
def IdField.get? : IdField → ℕ → Option MailText
  | absent, _ => none
  | text value, i => (value[i]?).map fun c => [c]
  | texts values, i => values[i]?
  | call _, _ => none

/-- `EmailMetadata`, as far as the builder reads it. -/
structure EmailMetadata where
  subject : MailText
  fromAddr : MailText
  toAddrs : List MailText
  cc : HeaderValue
  replyTo : Option MailText
  returnPath : Option MailText
  priority : MailText
  dispositionNotificationTo : Option MailText
  returnReceiptTo : Option MailText
  xEmailId : IdField
  messageId : IdField
  contact : Option (List MailText)

/-- `contents`: an html and a plain body for all messages, or for each one its own. -/
inductive MailContents
  | same (html text : Option MailText)
  | each (contents : List (Option MailText × Option MailText))

/-- The bodies of the message at position `i`. -/
def MailContents.get : MailContents → ℕ → Py (Option MailText × Option MailText)
  | same html text, _ => .ok (html, text)
  | each contents, i => (contents[i]?).elim (.error .indexError) .ok

/-- The arguments of `EmailBuilder`. -/
structure MailJob where
  emailMetaData : EmailMetadata
  contents : MailContents
  images : List (MailText × Bytes)
  attachments : List (MailText × Bytes)

/-- A part of a message, without parts of its own; `message` is what was read of it, where it is a
message. -/
structure MimePart (ρ : Type) where
  contentType : MailText
  disposition : Option MailText
  filename : Option MailText
  payload : Bytes
  message : Option ρ

/-- A message that is built: its headers in the order in which they are set, and its parts. -/
structure MimeMessage (ρ : Type) where
  headers : List (MailText × HeaderValue)
  parts : List (MimePart ρ)

/-- A message that was received; `parts` are those of `walk`. -/
structure RawMessage (ρ : Type) where
  headers : List (MailText × MailText)
  isMultipart : Bool
  payload : Bytes
  parts : List (MimePart ρ)

variable {ρ : Type}

/-! ## The builder -/

/-- `getFilenameOnly`. -/
def getFilenameOnly (path : MailText) : MailText :=
  (path.reverse.takeWhile (· ≠ '/')).reverse

/-- A header that is only set where its value is given. -/
def headerIf (name : String) (value : Option MailText) : List (MailText × HeaderValue) :=
  ((given value).map fun v => (name.toList, .text v)).toList

/-- `create_mime`. -/
def createMime (pkg : EmailPackage) (data : EmailMetadata) : List (MailText × HeaderValue) :=
  [("Content-Type".toList, .text "multipart/mixed".toList),
    ("MIME-Version".toList, .text "1.0".toList),
    ("CC".toList, data.cc),
    ("From".toList, .text data.fromAddr),
    ("Subject".toList, .text data.subject),
    ("Date".toList, .text pkg.formatdate),
    ("Reply-To".toList, .ofOption data.replyTo),
    ("Return-Path".toList, .ofOption data.returnPath),
    ("X-Priority".toList, .text data.priority)] ++
    headerIf "Disposition-Notification-To" data.dispositionNotificationTo ++
    headerIf "Return-Receipt-To" data.returnReceiptTo

/-- `attach_image`, with the disposition that is its default. -/
def attachImage (pkg : EmailPackage) (image : MailText × Bytes) : Py (MimePart ρ) :=
  match pkg.imageSubtype image.2 with
  | none => .error .typeError
  | some subtype => .ok {
      contentType := "image/".toList ++ subtype
      disposition := some (pkg.contentDisposition "inline".toList (getFilenameOnly image.1))
      filename := some (getFilenameOnly image.1)
      payload := image.2
      message := none }

/-- `add_attachements`, the second one of the class: for an attachment it calls itself with
arguments that it does not take. -/
def addAttachements (pkg : EmailPackage) (job : MailJob) : Py (List (MimePart ρ)) := do
  let images ← job.images.mapM (attachImage pkg)
  if job.attachments = [] then .ok images else .error .typeError

/-- `EmailBuilder.__init__`: the message that the others are copies of. -/
def emailBuilder (pkg : EmailPackage) (job : MailJob) : Py (MimeMessage ρ) := do
  let parts ← addAttachements pkg job
  pure { headers := createMime pkg job.emailMetaData, parts }

/-- A text part. -/
def mimeText (pkg : EmailPackage) (text : MailText) (contentType : String) : MimePart ρ where
  contentType := contentType.toList
  disposition := none
  filename := none
  payload := pkg.encodeBody text
  message := none

/-- `set_content`: the parts that are attached. -/
def setContent (pkg : EmailPackage) (content : Option MailText × Option MailText) :
    List (MimePart ρ) :=
  ((given content.2).map fun text => mimeText pkg text "text/plain").toList ++
    ((given content.1).map fun html => mimeText pkg html "text/html").toList

/-- The text of a header: a list is not one that the package can write. -/
def headerText (pkg : EmailPackage) : HeaderValue → Py MailText
  | .absent => .ok []
  | .text value => .ok (pkg.encodeHeader value)
  | .texts _ => .error .attributeError

/-- `as_string`, and what comes out of it at the other end; a message without parts gets an empty
one. -/
def asString (pkg : EmailPackage) (message : MimeMessage ρ) : Py (RawMessage ρ) := do
  let headers ← message.headers.mapM fun h => (headerText pkg h.2).map fun value => (h.1, value)
  pure { headers, isMultipart := true, payload := []
         parts := if message.parts = [] then [mimeText pkg [] "text/plain"] else message.parts }

/-- The body of the loop in `create_for_recipient`. -/
def messageFor (pkg : EmailPackage) (job : MailJob) (message : MimeMessage ρ) (i : ℕ) :
    Py (MimeMessage ρ) := do
  let data := job.emailMetaData
  let messageId ← data.messageId.get i
  let content ← job.contents.get i
  pure {
    headers := message.headers ++ [("Message-ID".toList, .text messageId)] ++
      headerIf "X_Email_ID" (data.xEmailId.get? i) ++
      headerIf "X_Contact_ID" (data.contact.bind fun contact => contact[i]?)
    parts := message.parts ++ setContent pkg content }

/-- `create_for_recipient`: the messages, as they are received. -/
def createForRecipient (pkg : EmailPackage) (job : MailJob) : Py (List (RawMessage ρ)) := do
  let message ← emailBuilder pkg job
  (List.range job.emailMetaData.toAddrs.length).mapM fun i => do
    asString pkg (← messageFor pkg job message i)

/-! ## The reader -/

/-- `EmailReader`; `ρ` is what is made of an attached message. -/
structure EmailReader (ρ : Type) where
  subject : Option MailText
  fromAddr : Option MailText
  toAddr : Option MailText
  cc : Option MailText
  date : Option MailText
  isMultipart : Bool
  plainBody : Option MailText := none
  htmlBody : Option MailText := none
  messageRfc882 : Option ρ := none
  attachments : List (MailText × Bytes) := []
  headers : Dict MailText MailText

/-- `str.lower`, for the name of a header. -/
def lowerName (name : MailText) : MailText := name.map Char.toLower

/-- `msg.get(name)`: whatever the case of the letters is, the first one. -/
def RawMessage.get (msg : RawMessage ρ) (name : String) : Option MailText :=
  (msg.headers.find? fun h => lowerName h.1 = lowerName name.toList).map Prod.snd

/-- `decode_header_field`. -/
def decodeHeaderField (pkg : EmailPackage) (field : Option MailText) : Option MailText :=
  (given field).map pkg.decodeHeader

/-- Whether a disposition, or its absence as `str` writes it, speaks of an attachment. -/
def saysAttachment (part : MimePart ρ) : Bool :=
  decide ("attachment".toList <:+: part.disposition.getD "None".toList)

/-- What `parse_body` does with one part. -/
def parsePart (pkg : EmailPackage) (reader : EmailReader ρ) (part : MimePart ρ) : EmailReader ρ :=
  if part.contentType = "text/plain".toList ∧ ¬ saysAttachment part then
    { reader with plainBody := some (pkg.decodeBody part.payload) }
  else if part.contentType = "text/html".toList ∧ ¬ saysAttachment part then
    { reader with htmlBody := some (pkg.decodeBody part.payload) }
  else if part.contentType = "message/rfc822".toList then
    { reader with messageRfc882 := part.message }
  else if saysAttachment part then
    (given part.filename).elim reader fun filename =>
      { reader with attachments := reader.attachments ++ [(filename, part.payload)] }
  else reader

/-- `parse_body`. -/
def parseBody (pkg : EmailPackage) (msg : RawMessage ρ) (reader : EmailReader ρ) : EmailReader ρ :=
  if msg.isMultipart then msg.parts.foldl (parsePart pkg) reader
  else { reader with plainBody := some (pkg.decodeBody msg.payload) }

/-- `parse_email`, which ends with `parse_body`. -/
def parseEmail (pkg : EmailPackage) (msg : RawMessage ρ) : EmailReader ρ :=
  parseBody pkg msg {
    subject := decodeHeaderField pkg (msg.get "Subject")
    fromAddr := msg.get "From"
    toAddr := msg.get "To"
    cc := msg.get "Cc"
    date := msg.get "Date"
    isMultipart := msg.isMultipart
    headers := Dict.ofEntries msg.headers }

/-- `EmailReader.__post_init__`. -/
def readMail (pkg : EmailPackage) (msg : RawMessage ρ) : EmailReader ρ :=
  parseBody pkg msg (parseEmail pkg msg)

/-- `Email_ID`. -/
def EmailReader.emailId (reader : EmailReader ρ) : Option MailText :=
  reader.headers.get? "X-EMAIL-ID".toList

/-- `Message_ID`. -/
def EmailReader.messageId (reader : EmailReader ρ) : Option MailText :=
  reader.headers.get? "MESSAGE-ID".toList

/-! ## What mails are for -/

/-- The message to the recipient at position `i` is read as it was given; a body that is not given
and an empty one are the same. -/
structure MessageRight (job : MailJob) (i : ℕ) (reader : EmailReader ρ) : Prop where
  subject : reader.subject = some job.emailMetaData.subject
  sender : reader.fromAddr = some job.emailMetaData.fromAddr
  bodies : ∃ content, job.contents.get i = .ok content ∧ given reader.htmlBody = given content.1 ∧
    given reader.plainBody = given content.2
  files : reader.attachments.Perm
    (job.images.map (fun image => (getFilenameOnly image.1, image.2)) ++ job.attachments)
  emailId : reader.emailId = given (job.emailMetaData.xEmailId.get? i)
  messageId : ∃ id, job.emailMetaData.messageId.get i = .ok id ∧ reader.messageId = some id

/-- Building ends without an error, and each message is read as it was given. -/
def MailRight (ρ : Type) (pkg : EmailPackage) (job : MailJob) : Prop :=
  ∃ messages : List (RawMessage ρ), createForRecipient pkg job = .ok messages ∧
    ∀ i < job.emailMetaData.toAddrs.length,
      ∃ msg, messages[i]? = some msg ∧ MessageRight job i (readMail pkg msg)

/-- Whether an image can be attached. -/
def Attachable (pkg : EmailPackage) (image : MailText × Bytes) : Prop :=
  (pkg.imageSubtype image.2).isSome = true

/-- A mail without recipients and attachments, whose images can be attached. -/
structure MailGuard (pkg : EmailPackage) (job : MailJob) : Prop where
  noRecipients : job.emailMetaData.toAddrs = []
  noAttachments : job.attachments = []
  images : ∀ image ∈ job.images, Attachable pkg image

/-! ## The headers that are read -/

section Headers

variable {pkg : EmailPackage}

theorem headers_written {hs : List (MailText × HeaderValue)} {out : List (MailText × MailText)}
    (h : (hs.mapM fun e => (headerText pkg e.2).map fun value => (e.1, value)) = .ok out) :
    out.map Prod.fst = hs.map Prod.fst ∧ ∀ test : MailText → Bool,
      (out.find? fun e => test e.1).map Prod.snd =
        (hs.find? fun e => test e.1).bind fun e => (headerText pkg e.2).toOption := by
  induction hs generalizing out with
  | nil =>
    cases h
    exact ⟨rfl, fun _ => rfl⟩
  | cons e hs ih =>
    rw [List.mapM_cons] at h
    obtain ⟨e', he, h⟩ := bind_ok h
    obtain ⟨out', hout, h⟩ := bind_ok h
    cases h
    obtain ⟨hkeys, hfind⟩ := ih hout
    cases hvalue : headerText pkg e.2 with
    | error err =>
      rw [hvalue] at he
      cases he
    | ok value =>
      rw [hvalue] at he
      cases he
      refine ⟨by rw [List.map_cons, List.map_cons, hkeys], fun test => ?_⟩
      rw [List.find?_cons, List.find?_cons]
      dsimp only
      cases test e.1 with
      | true =>
        rw [Option.map_some, Option.bind_some, hvalue]
        rfl
      | false => exact hfind test

theorem keys_headerIf (name : String) (value : Option MailText) :
    ((headerIf name value).map Prod.fst).Sublist [name.toList] := by
  unfold headerIf
  cases given value with
  | none => exact List.nil_sublist _
  | some v => exact List.Sublist.refl _

/-- The names of the headers that are written. -/
def writtenNames : List MailText :=
  ["Content-Type", "MIME-Version", "CC", "From", "Subject", "Date", "Reply-To", "Return-Path",
    "X-Priority", "Disposition-Notification-To", "Return-Receipt-To", "Message-ID", "X_Email_ID",
    "X_Contact_ID"].map String.toList

variable {job : MailJob} {base message : MimeMessage ρ} {raw : RawMessage ρ} {i : ℕ}

/-- What the builder has made of a message. -/
structure Built (pkg : EmailPackage) (job : MailJob) (i : ℕ) (raw : RawMessage ρ) : Prop where
  built : ∃ base message : MimeMessage ρ, emailBuilder pkg job = .ok base ∧
    messageFor pkg job base i = .ok message ∧ asString pkg message = .ok raw

theorem built_of_mem {messages : List (RawMessage ρ)}
    (h : createForRecipient pkg job = .ok messages) {i : ℕ} {raw : RawMessage ρ}
    (hi : messages[i]? = some raw) : Built pkg job i raw := by
  obtain ⟨base, hbase, h⟩ := bind_ok h
  obtain ⟨j, hj, hraw⟩ := getElem?_mapM_ok h hi
  obtain ⟨hlt, hji⟩ := List.getElem?_eq_some_iff.mp hj
  rw [List.getElem_range] at hji
  subst hji
  obtain ⟨message, hmessage, hraw⟩ := bind_ok hraw
  exact ⟨base, message, hbase, hmessage, hraw⟩

theorem emailBuilder_headers (h : emailBuilder pkg job = .ok base) :
    base.headers = createMime pkg job.emailMetaData := by
  obtain ⟨parts, -, hbase⟩ := bind_ok h
  cases hbase
  rfl

/-- The headers of a message, before they are written. -/
theorem messageFor_headers (hbase : emailBuilder pkg job = .ok base)
    (h : messageFor pkg job base i = .ok message) :
    ∃ messageId, job.emailMetaData.messageId.get i = .ok messageId ∧
      message.headers = createMime pkg job.emailMetaData ++
        [("Message-ID".toList, .text messageId)] ++
        headerIf "X_Email_ID" (job.emailMetaData.xEmailId.get? i) ++
        headerIf "X_Contact_ID" (job.emailMetaData.contact.bind fun contact => contact[i]?) := by
  obtain ⟨messageId, hid, h⟩ := bind_ok h
  obtain ⟨content, -, h⟩ := bind_ok h
  cases h
  exact ⟨messageId, hid, by rw [emailBuilder_headers hbase]⟩

theorem Built.keys (h : Built pkg job i raw) :
    (raw.headers.map Prod.fst).Sublist writtenNames := by
  obtain ⟨base, message, hbase, hmessage, hraw⟩ := h.built
  obtain ⟨messageId, -, hheaders⟩ := messageFor_headers hbase hmessage
  obtain ⟨out, hout, hraw⟩ := bind_ok hraw
  cases hraw
  have hnames : (message.headers.map Prod.fst).Sublist writtenNames := by
    rw [hheaders]
    unfold createMime
    simp only [List.map_append]
    exact ((((List.Sublist.refl _).append (keys_headerIf _ _)).append (keys_headerIf _ _)).append
      (List.Sublist.refl _)).append (keys_headerIf _ _) |>.append (keys_headerIf _ _)
  rw [← (headers_written hout).1] at hnames
  exact hnames

theorem get?_eq_none {headers : List (MailText × MailText)} {name : MailText}
    (h : name ∉ headers.map Prod.fst) : (Dict.ofEntries headers).get? name = none := by
  rw [← Dict.not_mem_keys_iff, Dict.mem_keys_ofEntries]
  exact h

/-! ## What is read of a message -/

theorem foldl_parsePart_headers (parts : List (MimePart ρ)) (reader : EmailReader ρ) :
    (parts.foldl (parsePart pkg) reader).subject = reader.subject ∧
      (parts.foldl (parsePart pkg) reader).fromAddr = reader.fromAddr ∧
      (parts.foldl (parsePart pkg) reader).headers = reader.headers := by
  induction parts generalizing reader with
  | nil => exact ⟨rfl, rfl, rfl⟩
  | cons part parts ih =>
    have hone : (parsePart pkg reader part).subject = reader.subject ∧
        (parsePart pkg reader part).fromAddr = reader.fromAddr ∧
        (parsePart pkg reader part).headers = reader.headers := by
      unfold parsePart
      split_ifs
      · exact ⟨rfl, rfl, rfl⟩
      · exact ⟨rfl, rfl, rfl⟩
      · exact ⟨rfl, rfl, rfl⟩
      · cases given part.filename <;> exact ⟨rfl, rfl, rfl⟩
      · exact ⟨rfl, rfl, rfl⟩
    have hrest := ih (parsePart pkg reader part)
    rw [List.foldl_cons, hrest.1, hrest.2.1, hrest.2.2]
    exact hone

/-- The headers of a reader are those of the message. -/
theorem readMail_headers (pkg : EmailPackage) (msg : RawMessage ρ) :
    (readMail pkg msg).subject = decodeHeaderField pkg (msg.get "Subject") ∧
      (readMail pkg msg).fromAddr = msg.get "From" ∧
      (readMail pkg msg).headers = Dict.ofEntries msg.headers := by
  have hbody : ∀ reader : EmailReader ρ, (parseBody pkg msg reader).subject = reader.subject ∧
      (parseBody pkg msg reader).fromAddr = reader.fromAddr ∧
      (parseBody pkg msg reader).headers = reader.headers := by
    intro reader
    unfold parseBody
    split
    · exact foldl_parsePart_headers msg.parts reader
    · exact ⟨rfl, rfl, rfl⟩
  unfold readMail parseEmail
  simp only [hbody, and_self]

/-- The ids are written under other names than those they are looked for under. -/
theorem Built.no_ids (h : Built pkg job i raw) :
    (readMail pkg raw).emailId = none ∧ (readMail pkg raw).messageId = none := by
  have hnot : ∀ name ∉ writtenNames, (readMail pkg raw).headers.get? name = none := by
    intro name hname
    rw [(readMail_headers pkg raw).2.2]
    exact get?_eq_none fun hmem => hname (h.keys.subset hmem)
  exact ⟨hnot _ (by decide), hnot _ (by decide)⟩

theorem Built.get (h : Built pkg job i raw) (name : String) :
    ∃ message : MimeMessage ρ,
      (∃ rest, message.headers = createMime pkg job.emailMetaData ++ rest) ∧ raw.get name =
        (message.headers.find? fun e => lowerName e.1 = lowerName name.toList).bind
          fun e => (headerText pkg e.2).toOption := by
  obtain ⟨base, message, hbase, hmessage, hraw⟩ := h.built
  obtain ⟨messageId, -, hheaders⟩ := messageFor_headers hbase hmessage
  obtain ⟨out, hout, hraw⟩ := bind_ok hraw
  cases hraw
  refine ⟨message, ?_, ?_⟩
  · rw [hheaders]
    simp only [List.append_assoc]
    exact ⟨_, rfl⟩
  · exact (headers_written hout).2 fun key => lowerName key = lowerName name.toList

/-- The subject is read as it was given, an empty one as none. -/
theorem Built.subject (h : Built pkg job i raw) :
    (readMail pkg raw).subject = given (some job.emailMetaData.subject) := by
  obtain ⟨message, ⟨rest, hheaders⟩, hget⟩ := h.get "Subject"
  have hsubject : raw.get "Subject" = some (pkg.encodeHeader job.emailMetaData.subject) := by
    rw [hget, hheaders]
    rfl
  rw [(readMail_headers pkg raw).1, hsubject]
  generalize job.emailMetaData.subject = subject
  unfold decodeHeaderField given
  by_cases hnil : subject = []
  · rw [hnil, pkg.encodeHeader_nil]
    rfl
  · have hwritten : pkg.encodeHeader subject ≠ [] := by
      intro henc
      have hdec := pkg.decode_encodeHeader subject
      rw [henc, ← pkg.encodeHeader_nil, pkg.decode_encodeHeader] at hdec
      exact hnil hdec.symm
    rw [Option.filter_some, Option.filter_some, if_pos (decide_eq_true hwritten),
      if_pos (decide_eq_true hnil), Option.map_some, pkg.decode_encodeHeader]

/-- The sender is read as the package encodes it. -/
theorem Built.sender (h : Built pkg job i raw) :
    (readMail pkg raw).fromAddr = some (pkg.encodeHeader job.emailMetaData.fromAddr) := by
  obtain ⟨message, ⟨rest, hheaders⟩, hget⟩ := h.get "From"
  rw [(readMail_headers pkg raw).2.1, hget, hheaders]
  rfl

/-! ## The parts that are read -/

/-- The files that a reader finds in parts. -/
def filesOf (parts : List (MimePart ρ)) : List (MailText × Bytes) :=
  parts.filterMap fun part =>
    if saysAttachment part then (given part.filename).map fun name => (name, part.payload)
    else none

/-- A part that is made of an image. -/
def IsImage (part : MimePart ρ) : Prop := "image/".toList <+: part.contentType

theorem IsImage.ne {part : MimePart ρ} (h : IsImage part) {contentType : MailText}
    (hother : ¬ "image/".toList <+: contentType) : part.contentType ≠ contentType :=
  fun heq => hother (heq ▸ h)

/-- Images are read as files, or not at all. -/
theorem foldl_images {parts : List (MimePart ρ)} (h : ∀ part ∈ parts, IsImage part)
    (reader : EmailReader ρ) : parts.foldl (parsePart pkg) reader =
      { reader with attachments := reader.attachments ++ filesOf parts } := by
  induction parts generalizing reader with
  | nil =>
    show reader = { reader with attachments := reader.attachments ++ [] }
    rw [List.append_nil]
  | cons part parts ih =>
    have himage := h part List.mem_cons_self
    have hplain : part.contentType ≠ "text/plain".toList := himage.ne (by decide)
    have hhtml : part.contentType ≠ "text/html".toList := himage.ne (by decide)
    have hmessage : part.contentType ≠ "message/rfc822".toList := himage.ne (by decide)
    rw [List.foldl_cons, ih fun p hp => h p (List.mem_cons_of_mem _ hp)]
    unfold parsePart filesOf
    rw [if_neg fun hand => hplain hand.1, if_neg fun hand => hhtml hand.1, if_neg hmessage,
      List.filterMap_cons]
    by_cases hattached : saysAttachment part = true
    · rw [if_pos hattached, if_pos hattached]
      cases given part.filename with
      | none => rfl
      | some name =>
        show { reader with attachments := reader.attachments ++ [(name, part.payload)] ++ _ } = _
        rw [List.append_assoc]
        rfl
    · rw [if_neg hattached, if_neg hattached]

theorem saysAttachment_mimeText (pkg : EmailPackage) (text : MailText) (contentType : String) :
    saysAttachment (mimeText pkg text contentType : MimePart ρ) = false :=
  decide_eq_false (by decide : ¬ "attachment".toList <:+: "None".toList)

theorem parsePart_plain (reader : EmailReader ρ) (text : MailText) :
    parsePart pkg reader (mimeText pkg text "text/plain") =
      { reader with plainBody := some text } := by
  unfold parsePart
  rw [if_pos ⟨rfl, by rw [saysAttachment_mimeText]; decide⟩]
  show { reader with plainBody := some (pkg.decodeBody (pkg.encodeBody text)) } = _
  rw [pkg.decode_encodeBody]

theorem parsePart_html (reader : EmailReader ρ) (html : MailText) :
    parsePart pkg reader (mimeText pkg html "text/html") =
      { reader with htmlBody := some html } := by
  unfold parsePart
  rw [if_neg fun hand => absurd hand.1 (by decide : "text/html".toList ≠ "text/plain".toList),
    if_pos ⟨rfl, by rw [saysAttachment_mimeText]; decide⟩]
  show { reader with htmlBody := some (pkg.decodeBody (pkg.encodeBody html)) } = _
  rw [pkg.decode_encodeBody]

/-- The bodies that are given are read. -/
theorem foldl_setContent (content : Option MailText × Option MailText) (reader : EmailReader ρ) :
    (setContent pkg content).foldl (parsePart pkg) reader =
      { reader with
        plainBody := (given content.2).or reader.plainBody
        htmlBody := (given content.1).or reader.htmlBody } := by
  unfold setContent
  cases given content.2 with
  | none =>
    cases given content.1 with
    | none => rfl
    | some html => exact parsePart_html reader html
  | some text =>
    cases given content.1 with
    | none => exact parsePart_plain reader text
    | some html =>
      show parsePart pkg (parsePart pkg reader (mimeText pkg text "text/plain"))
        (mimeText pkg html "text/html") = _
      rw [parsePart_plain, parsePart_html]
      rfl

theorem setContent_eq_nil {content : Option MailText × Option MailText}
    (h : (setContent pkg content : List (MimePart ρ)) = []) :
    given content.2 = none ∧ given content.1 = none := by
  unfold setContent at h
  cases htext : given content.2 with
  | some text =>
    rw [htext] at h
    cases h
  | none =>
    cases hhtml : given content.1 with
    | some html =>
      rw [htext, hhtml] at h
      cases h
    | none => exact ⟨rfl, rfl⟩

/-- The image files that a reader finds: those whose disposition happens to speak of an
attachment. -/
def imageFiles (pkg : EmailPackage) (job : MailJob) : List (MailText × Bytes) :=
  job.images.filterMap fun image =>
    if "attachment".toList <:+: pkg.contentDisposition "inline".toList (getFilenameOnly image.1)
    then (given (some (getFilenameOnly image.1))).map fun name => (name, image.2)
    else none

theorem images_built {images : List (MailText × Bytes)} {parts : List (MimePart ρ)}
    (h : images.mapM (attachImage pkg) = .ok parts) :
    (∀ part ∈ parts, IsImage part) ∧ filesOf parts = images.filterMap fun image =>
      if "attachment".toList <:+: pkg.contentDisposition "inline".toList (getFilenameOnly image.1)
      then (given (some (getFilenameOnly image.1))).map fun name => (name, image.2)
      else none := by
  induction images generalizing parts with
  | nil =>
    cases h
    exact ⟨by simp, rfl⟩
  | cons image images ih =>
    rw [List.mapM_cons] at h
    obtain ⟨part, hpart, h⟩ := bind_ok h
    obtain ⟨rest, hrest, h⟩ := bind_ok h
    cases h
    obtain ⟨himages, hfiles⟩ := ih hrest
    unfold attachImage at hpart
    cases hsubtype : pkg.imageSubtype image.2 with
    | none =>
      rw [hsubtype] at hpart
      cases hpart
    | some subtype =>
      rw [hsubtype] at hpart
      cases hpart
      refine ⟨List.forall_mem_cons.mpr ⟨List.prefix_append _ _, himages⟩, ?_⟩
      unfold filesOf at hfiles ⊢
      rw [List.filterMap_cons, List.filterMap_cons, hfiles]
      have hattached : (saysAttachment ({
          contentType := "image/".toList ++ subtype
          disposition := some (pkg.contentDisposition "inline".toList (getFilenameOnly image.1))
          filename := some (getFilenameOnly image.1), payload := image.2
          message := none } : MimePart ρ) = true) = ("attachment".toList <:+:
            pkg.contentDisposition "inline".toList (getFilenameOnly image.1)) :=
        decide_eq_true_eq
      simp only [hattached]

/-- What the parts of a message add to a reader that knows its bodies or none. -/
theorem Built.parse (h : Built pkg job i raw) :
    ∃ content, job.contents.get i = .ok content ∧ ∀ reader : EmailReader ρ,
      (given reader.htmlBody = none ∨ given reader.htmlBody = given content.1) →
      (given reader.plainBody = none ∨ given reader.plainBody = given content.2) →
        (parseBody pkg raw reader).attachments = reader.attachments ++ imageFiles pkg job ∧
          given (parseBody pkg raw reader).htmlBody = given content.1 ∧
          given (parseBody pkg raw reader).plainBody = given content.2 := by
  obtain ⟨base, message, hbase, hmessage, hraw⟩ := h.built
  obtain ⟨messageId, -, hmessage⟩ := bind_ok hmessage
  obtain ⟨content, hcontent, hmessage⟩ := bind_ok hmessage
  cases hmessage
  obtain ⟨out, -, hraw⟩ := bind_ok hraw
  cases hraw
  obtain ⟨images, himages, hbase⟩ := bind_ok hbase
  cases hbase
  obtain ⟨parts, hparts, himages⟩ := bind_ok himages
  split at himages
  · cases himages
    obtain ⟨himage, hfiles⟩ := images_built hparts
    refine ⟨content, hcontent, fun reader hhtml hplain => ?_⟩
    have hor : ∀ a b : Option MailText, (given b = none ∨ given b = given a) →
        given ((given a).or b) = given a := by
      intro a b hb
      cases ha : given a with
      | none =>
        rcases hb with hb | hb
        · exact hb
        · rw [ha] at hb
          exact hb
      | some v =>
        have hv := given_given a
        rw [ha] at hv
        exact hv
    unfold parseBody
    rw [if_pos rfl]
    dsimp only
    by_cases hnone : images ++ setContent pkg content = []
    · obtain ⟨hnil, hcontent⟩ := List.append_eq_nil_iff.mp hnone
      obtain ⟨htext, hhtml'⟩ := setContent_eq_nil hcontent
      rw [hnil] at hfiles
      rw [if_pos hnone, List.foldl_cons, List.foldl_nil, parsePart_plain, htext, hhtml']
      rw [hhtml', or_self] at hhtml
      refine ⟨?_, hhtml, rfl⟩
      show reader.attachments = _
      rw [imageFiles, ← hfiles]
      exact (List.append_nil _).symm
    · rw [if_neg hnone, List.foldl_append, foldl_images himage, foldl_setContent]
      exact ⟨congrArg (reader.attachments ++ ·) hfiles, hor _ _ hhtml, hor _ _ hplain⟩
  · cases himages

/-- The bodies are read as they were given, and what is read of the images is read twice. -/
theorem Built.bodies (h : Built pkg job i raw) :
    (∃ content, job.contents.get i = .ok content ∧
      given (readMail pkg raw).htmlBody = given content.1 ∧
      given (readMail pkg raw).plainBody = given content.2) ∧
    (readMail pkg raw).attachments = imageFiles pkg job ++ imageFiles pkg job := by
  obtain ⟨content, hcontent, hparse⟩ := h.parse
  obtain ⟨hfiles, hhtml, hplain⟩ := hparse {
    subject := decodeHeaderField pkg (raw.get "Subject")
    fromAddr := raw.get "From"
    toAddr := raw.get "To"
    cc := raw.get "Cc"
    date := raw.get "Date"
    isMultipart := raw.isMultipart
    headers := Dict.ofEntries raw.headers } (.inl rfl) (.inl rfl)
  obtain ⟨hfiles', hhtml', hplain'⟩ := hparse (parseEmail pkg raw) (.inr hhtml) (.inr hplain)
  refine ⟨⟨content, hcontent, hhtml', hplain'⟩, ?_⟩
  have htwice : (readMail pkg raw).attachments =
      (parseEmail pkg raw).attachments ++ imageFiles pkg job := hfiles'
  have honce : (parseEmail pkg raw).attachments = [] ++ imageFiles pkg job := hfiles
  rw [htwice, honce, List.nil_append]

end Headers

/-! ## When a mail is read as it was given -/

/-- The builder can be made exactly if there are no attachments and it can attach the images. -/
theorem emailBuilder_ok_iff (pkg : EmailPackage) (job : MailJob) :
    (∃ base : MimeMessage ρ, emailBuilder pkg job = .ok base) ↔
      job.attachments = [] ∧ ∀ image ∈ job.images, Attachable pkg image := by
  have himages : (∃ parts : List (MimePart ρ), job.images.mapM (attachImage pkg) = .ok parts) ↔
      ∀ image ∈ job.images, Attachable pkg image := by
    rw [exists_mapM_ok_iff]
    refine forall₂_congr fun image _ => ?_
    unfold attachImage Attachable
    cases pkg.imageSubtype image.2 with
    | none => exact iff_of_false (by rintro ⟨part, hpart⟩; cases hpart) (by simp)
    | some subtype => exact iff_of_true ⟨_, rfl⟩ rfl
  rw [← himages]
  constructor
  · rintro ⟨base, hbase⟩
    obtain ⟨parts, hparts, -⟩ := bind_ok hbase
    obtain ⟨images, himages, hparts⟩ := bind_ok hparts
    split at hparts
    · rename_i hnone
      exact ⟨hnone, images, himages⟩
    · cases hparts
  · rintro ⟨hnone, images, himages⟩
    refine ⟨{ headers := createMime pkg job.emailMetaData, parts := images }, ?_⟩
    unfold emailBuilder addAttachements
    rw [himages, hnone]
    rfl

/-- A mail is read as it was given exactly if there is nobody to read it. -/
theorem mailRight_iff (ρ : Type) (pkg : EmailPackage) (job : MailJob) :
    MailRight ρ pkg job ↔ MailGuard pkg job := by
  constructor
  · rintro ⟨messages, hmessages, hall⟩
    obtain ⟨base, hbase, -⟩ := bind_ok hmessages
    obtain ⟨hnone, himages⟩ := (emailBuilder_ok_iff pkg job).mp ⟨base, hbase⟩
    refine ⟨?_, hnone, himages⟩
    by_contra hto
    obtain ⟨msg, hmsg, hright⟩ := hall 0 (List.length_pos_of_ne_nil hto)
    obtain ⟨id, -, hid⟩ := hright.messageId
    rw [(built_of_mem hmessages hmsg).no_ids.2] at hid
    cases hid
  · rintro ⟨hto, hnone, himages⟩
    obtain ⟨base, hbase⟩ := (emailBuilder_ok_iff (ρ := ρ) pkg job).mpr ⟨hnone, himages⟩
    refine ⟨[], ?_, ?_⟩
    · unfold createForRecipient
      rw [hbase, hto]
      rfl
    · rw [hto]
      intro i hi
      exact absurd hi (Nat.not_lt_zero i)

/-- A package that leaves every header as it is. -/
def plainPackage : EmailPackage where
  encodeHeader s := s
  decodeHeader s := s
  encodeBody s := encodeUtf8 (String.ofList s)
  decodeBody bs := (decodeUtf8 bs).toOption.elim [] String.toList
  imageSubtype _ := none
  contentDisposition disposition name := disposition ++ "; filename=".toList ++ name
  formatdate := "Thu, 01 Jan 2026 00:00:00 +0000".toList
  decode_encodeHeader _ := rfl
  encodeHeader_nil := rfl
  decode_encodeBody s := by
    rw [decodeUtf8_encodeUtf8]
    exact String.toList_ofList

/-- A tracked mail to one recipient, with a text. -/
def plainMail : MailJob where
  emailMetaData := {
    subject := "Hello".toList
    fromAddr := "us@notifyr.example".toList
    toAddrs := ["you@gmail.com".toList]
    cc := .absent
    replyTo := none
    returnPath := none
    priority := "1".toList
    dispositionNotificationTo := none
    returnReceiptTo := none
    xEmailId := .texts ["e1".toList]
    messageId := .texts ["<1.2.e1@notifyr.example>".toList]
    contact := none }
  contents := .each [(none, some "Hi".toList)]
  images := []
  attachments := []

/-- Its ids are not read. -/
theorem ids_unread : ¬ MailRight Unit plainPackage plainMail := by
  rintro ⟨messages, hmessages, hall⟩
  obtain ⟨msg, hmsg, hright⟩ := hall 0 Nat.one_pos
  have hid := hright.emailId
  rw [(built_of_mem hmessages hmsg).no_ids.1] at hid
  revert hid
  decide

end Notifyr
