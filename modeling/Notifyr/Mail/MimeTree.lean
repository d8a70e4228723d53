import Notifyr.Mail.Mime

/-!
# Reading trees of parts

`EmailReader` (`app/classes/email.py`) on messages with parts in parts and attached messages.

- `MimeTree`: a message, or a part of one; `walk` visits what is in it, attached messages included.
- `parseWalk`: the loop of `parse_body`; `emailReader` runs it twice, and `emailReader_eq` says
  that it reads attached messages by itself.
- `emailReader_ok_iff`: when nothing is raised, with `emailReader_read` for what is read.
- `EmailRight`: what is read is of the message itself, and the attached message is read alike.
- `emailReader_right_iff`: for which trees this is so.

An attached message is parsed anew from its own text; parsing is taken to give it back.
-/

namespace Notifyr

open Theory

namespace Mime

/-! ## Messages -/

/-- What is known of every part: its headers, and the file name that is read from them. -/
structure MimeNode where
  headers : List (MailText × MailText)
  filename : Option MailText

/-- The content type of a part that has no parts. -/
inductive LeafType
  | plain | html
  | text (subtype : MailText)
  | other (contentType : MailText)
  deriving DecidableEq

/-- A message or a part of one. The third kind has the content type `message/rfc822`, the second
one any other with parts. -/
inductive MimeTree
  | leaf (node : MimeNode) (type : LeafType) (payload : Bytes)
  | multipart (node : MimeNode) (contentType : MailText) (parts : List MimeTree)
  | rfc822 (node : MimeNode) (message : MimeTree)

/-- The policies that messages are parsed with. -/
inductive MimePolicy
  | compat32 | default
  deriving DecidableEq

/-- What the reader relies on: how a subject is decoded, which may raise, and how a body is. -/
structure MimePackage where
  decodeHeader : MimePolicy → MailText → Py MailText
  decodeBody : Bytes → MailText

namespace MimeTree

def node : MimeTree → MimeNode
  | leaf node _ _ | multipart node _ _ | rfc822 node _ => node

/-- `is_multipart()`: the payload is a list. -/
def isMultipart : MimeTree → Bool
  | leaf .. => false
  | multipart .. | rfc822 .. => true

/-- `get_payload(decode=True)`. -/
def payload : MimeTree → Option Bytes
  | leaf _ _ payload => some payload
  | multipart .. | rfc822 .. => none

/-- `get(name)`. -/
def get (t : MimeTree) (name : String) : Option MailText :=
  (t.node.headers.find? fun h => lowerName h.1 = lowerName name.toList).map Prod.snd

/-- `"attachment" in str(part.get("Content-Disposition"))`. -/
def saysAttachment (t : MimeTree) : Bool :=
  decide ("attachment".toList <:+: (t.get "Content-Disposition").getD "None".toList)

mutual

/-- `walk()`. -/
def walk : MimeTree → List MimeTree
  | leaf node type payload => [leaf node type payload]
  | multipart node contentType parts => multipart node contentType parts :: walkAll parts
  | rfc822 node message => rfc822 node message :: walk message

def walkAll : List MimeTree → List MimeTree
  | [] => []
  | t :: ts => walk t ++ walkAll ts

end

-- its equations are derived here, once for all the proofs below
example (node : MimeNode) (type : LeafType) (payload : Bytes) :
    walk (leaf node type payload) = [leaf node type payload] := by
  rw [walk]

/-- The message of an attached message. -/
def message? : MimeTree → Option MimeTree
  | rfc822 _ message => some message
  | leaf .. | multipart .. => none

end MimeTree

/-! ## The reader -/

/-- `EmailReader`. -/
structure EmailReader where
  msg : MimeTree
  subject : Option MailText
  fromAddr : Option MailText
  toAddr : Option MailText
  cc : Option MailText
  date : Option MailText
  isMultipart : Bool
  plainBody : Option MailText := none
  htmlBody : Option MailText := none
  messageRfc882 : Option EmailReader := none
  attachments : List (MailText × Option Bytes) := []
  headers : Dict MailText MailText

/-- `get_payload(decode=True).decode(errors="ignore")`. -/
def decodePayload (pkg : MimePackage) (part : MimeTree) : Py MailText :=
  match part.payload with
  | some payload => .ok (pkg.decodeBody payload)
  | none => .error .attributeError

/-- What `parse_body` does with a part that is not an attached message. -/
def parseContent (pkg : MimePackage) (part : MimeTree) (reader : EmailReader) : Py EmailReader :=
  match part, part.saysAttachment with
  | .leaf _ .plain _, false => do
    let body ← decodePayload pkg part
    return { reader with plainBody := some body }
  | .leaf _ .html _, false => do
    let body ← decodePayload pkg part
    return { reader with htmlBody := some body }
  | _, true =>
    match given part.node.filename with
    | some filename =>
      .ok { reader with attachments := reader.attachments ++ [(filename, part.payload)] }
    | none => .ok reader
  | _, false => .ok reader

/-- `parse_body`, where `loop` is its loop over the parts. -/
def parseBody (pkg : MimePackage) (loop : EmailReader → Py EmailReader) (msg : MimeTree)
    (reader : EmailReader) : Py EmailReader :=
  if reader.isMultipart then loop reader
  else do
    let body ← decodePayload pkg msg
    return { reader with plainBody := some body }

/-- `decode_header_field`. -/
def decodeHeaderField (pkg : MimePackage) (policy : MimePolicy) (field : Option MailText) :
    Py (Option MailText) :=
  match given field with
  | none => .ok none
  | some field => (pkg.decodeHeader policy field).map some

/-- The headers that `parse_email` reads. -/
def readHeaders (msg : MimeTree) (subject : Option MailText) : EmailReader where
  msg := msg
  subject := subject
  fromAddr := msg.get "From"
  toAddr := msg.get "To"
  cc := msg.get "Cc"
  date := msg.get "Date"
  isMultipart := msg.isMultipart
  headers := Dict.ofEntries msg.node.headers

/-- `parse_email`, which ends with `parse_body`. -/
def parseEmail (pkg : MimePackage) (policy : MimePolicy) (loop : EmailReader → Py EmailReader)
    (msg : MimeTree) : Py EmailReader := do
  let subject ← decodeHeaderField pkg policy (msg.get "Subject")
  parseBody pkg loop msg (readHeaders msg subject)

/-- `__post_init__`. -/
def postInit (pkg : MimePackage) (policy : MimePolicy) (loop : EmailReader → Py EmailReader)
    (msg : MimeTree) : Py EmailReader := do
  let reader ← parseEmail pkg policy loop msg
  parseBody pkg loop msg reader

mutual

/-- The loop over `walk()`; at an attached message it makes a reader of that one, and then visits
its parts too. -/
def parseWalk (pkg : MimePackage) : MimeTree → EmailReader → Py EmailReader
  | .leaf node type payload, reader => parseContent pkg (.leaf node type payload) reader
  | .multipart node contentType parts, reader => do
    let reader ← parseContent pkg (.multipart node contentType parts) reader
    parseWalkAll pkg parts reader
  | .rfc822 _ message, reader => do
    let inner ← postInit pkg .default (parseWalk pkg message) message
    parseWalk pkg message { reader with messageRfc882 := some inner }

def parseWalkAll (pkg : MimePackage) : List MimeTree → EmailReader → Py EmailReader
  | [], reader => .ok reader
  | t :: ts, reader => do
    let reader ← parseWalk pkg t reader
    parseWalkAll pkg ts reader

end

/-- `EmailReader(msg)`. -/
def emailReader (pkg : MimePackage) (policy : MimePolicy) (msg : MimeTree) : Py EmailReader :=
  postInit pkg policy (parseWalk pkg msg) msg

/-- What `parse_body` does with a part. -/
def parsePart (pkg : MimePackage) (reader : EmailReader) (part : MimeTree) : Py EmailReader :=
  match part.message? with
  | some original => do
    let inner ← emailReader pkg .default original
    return { reader with messageRfc882 := some inner }
  | none => parseContent pkg part reader

/-! ## What is to be read -/

namespace MimeTree

mutual

/-- The parts of a message itself: an attached message is one, its parts are not. -/
def parts : MimeTree → List MimeTree
  | leaf node type payload => [leaf node type payload]
  | multipart node contentType ts => multipart node contentType ts :: partsAll ts
  | rfc822 node message => [rfc822 node message]

def partsAll : List MimeTree → List MimeTree
  | [] => []
  | t :: ts => parts t ++ partsAll ts

end

/-- A text, but no html, that is no attachment. -/
def isText : MimeTree → Bool
  | leaf node .plain payload => !(leaf node .plain payload).saysAttachment
  | leaf node (.text subtype) payload => !(leaf node (.text subtype) payload).saysAttachment
  | _ => false

/-- The body that a part is as `text/plain`, if it is no attachment. -/
def plain? (pkg : MimePackage) : MimeTree → Option MailText
  | leaf node .plain payload =>
    if (leaf node .plain payload).saysAttachment then none else some (pkg.decodeBody payload)
  | _ => none

/-- The body that a part is as `text/html`, if it is no attachment. -/
def html? (pkg : MimePackage) : MimeTree → Option MailText
  | leaf node .html payload =>
    if (leaf node .html payload).saysAttachment then none else some (pkg.decodeBody payload)
  | _ => none

/-- The attachment that a part is: it has a name, and is no attached message. -/
def attachment? (t : MimeTree) : Option (MailText × Option Bytes) :=
  if t.message?.isNone && t.saysAttachment then
    (given t.node.filename).map fun filename => (filename, t.payload)
  else none

/-- The attached messages of a message itself. -/
def messages (t : MimeTree) : List MimeTree := t.parts.filterMap message?

/-- All the attached messages that a walk visits. -/
def enclosed (t : MimeTree) : List MimeTree := t.walk.filterMap message?

/-- The body is the one of a text of the message itself. -/
def TextOf (pkg : MimePackage) (t : MimeTree) (body : MailText) : Prop :=
  ∃ part ∈ t.parts, part.isText = true ∧ part.payload.map pkg.decodeBody = some body

end MimeTree

/-- What is read of a message, but for what is attached to it. -/
structure ContentRight (pkg : MimePackage) (t : MimeTree) (reader : EmailReader) : Prop where
  msg : reader.msg = t
  attachments : reader.attachments.Perm (t.parts.filterMap MimeTree.attachment?)
  plain : match reader.plainBody with
    | some body => t.TextOf pkg body
    | none => t.parts.filterMap (MimeTree.plain? pkg) = []
  html : match reader.htmlBody with
    | some body => body ∈ t.parts.filterMap (MimeTree.html? pkg)
    | none => t.parts.filterMap (MimeTree.html? pkg) = []

/-- What is read of a message, and by the same rules of one that is attached to it. -/
inductive ReadRight (pkg : MimePackage) : MimeTree → EmailReader → Prop
  | alone {t reader} (content : ContentRight pkg t reader) (none : t.messages = [])
      (message : reader.messageRfc882 = .none) : ReadRight pkg t reader
  | attached {t reader t' reader'} (content : ContentRight pkg t reader)
      (mem : t' ∈ t.messages) (message : reader.messageRfc882 = some reader')
      (right : ReadRight pkg t' reader') : ReadRight pkg t reader

/-- A reader is made of the message, and it has read what it should. -/
def EmailRight (pkg : MimePackage) (policy : MimePolicy) (t : MimeTree) : Prop :=
  ∃ reader, emailReader pkg policy t = .ok reader ∧ ReadRight pkg t reader

/-- The subject of a message can be decoded. -/
def Readable (pkg : MimePackage) (policy : MimePolicy) (t : MimeTree) : Prop :=
  ∀ subject, given (t.get "Subject") = some subject →
    ∃ text, pkg.decodeHeader policy subject = .ok text

/-- A message without parts is a text and no html; among those that a walk through any other one
visits there is no named attachment, and the last bodies are those of its own. -/
def ContentGuard (pkg : MimePackage) (t : MimeTree) : Prop :=
  if t.isMultipart then
    t.walk.filterMap MimeTree.attachment? = [] ∧
    (∀ body, (t.walk.filterMap (MimeTree.plain? pkg)).getLast? = some body → t.TextOf pkg body) ∧
    ∀ body, (t.walk.filterMap (MimeTree.html? pkg)).getLast? = some body →
      body ∈ t.parts.filterMap (MimeTree.html? pkg)
  else t.isText = true

/-- For which messages the reader has read what it should. -/
structure EmailGuard (pkg : MimePackage) (policy : MimePolicy) (t : MimeTree) : Prop where
  readable : Readable pkg policy t
  readables : ∀ t' ∈ t.enclosed, Readable pkg .default t'
  content : ContentGuard pkg t
  message : ∀ t', t.enclosed.getLast? = some t' →
    t' ∈ t.messages ∧ ContentGuard pkg t'

/-! ## Walks -/

namespace MimeTree

@[elab_as_elim]
theorem induct {P : MimeTree → Prop} (leaf : ∀ node type payload, P (leaf node type payload))
    (multipart : ∀ node contentType ts, (∀ t ∈ ts, P t) → P (multipart node contentType ts))
    (rfc822 : ∀ node message, P message → P (rfc822 node message)) : ∀ t, P t
  | .leaf node type payload => leaf node type payload
  | .multipart node contentType ts =>
    multipart node contentType ts fun t _ => induct leaf multipart rfc822 t
  | .rfc822 node message => rfc822 node message (induct leaf multipart rfc822 message)

theorem walkAll_eq (ts : List MimeTree) : walkAll ts = ts.flatMap walk := by
  induction ts with
  | nil => rfl
  | cons t ts ih => rw [walkAll, ih, List.flatMap_cons]

theorem partsAll_eq (ts : List MimeTree) : partsAll ts = ts.flatMap parts := by
  induction ts with
  | nil => rfl
  | cons t ts ih => rw [partsAll, ih, List.flatMap_cons]

/-- What is of the message itself is visited. -/
theorem parts_sublist (t : MimeTree) : t.parts.Sublist t.walk := by
  induction t using induct with
  | leaf node type payload => exact List.Sublist.refl _
  | rfc822 node message ih =>
    rw [parts, walk]
    exact List.singleton_sublist.2 List.mem_cons_self
  | multipart node contentType ts ih =>
    rw [parts, walk, partsAll_eq, walkAll_eq]
    refine List.Sublist.cons_cons _ ?_
    induction ts with
    | nil => exact List.Sublist.refl _
    | cons t ts ih' =>
      rw [List.flatMap_cons, List.flatMap_cons]
      exact (ih t List.mem_cons_self).append (ih' fun t ht => ih t (List.mem_cons_of_mem _ ht))

@[simp] theorem enclosed_leaf (node : MimeNode) (type : LeafType) (payload : Bytes) :
    (leaf node type payload).enclosed = [] := rfl

@[simp] theorem enclosed_multipart (node : MimeNode) (contentType : MailText)
    (ts : List MimeTree) : (multipart node contentType ts).enclosed = ts.flatMap enclosed := by
  show (walk _).filterMap message? = _
  rw [walk, List.filterMap_cons_none rfl, walkAll_eq, List.filterMap_flatMap]
  rfl

@[simp] theorem enclosed_rfc822 (node : MimeNode) (message : MimeTree) :
    (rfc822 node message).enclosed = message :: message.enclosed := by
  show (walk _).filterMap message? = _
  rw [walk]
  exact List.filterMap_cons_some rfl

/-- What is attached below an attached message is below the message it is attached to. -/
theorem enclosed_trans {t t' t'' : MimeTree} (h : t' ∈ t.enclosed) (h' : t'' ∈ t'.enclosed) :
    t'' ∈ t.enclosed := by
  induction t using induct with
  | leaf node type payload => cases h
  | rfc822 node message ih =>
    rw [enclosed_rfc822] at h ⊢
    rcases List.mem_cons.1 h with rfl | h
    · exact List.mem_cons_of_mem _ h'
    · exact List.mem_cons_of_mem _ (ih h)
  | multipart node contentType ts ih =>
    rw [enclosed_multipart, List.mem_flatMap] at h ⊢
    obtain ⟨t, ht, hmem⟩ := h
    exact ⟨t, ht, ih t ht hmem⟩

/-- Nothing is attached to the message that a walk visits last. -/
theorem enclosed_of_getLast? {t t' : MimeTree} (h : t.enclosed.getLast? = some t') :
    t'.enclosed = [] := by
  induction t using induct with
  | leaf node type payload => cases h
  | rfc822 node message ih =>
    rw [enclosed_rfc822, List.getLast?_cons] at h
    cases hlast : message.enclosed.getLast? with
    | none =>
      rw [hlast] at h
      obtain rfl : message = t' := by simpa using h
      exact List.getLast?_eq_none_iff.1 hlast
    | some last =>
      rw [hlast] at h
      obtain rfl : last = t' := by simpa using h
      exact ih hlast
  | multipart node contentType ts ih =>
    rw [enclosed_multipart] at h
    induction ts with
    | nil => cases h
    | cons t ts ih' =>
      rw [List.flatMap_cons, List.getLast?_append] at h
      cases hlast : (ts.flatMap enclosed).getLast? with
      | none =>
        rw [hlast] at h
        exact ih t List.mem_cons_self (by simpa using h)
      | some last =>
        rw [hlast] at h
        exact ih' (fun t ht => ih t (List.mem_cons_of_mem _ ht)) (hlast.trans h)

/-- The size of what is attached is below that of the message. -/
theorem length_walk_lt {t t' : MimeTree} (h : t' ∈ t.enclosed) :
    t'.walk.length < t.walk.length := by
  induction t using induct with
  | leaf node type payload => cases h
  | rfc822 node message ih =>
    rw [enclosed_rfc822] at h
    rw [walk, List.length_cons]
    rcases List.mem_cons.1 h with rfl | h
    · omega
    · exact (ih h).trans (by omega)
  | multipart node contentType ts ih =>
    rw [enclosed_multipart, List.mem_flatMap] at h
    obtain ⟨t, ht, hmem⟩ := h
    have hlength : t.walk.length ≤ (ts.flatMap walk).length :=
      ((List.sublist_flatten_of_mem (List.mem_map_of_mem ht)).length_le)
    have hlt := ih t ht hmem
    rw [walk, walkAll_eq, List.length_cons]
    omega

end MimeTree

/-! ## The loop -/

section Reader

variable {pkg : MimePackage}

/-- A reader with what one part adds to it. -/
def EmailReader.add (reader : EmailReader) (plain html : Option MailText)
    (attachment : Option (MailText × Option Bytes)) : EmailReader :=
  { reader with
    plainBody := plain.or reader.plainBody
    htmlBody := html.or reader.htmlBody
    attachments := reader.attachments ++ attachment.toList }

@[simp] theorem EmailReader.add_none (reader : EmailReader) :
    reader.add none none none = reader := by
  cases reader
  simp [add]

/-- A part that is no attached message is taken for what it is. -/
theorem parseContent_eq {part : MimeTree} (h : part.message? = none) (reader : EmailReader) :
    parseContent pkg part reader =
      .ok (reader.add (part.plain? pkg) (part.html? pkg) part.attachment?) := by
  have hattached (hsaid : part.saysAttachment = true) : (match given part.node.filename with
      | some filename =>
        .ok { reader with attachments := reader.attachments ++ [(filename, part.payload)] }
      | none => .ok reader : Py EmailReader) = .ok (reader.add none none part.attachment?) := by
    unfold MimeTree.attachment?
    rw [h, hsaid]
    cases given part.node.filename with
    | none => simp
    | some filename => simp [EmailReader.add]
  have hnot (hsaid : part.saysAttachment = false) : part.attachment? = none := by
    simp [MimeTree.attachment?, hsaid]
  unfold parseContent
  cases part with
  | leaf node type payload =>
    cases hsaid : (MimeTree.leaf node type payload).saysAttachment with
    | false =>
      rw [hnot hsaid]
      cases type with
      | plain =>
        simp [MimeTree.plain?, MimeTree.html?, hsaid, decodePayload, MimeTree.payload,
          EmailReader.add, bind, Except.bind, pure, Except.pure]
      | html =>
        simp [MimeTree.plain?, MimeTree.html?, hsaid, decodePayload, MimeTree.payload,
          EmailReader.add, bind, Except.bind, pure, Except.pure]
      | text subtype => simp [MimeTree.plain?, MimeTree.html?]
      | other contentType => simp [MimeTree.plain?, MimeTree.html?]
    | true =>
      have hplain : (MimeTree.leaf node type payload).plain? pkg = none := by
        cases type with
        | plain => simp [MimeTree.plain?, hsaid]
        | _ => rfl
      have hhtml : (MimeTree.leaf node type payload).html? pkg = none := by
        cases type with
        | html => simp [MimeTree.html?, hsaid]
        | _ => rfl
      rw [hplain, hhtml, ← hattached hsaid]
      cases type with
      | _ => rfl
  | multipart node contentType ts =>
    cases hsaid : (MimeTree.multipart node contentType ts).saysAttachment with
    | false =>
      rw [hnot hsaid]
      simp [MimeTree.plain?, MimeTree.html?]
    | true => exact hattached hsaid
  | rfc822 node message => cases h

theorem parsePart_none {part : MimeTree} (h : part.message? = none) {reader : EmailReader} :
    parsePart pkg reader part = parseContent pkg part reader := by
  unfold parsePart
  rw [h]

theorem parsePart_some {part original : MimeTree} (h : part.message? = some original)
    {reader : EmailReader} : parsePart pkg reader part = do
      let inner ← emailReader pkg .default original
      return { reader with messageRfc882 := some inner } := by
  unfold parsePart
  rw [h]

/-- The loop visits the parts of a walk one by one. -/
theorem parseWalk_eq (t : MimeTree) (reader : EmailReader) :
    parseWalk pkg t reader = t.walk.foldlM (parsePart pkg) reader := by
  induction t using MimeTree.induct generalizing reader with
  | leaf node type payload => 
    rw [parseWalk, MimeTree.walk, List.foldlM_cons]
    simp [parsePart, MimeTree.message?]
  | multipart node contentType ts ih =>
    have hall (reader : EmailReader) :
        parseWalkAll pkg ts reader = (ts.flatMap MimeTree.walk).foldlM (parsePart pkg) reader := by
      induction ts generalizing reader with
      | nil => rfl
      | cons t ts ih' =>
        rw [parseWalkAll, List.flatMap_cons, List.foldlM_append, ih t List.mem_cons_self]
        exact congrArg _ (funext fun reader => ih' (fun t ht => ih t (List.mem_cons_of_mem _ ht)) _)
    rw [parseWalk, MimeTree.walk, MimeTree.walkAll_eq, List.foldlM_cons]
    exact congrArg _ (funext hall)
  | rfc822 node message ih =>
    rw [parseWalk, MimeTree.walk, List.foldlM_cons]
    simp only [ih, parsePart, MimeTree.message?, emailReader, bind_assoc, pure_bind]

/-- A reader runs the loop over the walk twice. -/
theorem emailReader_eq (policy : MimePolicy) (t : MimeTree) : emailReader pkg policy t =
    postInit pkg policy (fun reader => t.walk.foldlM (parsePart pkg) reader) t :=
  congrArg (postInit pkg policy · t) (funext (parseWalk_eq t))

variable (pkg) in
/-- What the loop has made of a reader. -/
structure Parsed (parts : List MimeTree) (reader reader' : EmailReader) : Prop where
  msg : reader'.msg = reader.msg
  isMultipart : reader'.isMultipart = reader.isMultipart
  attachments : reader'.attachments =
    reader.attachments ++ parts.filterMap MimeTree.attachment?
  plain : reader'.plainBody =
    (parts.filterMap (MimeTree.plain? pkg)).getLast?.or reader.plainBody
  html : reader'.htmlBody = (parts.filterMap (MimeTree.html? pkg)).getLast?.or reader.htmlBody
  message : match (parts.filterMap MimeTree.message?).getLast? with
    | some t => ∃ inner, emailReader pkg .default t = .ok inner ∧
      reader'.messageRfc882 = some inner
    | none => reader'.messageRfc882 = reader.messageRfc882

namespace Parsed

variable {parts parts' : List MimeTree} {reader reader' reader'' : EmailReader}

theorem trans (h : Parsed pkg parts reader reader') (h' : Parsed pkg parts' reader' reader'') :
    Parsed pkg (parts ++ parts') reader reader'' where
  msg := h'.msg.trans h.msg
  isMultipart := h'.isMultipart.trans h.isMultipart
  attachments := by rw [h'.attachments, h.attachments, List.filterMap_append, List.append_assoc]
  plain := by rw [h'.plain, h.plain, List.filterMap_append, List.getLast?_append, Option.or_assoc]
  html := by rw [h'.html, h.html, List.filterMap_append, List.getLast?_append, Option.or_assoc]
  message := by
    have hlast := h.message
    have hlast' := h'.message
    rw [List.filterMap_append, List.getLast?_append]
    cases hmessages : (parts'.filterMap MimeTree.message?).getLast? with
    | some t =>
      rw [hmessages] at hlast'
      exact hlast'
    | none =>
      rw [hmessages] at hlast'
      rw [Option.none_or, hlast']
      exact hlast

theorem part {part : MimeTree} (h : parsePart pkg reader part = .ok reader') :
    Parsed pkg [part] reader reader' := by
  cases hmessage : part.message? with
  | some original =>
    rw [parsePart_some hmessage] at h
    obtain ⟨inner, hinner, h⟩ := bind_ok h
    cases h
    have hplain : part.plain? pkg = none := by
      cases part with
      | rfc822 _ _ => rfl
      | leaf _ _ _ => cases hmessage
      | multipart _ _ _ => cases hmessage
    have hhtml : part.html? pkg = none := by
      cases part with
      | rfc822 _ _ => rfl
      | leaf _ _ _ => cases hmessage
      | multipart _ _ _ => cases hmessage
    have hattachment : part.attachment? = none := by simp [MimeTree.attachment?, hmessage]
    constructor
    · rfl
    · rfl
    · simp [hattachment]
    · simp [hplain]
    · simp [hhtml]
    · simp [hmessage, hinner]
  | none =>
    rw [parsePart_none hmessage, parseContent_eq hmessage] at h
    cases h
    constructor
    · rfl
    · rfl
    · cases hattachment : part.attachment? with
      | none => simp [hattachment, EmailReader.add]
      | some attachment => simp [hattachment, EmailReader.add]
    · cases hplain : part.plain? pkg with
      | none => simp [hplain, EmailReader.add]
      | some body => simp [hplain, EmailReader.add]
    · cases hhtml : part.html? pkg with
      | none => simp [hhtml, EmailReader.add]
      | some body => simp [hhtml, EmailReader.add]
    · simp [hmessage, EmailReader.add]

theorem foldlM (h : parts.foldlM (parsePart pkg) reader = .ok reader') :
    Parsed pkg parts reader reader' := by
  induction parts generalizing reader with
  | nil =>
    cases h
    exact ⟨rfl, rfl, (List.append_nil _).symm, rfl, rfl, rfl⟩
  | cons t ts ih =>
    rw [List.foldlM_cons] at h
    obtain ⟨next, hnext, h⟩ := bind_ok h
    exact (part hnext).trans (ih h)

end Parsed

/-- The loop ends if the attached messages can be read. -/
theorem foldlM_ok_iff (parts : List MimeTree) (reader : EmailReader) :
    (∃ reader', parts.foldlM (parsePart pkg) reader = .ok reader') ↔
      ∀ t ∈ parts.filterMap MimeTree.message?, ∃ inner, emailReader pkg .default t = .ok inner := by
  induction parts generalizing reader with
  | nil => simp [pure, Except.pure]
  | cons part parts ih =>
    rw [List.foldlM_cons]
    cases hmessage : part.message? with
    | none =>
      have hpart : parsePart pkg reader part = _ :=
        (parsePart_none hmessage).trans (parseContent_eq hmessage reader)
      rw [hpart, List.filterMap_cons_none hmessage]
      exact ih _
    | some original =>
      rw [parsePart_some hmessage, List.filterMap_cons_some hmessage, List.forall_mem_cons]
      cases emailReader pkg .default original with
      | error e => simp [bind, Except.bind]
      | ok inner =>
        rw [← ih { reader with messageRfc882 := some inner }]
        simp [bind, Except.bind, pure, Except.pure]

theorem readable_iff (policy : MimePolicy) (t : MimeTree) : Readable pkg policy t ↔
    ∃ subject, decodeHeaderField pkg policy (t.get "Subject") = .ok subject := by
  unfold Readable decodeHeaderField
  cases given (t.get "Subject") with
  | none => simp
  | some field =>
    cases hfield : pkg.decodeHeader policy field with
    | error e => simp [Except.map, hfield]
    | ok text => simp [Except.map, hfield]

/-- A reader of a message without parts. -/
theorem emailReader_leaf {policy : MimePolicy} {node : MimeNode} {type : LeafType}
    {payload : Bytes} {subject : Option MailText}
    (h : decodeHeaderField pkg policy ((MimeTree.leaf node type payload).get "Subject") =
      .ok subject) :
    emailReader pkg policy (.leaf node type payload) =
      .ok { readHeaders (.leaf node type payload) subject with
        plainBody := some (pkg.decodeBody payload) } := by
  rw [emailReader_eq]
  unfold postInit parseEmail
  rw [h]
  rfl

/-- A reader of any other message has gone through its walk twice. -/
theorem emailReader_multipart {policy : MimePolicy} {t : MimeTree} (h : t.isMultipart = true)
    {subject : Option MailText}
    (hsubject : decodeHeaderField pkg policy (t.get "Subject") = .ok subject) :
    emailReader pkg policy t =
      (t.walk ++ t.walk).foldlM (parsePart pkg) (readHeaders t subject) := by
  have hstart : parseBody pkg (fun reader => t.walk.foldlM (parsePart pkg) reader) t
      (readHeaders t subject) = t.walk.foldlM (parsePart pkg) (readHeaders t subject) := if_pos h
  rw [emailReader_eq, List.foldlM_append]
  unfold postInit parseEmail
  rw [hsubject]
  show parseBody pkg (fun reader => t.walk.foldlM (parsePart pkg) reader) t
    (readHeaders t subject) >>= parseBody pkg _ t = _
  rw [hstart]
  cases hread : t.walk.foldlM (parsePart pkg) (readHeaders t subject) with
  | error e => rfl
  | ok reader => exact if_pos ((Parsed.foldlM hread).isMultipart.trans h)

theorem emailReader_step (policy : MimePolicy) (t : MimeTree) :
    (∃ reader, emailReader pkg policy t = .ok reader) ↔ Readable pkg policy t ∧
      ∀ t' ∈ t.enclosed, ∃ inner, emailReader pkg .default t' = .ok inner := by
  rw [readable_iff]
  cases hsubject : decodeHeaderField pkg policy (t.get "Subject") with
  | error e =>
    refine iff_of_false ?_ (by simp)
    rintro ⟨reader, hreader⟩
    obtain ⟨parsed, hparsed, -⟩ := bind_ok hreader
    obtain ⟨subject, hok, -⟩ := bind_ok hparsed
    cases hsubject.symm.trans hok
  | ok subject =>
    cases hmultipart : t.isMultipart with
    | true =>
      rw [emailReader_multipart hmultipart hsubject, foldlM_ok_iff, List.filterMap_append]
      simp [MimeTree.enclosed]
    | false =>
      cases t with
      | leaf node type payload => simp [emailReader_leaf hsubject]
      | multipart node contentType ts => cases hmultipart
      | rfc822 node message => cases hmultipart

/-- A reader can be made if the subject can be decoded, here and in each attached message. -/
theorem emailReader_ok_iff (policy : MimePolicy) (t : MimeTree) :
    (∃ reader, emailReader pkg policy t = .ok reader) ↔
      Readable pkg policy t ∧ ∀ t' ∈ t.enclosed, Readable pkg .default t' := by
  induction hlength : t.walk.length using Nat.strong_induction_on generalizing policy t with
  | _ n ih =>
    subst hlength
    rw [emailReader_step]
    refine and_congr_right fun _ => ⟨fun hall t' ht' => ?_, fun hall t' ht' => ?_⟩
    · exact ((ih _ (MimeTree.length_walk_lt ht') .default t' rfl).1 (hall t' ht')).1
    · exact (ih _ (MimeTree.length_walk_lt ht') .default t' rfl).2
        ⟨hall t' ht', fun t'' ht'' => hall t'' (MimeTree.enclosed_trans ht' ht'')⟩

theorem getLast?_append_self {α : Type} (l : List α) : (l ++ l).getLast? = l.getLast? := by
  rw [List.getLast?_append, Option.or_self]

/-- What was read of a message with parts. -/
theorem parsed_of_emailReader {policy : MimePolicy} {t : MimeTree} (h : t.isMultipart = true)
    {reader : EmailReader} (hread : emailReader pkg policy t = .ok reader) :
    ∃ subject, Parsed pkg (t.walk ++ t.walk) (readHeaders t subject) reader := by
  obtain ⟨subject, hsubject⟩ := (readable_iff policy t).1
    ((emailReader_ok_iff policy t).1 ⟨reader, hread⟩).1
  rw [emailReader_multipart h hsubject] at hread
  exact ⟨subject, Parsed.foldlM hread⟩

/-- What was read of a message without parts. -/
theorem read_of_leaf {policy : MimePolicy} {node : MimeNode} {type : LeafType} {payload : Bytes}
    {reader : EmailReader}
    (hread : emailReader pkg policy (.leaf node type payload) = .ok reader) :
    ∃ subject, reader = { readHeaders (.leaf node type payload) subject with
      plainBody := some (pkg.decodeBody payload) } := by
  obtain ⟨subject, hsubject⟩ := (readable_iff policy _).1
    ((emailReader_ok_iff policy _).1 ⟨reader, hread⟩).1
  rw [emailReader_leaf hsubject] at hread
  exact ⟨subject, (Except.ok.inj hread).symm⟩

/-- The attachments of a walk, listed twice, are those of the message only where there are none. -/
theorem attachments_perm_iff (t : MimeTree) :
    (t.walk.filterMap MimeTree.attachment? ++ t.walk.filterMap MimeTree.attachment?).Perm
      (t.parts.filterMap MimeTree.attachment?) ↔ t.walk.filterMap MimeTree.attachment? = [] := by
  have hsublist := t.parts_sublist.filterMap MimeTree.attachment?
  constructor
  · intro hperm
    have hlength := hperm.length_eq
    have hle := hsublist.length_le
    rw [List.length_append] at hlength
    exact List.eq_nil_of_length_eq_zero (by omega)
  · intro hnil
    rw [hnil] at hsublist ⊢
    rw [List.sublist_nil.1 hsublist]
    rfl

theorem contentRight_iff_of_multipart {policy : MimePolicy} {t : MimeTree}
    (h : t.isMultipart = true) {reader : EmailReader}
    (hread : emailReader pkg policy t = .ok reader) :
    ContentRight pkg t reader ↔ ContentGuard pkg t := by
  obtain ⟨subject, hparsed⟩ := parsed_of_emailReader h hread
  have hattachments := hparsed.attachments
  have hplain := hparsed.plain
  have hhtml := hparsed.html
  rw [List.filterMap_append] at hattachments
  rw [List.filterMap_append, getLast?_append_self] at hplain hhtml
  unfold ContentGuard
  rw [if_pos h, ← attachments_perm_iff]
  constructor
  · intro hright
    refine ⟨?_, fun body hbody => ?_, fun body hbody => ?_⟩
    · have hperm := hright.attachments
      rw [hattachments] at hperm
      exact hperm
    · have hright' := hright.plain
      rw [hplain, hbody] at hright'
      exact hright'
    · have hright' := hright.html
      rw [hhtml, hbody] at hright'
      exact hright'
  · rintro ⟨hperm, htext, hhtml'⟩
    refine ⟨hparsed.msg, ?_, ?_, ?_⟩
    · rw [hattachments]
      exact hperm
    · rw [hplain]
      cases hlast : (t.walk.filterMap (MimeTree.plain? pkg)).getLast? with
      | some body => exact htext body hlast
      | none =>
        have hsublist := t.parts_sublist.filterMap (MimeTree.plain? pkg)
        rw [List.getLast?_eq_none_iff.1 hlast] at hsublist
        exact List.sublist_nil.1 hsublist
    · rw [hhtml]
      cases hlast : (t.walk.filterMap (MimeTree.html? pkg)).getLast? with
      | some body => exact hhtml' body hlast
      | none =>
        have hsublist := t.parts_sublist.filterMap (MimeTree.html? pkg)
        rw [List.getLast?_eq_none_iff.1 hlast] at hsublist
        exact List.sublist_nil.1 hsublist

theorem contentRight_iff_of_leaf {policy : MimePolicy} {node : MimeNode} {type : LeafType}
    {payload : Bytes} {reader : EmailReader}
    (hread : emailReader pkg policy (.leaf node type payload) = .ok reader) :
    ContentRight pkg (.leaf node type payload) reader ↔
      (MimeTree.leaf node type payload).isText = true := by
  obtain ⟨subject, rfl⟩ := read_of_leaf hread
  constructor
  · intro hright
    obtain ⟨part, hpart, htext, -⟩ := hright.plain
    rw [← List.mem_singleton.1 hpart]
    exact htext
  · intro htext
    have hsaid : (MimeTree.leaf node type payload).saysAttachment = false := by
      cases type with
      | plain => simpa [MimeTree.isText] using htext
      | text subtype => simpa [MimeTree.isText] using htext
      | html => cases htext
      | other contentType => cases htext
    have hhtml : (MimeTree.leaf node type payload).html? pkg = none := by
      cases type with
      | html => cases htext
      | _ => rfl
    refine ⟨rfl, ?_, ⟨_, List.mem_singleton_self _, htext, rfl⟩, ?_⟩
    · have hattachment : (MimeTree.leaf node type payload).attachment? = none := by
        simp [MimeTree.attachment?, hsaid]
      show List.Perm [] (List.filterMap _ [MimeTree.leaf node type payload])
      rw [List.filterMap_cons_none hattachment]
      rfl
    · show List.filterMap _ [MimeTree.leaf node type payload] = []
      rw [List.filterMap_cons_none hhtml]
      rfl

theorem contentRight_iff {policy : MimePolicy} {t : MimeTree} {reader : EmailReader}
    (hread : emailReader pkg policy t = .ok reader) :
    ContentRight pkg t reader ↔ ContentGuard pkg t := by
  cases t with
  | leaf node type payload => exact contentRight_iff_of_leaf hread
  | multipart node contentType ts => exact contentRight_iff_of_multipart rfl hread
  | rfc822 node message => exact contentRight_iff_of_multipart rfl hread

/-- The reader of the last attached message is the one that is kept. -/
theorem message_of_emailReader {policy : MimePolicy} {t : MimeTree} {reader : EmailReader}
    (hread : emailReader pkg policy t = .ok reader) :
    match t.enclosed.getLast? with
    | some t' => ∃ inner, emailReader pkg .default t' = .ok inner ∧
      reader.messageRfc882 = some inner
    | none => reader.messageRfc882 = none := by
  cases hmultipart : t.isMultipart with
  | true =>
    obtain ⟨subject, hparsed⟩ := parsed_of_emailReader hmultipart hread
    have hmessage := hparsed.message
    rw [List.filterMap_append, getLast?_append_self] at hmessage
    exact hmessage
  | false =>
    cases t with
    | leaf node type payload =>
      obtain ⟨subject, rfl⟩ := read_of_leaf hread
      rfl
    | multipart node contentType ts => cases hmultipart
    | rfc822 node message => cases hmultipart

theorem messages_sublist (t : MimeTree) : t.messages.Sublist t.enclosed :=
  t.parts_sublist.filterMap MimeTree.message?

theorem msg_of_emailReader {policy : MimePolicy} {t : MimeTree} {reader : EmailReader}
    (hread : emailReader pkg policy t = .ok reader) : reader.msg = t := by
  cases hmultipart : t.isMultipart with
  | true =>
    obtain ⟨subject, hparsed⟩ := parsed_of_emailReader hmultipart hread
    exact hparsed.msg
  | false =>
    cases t with
    | leaf node type payload =>
      obtain ⟨subject, rfl⟩ := read_of_leaf hread
      rfl
    | multipart node contentType ts => cases hmultipart
    | rfc822 node message => cases hmultipart

theorem ReadRight.content {t : MimeTree} {reader : EmailReader} :
    ReadRight pkg t reader → ContentRight pkg t reader
  | .alone content _ _ => content
  | .attached content _ _ _ => content

/-- Where nothing is attached. -/
theorem readRight_iff_of_nil {policy : MimePolicy} {t : MimeTree} (h : t.enclosed = [])
    {reader : EmailReader} (hread : emailReader pkg policy t = .ok reader) :
    ReadRight pkg t reader ↔ ContentGuard pkg t := by
  have hmessages : t.messages = [] := by
    have hsublist := messages_sublist t
    rw [h] at hsublist
    exact List.sublist_nil.1 hsublist
  have hmessage := message_of_emailReader hread
  rw [h] at hmessage
  rw [← contentRight_iff hread]
  exact ⟨ReadRight.content, fun hcontent => .alone hcontent hmessages hmessage⟩

/-- Where the last attached message is read. -/
theorem readRight_iff_of_getLast? {policy : MimePolicy} {t t' : MimeTree}
    (h : t.enclosed.getLast? = some t') {reader : EmailReader}
    (hread : emailReader pkg policy t = .ok reader) :
    ReadRight pkg t reader ↔ ContentGuard pkg t ∧ t' ∈ t.messages ∧ ContentGuard pkg t' := by
  have hmessage := message_of_emailReader hread
  rw [h] at hmessage
  obtain ⟨inner, hinner, hkept⟩ := hmessage
  rw [← contentRight_iff hread,
    ← readRight_iff_of_nil (MimeTree.enclosed_of_getLast? h) hinner]
  constructor
  · rintro (⟨hcontent, -, hnone⟩ | ⟨hcontent, hmem, hsome, hright⟩)
    · cases hkept.symm.trans hnone
    · obtain rfl := Option.some.inj (hkept.symm.trans hsome)
      obtain rfl := hright.content.msg.symm.trans (msg_of_emailReader hinner)
      exact ⟨hcontent, hmem, hright⟩
  · exact fun ⟨hcontent, hmem, hright⟩ => .attached hcontent hmem hkept hright

/-- **A message is read as it should** exactly if its subject and those of all the messages in it
can be decoded, no part in it is a named attachment, the last bodies in it are of itself, and the
last message in it is attached to itself and is read as it should. -/
theorem emailReader_right_iff (pkg : MimePackage) (policy : MimePolicy) (t : MimeTree) :
    EmailRight pkg policy t ↔ EmailGuard pkg policy t := by
  constructor
  · rintro ⟨reader, hread, hright⟩
    obtain ⟨hreadable, hreadables⟩ := (emailReader_ok_iff policy t).1 ⟨reader, hread⟩
    refine ⟨hreadable, hreadables, (contentRight_iff hread).1 hright.content, fun t' h => ?_⟩
    exact ((readRight_iff_of_getLast? h hread).1 hright).2
  · intro hguard
    obtain ⟨reader, hread⟩ :=
      (emailReader_ok_iff policy t).2 ⟨hguard.readable, hguard.readables⟩
    refine ⟨reader, hread, ?_⟩
    cases hlast : t.enclosed.getLast? with
    | none =>
      exact (readRight_iff_of_nil (List.getLast?_eq_none_iff.1 hlast) hread).2 hguard.content
    | some t' =>
      exact (readRight_iff_of_getLast? hlast hread).2 ⟨hguard.content, hguard.message t' hlast⟩

end Reader

/-- A package that decodes nothing. -/
def asciiPackage : MimePackage where
  decodeHeader := fun _ text => .ok text
  decodeBody := fun bytes => bytes.map fun b => Char.ofNat b.toNat

/-- A named attachment. -/
def attachedFile : MimeTree :=
  .leaf ⟨[("Content-Disposition".toList, "attachment; filename=a".toList)], some "a".toList⟩
    (.other "image/png".toList) [1]

/-- A text with another message attached to it. -/
def forwarded : MimeTree :=
  .multipart ⟨[], none⟩ "multipart/mixed".toList
    [.leaf ⟨[], none⟩ .plain [1], .rfc822 ⟨[], none⟩ (.leaf ⟨[], none⟩ .plain [2])]

/-- An attachment is listed twice, the body of an attached message replaces that of the message,
and a message that is html is read as plain. -/
theorem not_emailRight_examples :
    ¬ EmailRight asciiPackage .compat32
      (.multipart ⟨[], none⟩ "multipart/mixed".toList [attachedFile]) ∧
    ¬ EmailRight asciiPackage .compat32 forwarded ∧
    ¬ EmailRight asciiPackage .compat32 (.leaf ⟨[], none⟩ .html [1]) := by
  refine ⟨?_, ?_, ?_⟩
  · rintro ⟨reader, hread, hright⟩
    have hguard := (contentRight_iff hread).1 hright.content
    exact absurd hguard.1 (by decide)
  · rintro ⟨reader, hread, hright⟩
    have hguard := (contentRight_iff hread).1 hright.content
    obtain ⟨part, hpart, htext, hbody⟩ := hguard.2.1 [Char.ofNat 2] (by decide)
    have hnone : ∀ part ∈ forwarded.parts, part.isText = true →
        part.payload.map asciiPackage.decodeBody ≠ some [Char.ofNat 2] := by decide
    exact hnone part hpart htext hbody
  · rintro ⟨reader, hread, hright⟩
    cases (contentRight_iff_of_leaf hread).1 hright.content

end Mime

end Notifyr
