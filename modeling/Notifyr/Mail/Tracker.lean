import Mathlib.Data.List.Forall2
import Notifyr.Mail.Replies
import Notifyr.Services.LinkService

/-!
# Tracked mails

`EmailTracker` (`app/depends/class_dep.py`) and the two routes that send a tracked mail
(`app/ressources/ntfr/email_ressource.py`), with `HTMLTemplate.build` (`app/classes/template.py`).
All of it for a request that asks for tracking.

- `trackOne`, `trackEach`: one turn of the generator and of the loop of a route, and all turns.
- `trackContent`, `runContents`: a content and a request; a content that raises is the last.
- `templateBuild`, `customBuild`: what the two routes make of the body of a message.
- `ContentRight`: an error and nothing sent, or bodies, ids and rows that belong together.
- `trackedRight_iff`: for which requests every content is right.
-/

namespace Notifyr

namespace Tracked

open Theory

/-! ## The tracker -/

/-- What the tracker draws for one recipient. -/
structure Draw where
  emailId : TrackerId
  eventId : String
  timeval : ℕ
  randval : ℕ

/-- The server, its table of providers, what is drawn for each content and recipient, the return
addresses of the mail service, and where the callback of a link lies in memory. -/
structure Env where
  link : TrackEnv
  domainName : MailText
  providerMap : Dict MailText MailText
  lower : MailText → MailText
  draw : ℕ → ℕ → Draw
  dispositionNotificationTo : Option MailText
  returnReceiptTo : Option MailText
  address : TrackerId

/-- What ends a request. -/
inductive RouteError
  | python (e : PyErr)
  | templateInjectError
  | templateBuildError
  deriving DecidableEq

/-- `content.meta`, with the contacts that its addresses are of, if they are known. -/
structure EmailMeta where
  data : EmailMetadata
  asIndividual : Bool
  contact : List TrackerId

/-- A content; `δ` is what its bodies are made of. -/
structure Content (δ : Type) where
  emailMeta : EmailMeta
  index : ℕ
  data : δ

/-- A row of the tracking table, as it is streamed. -/
structure TrackingRow where
  recipient : MailText
  subject : MailText
  emailId : MailText
  contactId : Option MailText
  messageId : MailText
  espProvider : MailText
  spamDetectionConfidence : ℕ
  spamLabel : String
  emailCurrentStatus : String

/-- An entry of `scheduler._errors`. -/
structure ContentError where
  message : String
  key : List MailText
  index : ℕ

/-- A part of a body: text, a link that is tracked, or the pixel. -/
inductive Part
  | text (s : MailText)
  | link (url : UrlText)
  | pixel (url : UrlText)

/-- What a part is written as. -/
def Part.render : Part → MailText
  | text s => s
  | link url => url
  | pixel url => "<img src=\"".toList ++ url ++
      "\" width=\"1\" height=\"1\" style=\"display:none;\" alt=\"\">".toList

/-- A text in parts. -/
def renderParts (parts : List Part) : MailText := parts.flatMap Part.render

/-- The html and the text of a message. -/
structure Body where
  html : Option (List Part)
  text : Option (List Part)

/-- The two texts. -/
def Body.texts (body : Body) : Option MailText × Option MailText :=
  (body.html.map renderParts, body.text.map renderParts)

/-- All parts. -/
def Body.parts (body : Body) : List Part := body.html.getD [] ++ body.text.getD []

/-- Images and attachments. -/
structure Files where
  images : List (MailText × Bytes)
  attachments : List (MailText × Bytes)

/-- What a content hands over to be sent. -/
structure Sent where
  index : ℕ
  weight : ℕ
  bodies : List Body
  emailMetaData : EmailMetadata
  files : Files

/-- The arguments of `EmailBuilder`. -/
def Sent.job (sent : Sent) : MailJob where
  emailMetaData := sent.emailMetaData
  contents := .each (sent.bodies.map Body.texts)
  images := sent.files.images
  attachments := sent.files.attachments

/-- The variables of the generator and of the loop of a route, and what was streamed. -/
structure Run (δ : Type) where
  messageIds : List MailText := []
  emailIds : List MailText := []
  rows : List TrackingRow := []
  events : List TrackingEmailEvent := []
  bodies : List Body := []
  data : δ

/-- What became of a content. -/
structure ContentRun where
  rows : List TrackingRow
  events : List TrackingEmailEvent
  error : Option ContentError
  sent : Option Sent
  raised : Option RouteError

/-- `pipe_to`: whether the recipients can be tracked, and who they are then. -/
def pipeTo (m : EmailMeta) : Bool × List MailText :=
  if m.asIndividual then (true, m.data.toAddrs)
  -- `None` is yielded, and the generator goes on with all recipients
  else if 1 < m.data.toAddrs.length then (false, m.data.toAddrs)
  else (true, [[','].intercalate m.data.toAddrs])

section Request

variable {δ : Type} (env : Env)

/-- `get_email_provider_name`. -/
def Env.provider (email : MailText) : MailText :=
  getEmailProviderName env.providerMap env.lower (some email)

/-- `_get_esp`. -/
def Env.esp (email : MailText) : Option MailText :=
  if env.provider email = "Untracked Provider".toList then none else some (env.provider email)

/-- `make_msgid` for the email of a draw. -/
def Env.messageId (d : Draw) : MailText :=
  makeMsgid d.timeval d.randval (some d.emailId.text) env.domainName

/-- `get_value_in_list(contact_ids, i)`. -/
def contactId (m : EmailMeta) (i : ℕ) : Option MailText := (m.contact[i]?).map TrackerId.text

/-- The tracking row of `_create_tracking_event_data`. -/
def trackingRow (m : EmailMeta) (d : Draw) (i : ℕ) (recipient : MailText) : TrackingRow where
  recipient := recipient
  subject := m.data.subject
  emailId := d.emailId.text
  contactId := contactId m i
  messageId := env.messageId d
  espProvider := env.provider recipient
  spamDetectionConfidence := 100
  spamLabel := "no-spam"
  emailCurrentStatus := "RECEIVED"

/-- Its event. -/
def trackingEvent (d : Draw) (recipient : MailText) : TrackingEmailEvent where
  eventId := d.eventId
  emailId := d.emailId.text
  currentEvent := "RECEIVED"
  espProvider := env.provider recipient
  description := "Notifyr server received the request"

/-- The ids that the links of a message are tracked with. -/
def linkIds (m : EmailMeta) (d : Draw) (i : ℕ) (addr : MailText) : TrackIds where
  messageId := d.emailId.text
  contactId := contactId m i
  esp := env.esp addr

/-- The ids of `create_tracking_pixel`, which is called without a provider. -/
def pixelIds (m : EmailMeta) (d : Draw) (i : ℕ) : TrackIds where
  messageId := d.emailId.text
  contactId := contactId m i
  esp := none

/-- How a route makes a body: from its data, the ids of the links and the URL of the pixel. -/
abbrev Build (δ : Type) := δ → TrackIds → UrlText → Except RouteError (Body × δ)

variable (build : Build δ) (m : EmailMeta) (draw : ℕ → Draw) (shift : ℕ)

/-- One turn, for the recipient at position `i` of the generator: the loop of the route counts from
the first thing that was yielded, and looks in the list of recipients there. -/
def trackOne (i : ℕ) (recipient : MailText) (run : Run δ) : Run δ × Option RouteError :=
  let d := draw i
  let run := { run with
    messageIds := run.messageIds ++ [env.messageId d]
    emailIds := run.emailIds ++ [d.emailId.text] }
  match m.data.toAddrs[i + shift]? with
  -- the ids are in their lists by now, and the row is not streamed
  | none => (run, some (.python .indexError))
  | some addr =>
    let run := { run with
      rows := run.rows ++ [trackingRow env m d i recipient]
      events := run.events ++ [trackingEvent env d recipient] }
    match build run.data (linkIds env m d i addr)
        (createTrackingPixel env.link (pixelIds m d i)) with
    | .error e => (run, some e)
    | .ok (body, data) => ({ run with bodies := run.bodies ++ [body], data := data }, none)

/-- All turns, up to one that raises. -/
def trackEach : ℕ → List MailText → Run δ → Run δ × Option RouteError
  | _, [], run => (run, none)
  | i, recipient :: rest, run =>
    match trackOne env build m draw shift i recipient run with
    | (run, some e) => (run, some e)
    | (run, none) => trackEach (i + 1) rest run

/-- What is written to `scheduler._errors` where the generator yields `None`. -/
def cannotTrack (c : Content δ) : ContentError where
  message := "Cant track more than one email when it is set as individual at the moment"
  key := c.emailMeta.data.toAddrs
  index := c.index

/-- A content of a request: after `None` the generator goes on. -/
def trackContent (build : Build δ) (files : δ → Files) (draw : ℕ → Draw) (c : Content δ) :
    ContentRun :=
  let piped := pipeTo c.emailMeta
  let (run, raised) := trackEach env build c.emailMeta draw (if piped.1 then 0 else 1) 0 piped.2
    { data := c.data }
  { rows := run.rows
    events := run.events
    error := if piped.1 then none else some (cannotTrack c)
    sent := match raised with
      | some _ => none
      | none => some {
          index := c.index
          weight := c.emailMeta.data.toAddrs.length
          bodies := run.bodies
          emailMetaData := { c.emailMeta.data with
            toAddrs := piped.2
            messageId := .texts run.messageIds
            xEmailId := .texts run.emailIds
            dispositionNotificationTo :=
              if piped.2 = [] then none else env.dispositionNotificationTo
            returnReceiptTo := if piped.2 = [] then none else env.returnReceiptTo }
          files := files c.data }
    raised := raised }

/-- The contents of a request from position `k` on. -/
def runContents (build : Build δ) (files : δ → Files) : ℕ → List (Content δ) → List ContentRun
  | _, [] => []
  | k, c :: rest =>
    let run := trackContent env build files (env.draw k) c
    match run.raised with
    | some _ => [run]
    | none => run :: runContents build files (k + 1) rest

end Request

/-! ## The bodies of a template -/

/-- `MimeType`. -/
inductive MimeType
  | both
  | html
  | plain
  | none
  deriving DecidableEq

/-- What a template renders: its text, a URL given to the filter `sub_url`, the code of the pixel
and the code of the signature. -/
inductive Segment
  | text (s : MailText)
  | subUrl (url : UrlText)
  | trackingPixel
  | signature

/-- A template: what is rendered with given data, `none` where that raises, and the text of a page,
`none` for one without a title. -/
structure HTMLTemplate (ν : Type) where
  inject : Dict String ν → Option (List Segment)
  exportText : MailText → Option MailText
  ofText : MailText → ν
  images : List (MailText × Bytes)

/-- The data of a content of a template. -/
structure TemplateData (ν : Type) where
  data : Dict String ν
  mimeType : MimeType

/-- The function that `create_link_re` returns, as a template writes it. -/
def Env.callbackText (env : Env) : MailText :=
  "<function LinkService.create_link_re.<locals>.callback at 0x".toList ++ env.address.text ++ ['>']

/-- The filter `sub_url` gives the callback itself, not what it makes of the URL. -/
def Env.segment (env : Env) (signature : Option (MailText × MailText)) (trackingUrl : UrlText) :
    Segment → Part
  | .text s => .text s
  | .subUrl _ => .link env.callbackText
  | .trackingPixel => .pixel trackingUrl
  | .signature => .text ((signature.map fun s =>
      "<div>".toList ++ s.2 ++ "</div>".toList).getD [])

/-- The keys of `HTMLTemplateConstant.values`. -/
def reservedKeys : List String := ["_tracking_url", "_signature"]

/-- The data that `build` injects, which is the dictionary of the content itself. -/
def HTMLTemplate.fill {ν : Type} (t : HTMLTemplate ν) (signature : Option (MailText × MailText))
    (trackingUrl : UrlText) (data : Dict String ν) : Dict String ν :=
  let data := data.set "_tracking_url" (t.ofText trackingUrl)
  match signature with
  | none => data
  | some s => data.set "_signature" (t.ofText s.2)

/-- `parse_mime_content`. -/
def parseMimeContent (html text : List Part) : MimeType → Body
  | .both => ⟨some html, some text⟩
  | .html => ⟨some html, none⟩
  | .plain => ⟨none, some text⟩
  | .none => ⟨none, none⟩

/-- `HTMLTemplate.build` and `parse_mime_content`. -/
def templateBuild {ν : Type} (env : Env) (t : HTMLTemplate ν)
    (signature : Option (MailText × MailText)) : Build (TemplateData ν) :=
  fun content _ trackingUrl =>
    if ∃ key ∈ reservedKeys, key ∈ content.data.keys then .error .templateInjectError
    else
      match t.inject (t.fill signature trackingUrl content.data) with
      | none => .error .templateBuildError
      | some segments =>
        let html := segments.map (env.segment signature trackingUrl)
        match t.exportText (renderParts html) with
        | none => .error .templateBuildError
        | some text => .ok (parseMimeContent html [.text text] content.mimeType,
            { content with data := t.fill signature trackingUrl content.data })

/-- `send_emailTemplate`. -/
def sendEmailTemplate {ν : Type} (env : Env) (t : HTMLTemplate ν)
    (signature : Option (MailText × MailText)) (contents : List (Content (TemplateData ν))) :
    List ContentRun :=
  runContents env (templateBuild env t signature) (fun _ => ⟨t.images, []⟩) 0 contents

/-! ## The bodies of a custom mail -/

/-- A custom mail. -/
structure CustomData where
  htmlContent : Option MailText
  textContent : Option MailText
  files : Files

/-- The part that a piece of a text is. -/
def Part.ofPiece : Piece → Part
  | .char c => .text [c]
  | .url url => .link url

/-- The parts of a text whose URLs are links. -/
def partsOf (s : MailText) : List Part := (pieces s).map Part.ofPiece

/-- The text with the signature below it. -/
def signText (signature : Option (MailText × MailText)) (text : Option MailText) :
    Except RouteError (Option MailText) :=
  match signature with
  | none => .ok text
  | some s =>
    match text with
    | none => .error (.python .typeError)
    | some t => .ok (some (t ++ "\n\n\n\n".toList ++ s.2))

/-- An error of Python in a route. -/
def ofPy {α : Type} : Py α → Except RouteError α
  | .ok a => .ok a
  | .error e => .error (.python e)

/-- The body of the loop in `send_customEmail`: the texts with their links replaced are made, and
then the texts are taken as they are. -/
def customBuild (env : Env) (signature : Option (MailText × MailText)) : Build CustomData :=
  fun content ids _ => do
    let _ ← ofPy (createLinkRe env.link ids content.htmlContent)
    let _ ← ofPy (createLinkRe env.link ids content.textContent)
    -- the texts of the content, where those made above are meant
    let text ← signText signature content.textContent
    .ok (⟨content.htmlContent.map partsOf, text.map partsOf⟩, content)

/-- `send_customEmail`. -/
def sendCustomEmail (env : Env) (signature : Option (MailText × MailText))
    (contents : List (Content CustomData)) : List ContentRun :=
  runContents env (customBuild env signature) CustomData.files 0 contents

/-! ## What a tracked mail is to be -/

/-- A URL names an email: its visit is reported under that id. -/
def Names (emailId : MailText) (url : UrlText) : Prop :=
  (LinkRequest.ofUrl url).get "message_id" = some emailId

/-- The tracked links and the pixel of a body name the email. -/
def Carries (emailId : MailText) (body : Body) : Prop :=
  ∀ url, (.link url ∈ body.parts ∨ .pixel url ∈ body.parts) → Names emailId url

/-- The message at position `i` is of one piece: the body, the two ids, the row and the event. -/
structure MessageRight (env : Env) (run : ContentRun) (sent : Sent) (i : ℕ) (recipient : MailText)
    (body : Body) (emailId messageId : MailText) (row : TrackingRow) (event : TrackingEmailEvent) :
    Prop where
  bodyAt : sent.bodies[i]? = some body
  contentAt : sent.job.contents.get i = .ok body.texts
  messageIdAt : sent.emailMetaData.messageId.get i = .ok messageId
  emailIdAt : sent.emailMetaData.xEmailId.get? i = some emailId
  carries : Carries emailId body
  embeds : ∃ timeval randval, messageId = makeMsgid timeval randval (some emailId) env.domainName
  rowAt : run.rows[i]? = some row
  rowNames : row.recipient = recipient ∧ row.emailId = emailId ∧ row.messageId = messageId
  eventAt : run.events[i]? = some event
  eventNames : event.emailId = emailId ∧ event.espProvider = env.provider recipient

/-- One body, one `Message-ID` and one `X_Email_ID` for each message to send, and one row and event,
by position. -/
structure Aligned (env : Env) (run : ContentRun) (sent : Sent) : Prop where
  bodies : sent.bodies.length = sent.emailMetaData.toAddrs.length
  messageIds : ∃ ids, sent.emailMetaData.messageId = .texts ids ∧
    ids.length = sent.emailMetaData.toAddrs.length
  emailIds : ∃ ids, sent.emailMetaData.xEmailId = .texts ids ∧
    ids.length = sent.emailMetaData.toAddrs.length
  rows : run.rows.length = sent.emailMetaData.toAddrs.length
  events : run.events.length = sent.emailMetaData.toAddrs.length
  each : ∀ i recipient, sent.emailMetaData.toAddrs[i]? = some recipient →
    ∃ body emailId messageId row event,
      MessageRight env run sent i recipient body emailId messageId row event

/-- A content has an error and nothing is sent for it, or all that is sent belongs together. -/
def ContentRight (env : Env) (run : ContentRun) : Prop :=
  (run.error.isSome ∧ run.sent = none) ∨ ∃ sent, run.sent = some sent ∧ Aligned env run sent

/-- Every content of a request. -/
def RequestRight {δ : Type} (env : Env) (contents : List (Content δ)) (runs : List ContentRun) :
    Prop :=
  List.Forall₂ (fun _ run => ContentRight env run) contents runs

/-! ## A loop that does not stop -/

section Loop

variable {δ : Type} (env : Env) (build : Build δ) (m : EmailMeta) (draw : ℕ → Draw) (shift : ℕ)

/-- The bodies of the recipients from position `i` on, and the data after them. -/
def Rendered : ℕ → List MailText → δ → List Body → δ → Prop
  | _, [], data, bodies, data' => bodies = [] ∧ data' = data
  | i, _ :: rest, data, bodies, data' =>
    ∃ addr body next others, m.data.toAddrs[i + shift]? = some addr ∧
      build data (linkIds env m (draw i) i addr)
        (createTrackingPixel env.link (pixelIds m (draw i) i)) = .ok (body, next) ∧
      bodies = body :: others ∧ Rendered (i + 1) rest next others data'

/-- What a loop leaves behind that goes through all recipients. -/
def Run.after (run : Run δ) (i : ℕ) (recipients : List MailText) (bodies : List Body) (data : δ) :
    Run δ where
  messageIds := run.messageIds ++ (recipients.zipIdx i).map fun r => env.messageId (draw r.2)
  emailIds := run.emailIds ++ (recipients.zipIdx i).map fun r => (draw r.2).emailId.text
  rows := run.rows ++ (recipients.zipIdx i).map fun r => trackingRow env m (draw r.2) r.2 r.1
  events := run.events ++ (recipients.zipIdx i).map fun r => trackingEvent env (draw r.2) r.1
  bodies := run.bodies ++ bodies
  data := data

variable {env build m draw shift}

/-- A turn that does not raise. -/
theorem trackOne_ok {i : ℕ} {recipient : MailText} {run run' : Run δ}
    (h : trackOne env build m draw shift i recipient run = (run', none)) :
    ∃ addr body data, m.data.toAddrs[i + shift]? = some addr ∧
      build run.data (linkIds env m (draw i) i addr)
        (createTrackingPixel env.link (pixelIds m (draw i) i)) = .ok (body, data) ∧
      run' = run.after env m draw i [recipient] [body] data := by
  unfold trackOne at h
  dsimp only at h
  cases haddr : m.data.toAddrs[i + shift]? with
  | none =>
    rw [haddr] at h
    cases h
  | some addr =>
    rw [haddr] at h
    dsimp only at h
    cases hbuild : build run.data (linkIds env m (draw i) i addr)
        (createTrackingPixel env.link (pixelIds m (draw i) i)) with
    | error e =>
      rw [hbuild] at h
      cases h
    | ok made =>
      obtain ⟨body, data⟩ := made
      rw [hbuild] at h
      cases h
      exact ⟨addr, body, data, rfl, hbuild, rfl⟩

theorem trackOne_of_built {i : ℕ} {recipient addr : MailText} {run : Run δ} {body : Body} {data : δ}
    (haddr : m.data.toAddrs[i + shift]? = some addr)
    (hbuild : build run.data (linkIds env m (draw i) i addr)
      (createTrackingPixel env.link (pixelIds m (draw i) i)) = .ok (body, data)) :
    trackOne env build m draw shift i recipient run =
      (run.after env m draw i [recipient] [body] data, none) := by
  unfold trackOne
  dsimp only
  rw [haddr]
  dsimp only
  rw [hbuild]
  rfl

theorem Run.after_after (run : Run δ) (i : ℕ) (recipient : MailText) (rest : List MailText)
    (body : Body) (others : List Body) (next data : δ) :
    (run.after env m draw i [recipient] [body] next).after env m draw (i + 1) rest others data =
      run.after env m draw i (recipient :: rest) (body :: others) data := by
  simp [Run.after, List.zipIdx_cons]

/-- The loop goes through exactly if every body is made. -/
theorem trackEach_ok_iff {i : ℕ} {recipients : List MailText} {run run' : Run δ} :
    trackEach env build m draw shift i recipients run = (run', none) ↔
      ∃ bodies data, Rendered env build m draw shift i recipients run.data bodies data ∧
        run' = run.after env m draw i recipients bodies data := by
  -- each turn adds one entry to every list, at the position of its recipient
  induction recipients generalizing i run run' with
  | nil =>
    constructor
    · intro h
      obtain rfl : run = run' := (Prod.mk.inj h).1
      exact ⟨[], run.data, ⟨rfl, rfl⟩, by simp [Run.after]⟩
    · rintro ⟨bodies, data, ⟨rfl, rfl⟩, rfl⟩
      simp [trackEach, Run.after]
  | cons recipient rest ih =>
    constructor
    · intro h
      unfold trackEach at h
      cases hone : trackOne env build m draw shift i recipient run with
      | mk mid raised =>
        rw [hone] at h
        cases raised with
        | some e => cases h
        | none =>
          obtain ⟨addr, body, next, haddr, hbuild, rfl⟩ := trackOne_ok hone
          obtain ⟨others, data, hrest, rfl⟩ := ih.mp h
          exact ⟨body :: others, data, ⟨addr, body, next, others, haddr, hbuild, rfl, hrest⟩,
            Run.after_after run i recipient rest body others next data⟩
    · rintro ⟨bodies, data, ⟨addr, body, next, others, haddr, hbuild, rfl, hrest⟩, rfl⟩
      unfold trackEach
      rw [trackOne_of_built haddr hbuild,
        ← Run.after_after run i recipient rest body others next data]
      exact ih.mpr ⟨others, data, hrest, rfl⟩

/-- The loop looks up every position it comes to. -/
theorem Rendered.lookup {i : ℕ} {recipients : List MailText} {data data' : δ} {bodies : List Body}
    (h : Rendered env build m draw shift i recipients data bodies data') :
    ∀ j < recipients.length, i + j + shift < m.data.toAddrs.length := by
  induction recipients generalizing i data bodies with
  | nil =>
    intro j hj
    cases hj
  | cons recipient rest ih =>
    obtain ⟨addr, body, next, others, haddr, -, -, hrest⟩ := h
    intro j hj
    cases j with
    | zero =>
      obtain ⟨hlt, -⟩ := List.getElem?_eq_some_iff.mp haddr
      exact hlt
    | succ j =>
      have hlt := ih hrest j (Nat.lt_of_succ_lt_succ hj)
      omega

theorem Rendered.length {i : ℕ} {recipients : List MailText} {data data' : δ} {bodies : List Body}
    (h : Rendered env build m draw shift i recipients data bodies data') :
    bodies.length = recipients.length := by
  induction recipients generalizing i data bodies with
  | nil =>
    obtain ⟨rfl, -⟩ := h
    rfl
  | cons recipient rest ih =>
    obtain ⟨addr, body, next, others, -, -, rfl, hrest⟩ := h
    rw [List.length_cons, List.length_cons, ih hrest]

end Loop

/-! ## A content and a request -/

/-- Several recipients of one grouped mail. -/
def GroupedMany (m : EmailMeta) : Prop := m.asIndividual = false ∧ 1 < m.data.toAddrs.length

section Contents

variable {δ : Type} (env : Env) (build : Build δ) (files : δ → Files)

/-- Every body of a content is made, and names its email. -/
def ContentFits (draw : ℕ → Draw) (c : Content δ) : Prop :=
  ¬ GroupedMany c.emailMeta ∧ ∃ bodies data,
    Rendered env build c.emailMeta draw 0 0 (pipeTo c.emailMeta).2 c.data bodies data ∧
      ∀ i body, bodies[i]? = some body → Carries (draw i).emailId.text body

/-- The contents from position `k` on: only the last may be of several recipients that are
grouped, for it ends the request. -/
def Fits : ℕ → List (Content δ) → Prop
  | _, [] => True
  | k, c :: rest =>
    (GroupedMany c.emailMeta ∧ rest = []) ∨
      (ContentFits env build (env.draw k) c ∧ Fits (k + 1) rest)

variable {env build files}

theorem pipeTo_of_many {m : EmailMeta} (h : GroupedMany m) :
    pipeTo m = (false, m.data.toAddrs) := by
  obtain ⟨hgrouped, hlen⟩ := h
  unfold pipeTo
  rw [if_neg (by rw [hgrouped]; exact Bool.false_ne_true), if_pos hlen]

theorem pipeTo_fst {m : EmailMeta} (h : ¬ GroupedMany m) : (pipeTo m).1 = true := by
  unfold pipeTo
  by_cases hind : m.asIndividual = true
  · rw [if_pos hind]
  · rw [if_neg hind]
    refine congrArg Prod.fst (if_neg fun hlen => h ⟨eq_false_of_ne_true hind, hlen⟩)

variable {draw : ℕ → Draw} {c : Content δ}

variable (env build files draw) in
/-- The generator goes on after `None`, and the loop of the route comes to a position that is not
there. -/
theorem trackContent_many (h : GroupedMany c.emailMeta) :
    ∃ e, (trackContent env build files draw c).raised = some e ∧
      (trackContent env build files draw c).error = some (cannotTrack c) ∧
      (trackContent env build files draw c).sent = none := by
  unfold trackContent
  rw [pipeTo_of_many h]
  dsimp only
  rw [if_neg Bool.false_ne_true, if_neg Bool.false_ne_true]
  cases htrack : trackEach env build c.emailMeta draw 1 0 c.emailMeta.data.toAddrs
      { data := c.data } with
  | mk run raised =>
    cases raised with
    | some e => exact ⟨e, rfl, rfl, rfl⟩
    | none =>
      obtain ⟨bodies, data, hrendered, -⟩ := trackEach_ok_iff.mp htrack
      -- the last turn of the generator is one position beyond the list
      have hlen := h.2
      have hlast := hrendered.lookup (c.emailMeta.data.toAddrs.length - 1) (by omega)
      omega

/-- What is sent for a content whose bodies are all made. -/
def sentFor (env : Env) (files : δ → Files) (draw : ℕ → Draw) (c : Content δ)
    (bodies : List Body) : Sent where
  index := c.index
  weight := c.emailMeta.data.toAddrs.length
  bodies := bodies
  emailMetaData := { c.emailMeta.data with
    toAddrs := (pipeTo c.emailMeta).2
    messageId := .texts ((pipeTo c.emailMeta).2.zipIdx.map fun r => env.messageId (draw r.2))
    xEmailId := .texts ((pipeTo c.emailMeta).2.zipIdx.map fun r => (draw r.2).emailId.text)
    dispositionNotificationTo :=
      if (pipeTo c.emailMeta).2 = [] then none else env.dispositionNotificationTo
    returnReceiptTo := if (pipeTo c.emailMeta).2 = [] then none else env.returnReceiptTo }
  files := files c.data

theorem trackContent_ok (h : ¬ GroupedMany c.emailMeta) {bodies : List Body} {data : δ}
    (hrendered : Rendered env build c.emailMeta draw 0 0 (pipeTo c.emailMeta).2 c.data bodies
      data) :
    trackContent env build files draw c = {
      rows := (pipeTo c.emailMeta).2.zipIdx.map fun r =>
        trackingRow env c.emailMeta (draw r.2) r.2 r.1
      events := (pipeTo c.emailMeta).2.zipIdx.map fun r => trackingEvent env (draw r.2) r.1
      error := none
      sent := some (sentFor env files draw c bodies)
      raised := none } := by
  unfold trackContent
  dsimp only
  rw [pipeTo_fst h, if_pos rfl, if_pos rfl]
  have hrun : trackEach env build c.emailMeta draw 0 0 (pipeTo c.emailMeta).2 { data := c.data } =
      (Run.after env c.emailMeta draw { data := c.data } 0 (pipeTo c.emailMeta).2 bodies data,
        none) := trackEach_ok_iff.mpr ⟨bodies, data, hrendered, rfl⟩
  rw [hrun]
  rfl

variable (env build files draw) in
theorem trackContent_raised (h : ¬ GroupedMany c.emailMeta)
    (hno : ¬ ∃ bodies data, Rendered env build c.emailMeta draw 0 0 (pipeTo c.emailMeta).2 c.data
      bodies data) :
    ∃ e, (trackContent env build files draw c).raised = some e ∧
      (trackContent env build files draw c).error = none ∧
      (trackContent env build files draw c).sent = none := by
  unfold trackContent
  dsimp only
  rw [pipeTo_fst h, if_pos rfl, if_pos rfl]
  cases htrack : trackEach env build c.emailMeta draw 0 0 (pipeTo c.emailMeta).2
      { data := c.data } with
  | mk run raised =>
    cases raised with
    | some e => exact ⟨e, rfl, rfl, rfl⟩
    | none =>
      obtain ⟨bodies, data, hrendered, -⟩ := trackEach_ok_iff.mp htrack
      exact absurd ⟨bodies, data, hrendered⟩ hno

/-- What is sent belongs together exactly if the bodies name their emails: the ids, the rows and the
events do. -/
theorem aligned_iff {bodies : List Body} (hlen : bodies.length = (pipeTo c.emailMeta).2.length)
    (run : ContentRun)
    (hrows : run.rows = (pipeTo c.emailMeta).2.zipIdx.map fun r =>
      trackingRow env c.emailMeta (draw r.2) r.2 r.1)
    (hevents : run.events = (pipeTo c.emailMeta).2.zipIdx.map fun r =>
      trackingEvent env (draw r.2) r.1) :
    Aligned env run (sentFor env files draw c bodies) ↔
      ∀ i body, bodies[i]? = some body → Carries (draw i).emailId.text body := by
  have hentry : ∀ {β : Type} (f : MailText × ℕ → β) (i : ℕ) (recipient : MailText),
      (pipeTo c.emailMeta).2[i]? = some recipient →
        ((pipeTo c.emailMeta).2.zipIdx.map f)[i]? = some (f (recipient, i)) := by
    intro β f i recipient hi
    rw [List.getElem?_map, List.getElem?_zipIdx, hi, Nat.zero_add]
    rfl
  constructor
  · intro h i body hbody
    obtain ⟨hlt, -⟩ := List.getElem?_eq_some_iff.mp hbody
    have hrecipient := List.getElem?_eq_getElem (hlen ▸ hlt)
    obtain ⟨body', emailId, messageId, row, event, hright⟩ := h.each i _ hrecipient
    have hsame : bodies[i]? = some body' := hright.bodyAt
    obtain rfl := Option.some.inj (hbody.symm.trans hsame)
    have hid : ((pipeTo c.emailMeta).2.zipIdx.map fun r => (draw r.2).emailId.text)[i]? =
        some emailId := hright.emailIdAt
    rw [hentry _ i _ hrecipient] at hid
    obtain rfl := Option.some.inj hid
    exact hright.carries
  · intro h
    refine ⟨hlen, ⟨_, rfl, by rw [List.length_map, List.length_zipIdx]; rfl⟩,
      ⟨_, rfl, by rw [List.length_map, List.length_zipIdx]; rfl⟩, ?_, ?_, ?_⟩
    · rw [hrows, List.length_map, List.length_zipIdx]
      rfl
    · rw [hevents, List.length_map, List.length_zipIdx]
      rfl
    · intro i recipient hrecipient
      have hrecipient : (pipeTo c.emailMeta).2[i]? = some recipient := hrecipient
      obtain ⟨hlt, -⟩ := List.getElem?_eq_some_iff.mp hrecipient
      obtain ⟨body, hbody⟩ : ∃ body, bodies[i]? = some body :=
        ⟨_, List.getElem?_eq_getElem (hlen.symm ▸ hlt)⟩
      refine ⟨body, (draw i).emailId.text, env.messageId (draw i),
        trackingRow env c.emailMeta (draw i) i recipient, trackingEvent env (draw i) recipient,
        ?_⟩
      constructor
      · exact hbody
      · show (((bodies.map Body.texts)[i]?).elim _ _ : Py _) = _
        rw [List.getElem?_map, hbody]
        rfl
      · show ((((pipeTo c.emailMeta).2.zipIdx.map _)[i]?).elim _ _ : Py _) = _
        rw [hentry _ i _ hrecipient]
        rfl
      · exact hentry _ i _ hrecipient
      · exact h i _ hbody
      · exact ⟨_, _, rfl⟩
      · rw [hrows]
        exact hentry _ i _ hrecipient
      · exact ⟨rfl, rfl, rfl⟩
      · rw [hevents]
        exact hentry _ i _ hrecipient
      · exact ⟨rfl, rfl⟩

/-- A content is right if it is one of several recipients that are grouped, or all its bodies are
made and name their emails. -/
theorem contentRight_iff :
    ContentRight env (trackContent env build files draw c) ↔
      GroupedMany c.emailMeta ∨ ContentFits env build draw c := by
  by_cases hmany : GroupedMany c.emailMeta
  · obtain ⟨e, -, herror, hsent⟩ := trackContent_many env build files draw hmany
    refine iff_of_true (.inl ⟨?_, hsent⟩) (.inl hmany)
    rw [herror]
    rfl
  constructor
  · intro hright
    -- a content that raises has no error of its own, and nothing is sent for it
    by_cases hall : ∃ bodies data, Rendered env build c.emailMeta draw 0 0 (pipeTo c.emailMeta).2
        c.data bodies data
    · obtain ⟨bodies, data, hrendered⟩ := hall
      rw [trackContent_ok hmany hrendered] at hright
      rcases hright with ⟨herror, -⟩ | ⟨sent, hsent, haligned⟩
      · cases herror
      · cases hsent
        exact .inr ⟨hmany, bodies, data, hrendered,
          (aligned_iff hrendered.length _ rfl rfl).mp haligned⟩
    · obtain ⟨e, -, herror, hsent⟩ := trackContent_raised env build files draw hmany hall
      rcases hright with ⟨hsome, -⟩ | ⟨sent, hsome, -⟩
      · rw [herror] at hsome
        cases hsome
      · rw [hsent] at hsome
        cases hsome
  · rintro (h | ⟨-, bodies, data, hrendered, hcarries⟩)
    · exact absurd h hmany
    · rw [trackContent_ok hmany hrendered]
      exact .inr ⟨_, rfl, (aligned_iff hrendered.length _ rfl rfl).mpr hcarries⟩

theorem not_raised_of_fits (h : ContentFits env build draw c) :
    (trackContent env build files draw c).raised = none := by
  obtain ⟨hmany, bodies, data, hrendered, -⟩ := h
  rw [trackContent_ok hmany hrendered]

/-- **Every content of a request is right exactly if the contents fit.** -/
theorem runContents_right_iff (k : ℕ) (contents : List (Content δ)) :
    RequestRight env contents (runContents env build files k contents) ↔
      Fits env build k contents := by
  induction contents generalizing k with
  | nil => exact iff_of_true .nil trivial
  | cons c rest ih =>
    unfold runContents
    dsimp only
    cases hraised : (trackContent env build files (env.draw k) c).raised with
    | some e =>
      dsimp only
      constructor
      · intro h
        obtain ⟨hright, hrest⟩ := List.forall₂_cons.mp h
        rcases contentRight_iff.mp hright with hmany | hfits
        · exact .inl ⟨hmany, List.forall₂_nil_right_iff.mp hrest⟩
        · rw [not_raised_of_fits hfits] at hraised
          cases hraised
      · rintro (⟨hmany, rfl⟩ | ⟨hfits, -⟩)
        · exact .cons (contentRight_iff.mpr (.inl hmany)) .nil
        · rw [not_raised_of_fits hfits] at hraised
          cases hraised
    | none =>
      dsimp only
      constructor
      · intro h
        obtain ⟨hright, hrest⟩ := List.forall₂_cons.mp h
        rcases contentRight_iff.mp hright with hmany | hfits
        · obtain ⟨e, he, -⟩ := trackContent_many env build files (env.draw k) hmany
          rw [hraised] at he
          cases he
        · exact .inr ⟨hfits, (ih (k + 1)).mp hrest⟩
      · rintro (⟨hmany, -⟩ | ⟨hfits, hrest⟩)
        · obtain ⟨e, he, -⟩ := trackContent_many env build files (env.draw k) hmany
          rw [hraised] at he
          cases he
        · exact .cons (contentRight_iff.mpr (.inr hfits)) ((ih (k + 1)).mpr hrest)

/-- The recipients can be tracked: each gets a mail of its own, or there is one. -/
def Trackable (m : EmailMeta) : Prop :=
  m.asIndividual = true ∨ ∃ recipient, m.data.toAddrs = [recipient]

theorem pipeTo_of_trackable {m : EmailMeta} (h : Trackable m) :
    ¬ GroupedMany m ∧ (pipeTo m).2 = m.data.toAddrs := by
  unfold pipeTo
  rcases h with hind | ⟨recipient, haddrs⟩
  · refine ⟨?_, by rw [if_pos hind]⟩
    rintro ⟨hgrouped, -⟩
    rw [hind] at hgrouped
    cases hgrouped
  · have hlen : ¬ 1 < m.data.toAddrs.length := by
      rw [haddrs]
      exact Nat.lt_irrefl 1
    refine ⟨fun hmany => hlen hmany.2, ?_⟩
    by_cases hind : m.asIndividual = true
    · rw [if_pos hind]
    · rw [if_neg hind, if_neg hlen, haddrs, List.intercalate_singleton]

/-- A grouped mail of no recipient becomes one of an empty address, which the route does not
find. -/
theorem contentFits_iff :
    ContentFits env build draw c ↔ Trackable c.emailMeta ∧ ∃ bodies data,
      Rendered env build c.emailMeta draw 0 0 c.emailMeta.data.toAddrs c.data bodies data ∧
        ∀ i body, bodies[i]? = some body → Carries (draw i).emailId.text body := by
  constructor
  · rintro ⟨hmany, bodies, data, hrendered, hcarries⟩
    have htrackable : Trackable c.emailMeta := by
      by_contra hno
      obtain ⟨hind, hone⟩ := not_or.mp hno
      have hlen : ¬ 1 < c.emailMeta.data.toAddrs.length :=
        fun hlen => hmany ⟨eq_false_of_ne_true hind, hlen⟩
      -- the empty address is the first of the generator, and no recipient is at its position
      have hpiped : (pipeTo c.emailMeta).2 = [[','].intercalate c.emailMeta.data.toAddrs] := by
        unfold pipeTo
        rw [if_neg hind, if_neg hlen]
      rw [hpiped] at hrendered
      have hlookup := hrendered.lookup 0 (by rw [List.length_singleton]; exact Nat.one_pos)
      refine hone (List.length_eq_one_iff.mp ?_)
      omega
    rw [(pipeTo_of_trackable htrackable).2] at hrendered
    exact ⟨htrackable, bodies, data, hrendered, hcarries⟩
  · rintro ⟨htrackable, bodies, data, hrendered, hcarries⟩
    obtain ⟨hmany, hpiped⟩ := pipeTo_of_trackable htrackable
    exact ⟨hmany, bodies, data, hpiped.symm ▸ hrendered, hcarries⟩

end Contents

/-! ## The pixel and the links -/

theorem not_mem_of_uuid {id : TrackerId} {x : Char} (hx : isUuidChar x = false) : x ∉ id.text := by
  intro h
  rw [id.chars x h] at hx
  cases hx

theorem not_mem_suffixed_uuid (id : TrackerId) {x : Char} (hx : isUuidChar x = false)
    (hsuffix : x ∉ untrackedProvider) : x ∉ id.text ++ untrackedProvider := by
  rw [List.mem_append, not_or]
  exact ⟨not_mem_of_uuid hx, hsuffix⟩

theorem not_mem_pasted {x : Char} {k v : UrlText} (hk : x ∉ k) (heq : x ≠ '=') (hv : x ∉ v) :
    x ∉ k ++ '=' :: v := by
  rw [List.mem_append, List.mem_cons, not_or, not_or]
  exact ⟨hk, heq, hv⟩

/-- A URL with one `message_id` in its query names that email, and no other. -/
theorem names_iff_of_params {url : UrlText} {emailId value : UrlText} {rest : List Param}
    (h : parseQsl (queryOf url) = ("message_id".toList, value) :: rest)
    (hnd : ((("message_id".toList, value) :: rest).map Prod.fst).Nodup) :
    Names emailId url ↔ value = emailId := by
  have hone : Names emailId url ↔ ("message_id".toList, emailId) ∈ parseQsl (queryOf url) :=
    queryParam_eq_some_iff (h ▸ hnd) _ _
  rw [hone, h, List.mem_cons]
  constructor
  · rintro (heq | hmem)
    · exact (congrArg Prod.snd heq).symm
    · have hfirst := (List.nodup_cons.mp hnd).1
      exact absurd (List.mem_map_of_mem hmem) hfirst
  · rintro rfl
    exact .inl rfl

/-- The pixel names its email exactly if there is a contact, which then takes the text that is
appended. -/
theorem names_pixel_iff (env : TrackEnv) (m : EmailMeta) (d : Draw) (i : ℕ) :
    Names d.emailId.text (createTrackingPixel env (pixelIds m d i)) ↔
      given (contactId m i) ≠ none := by
  have hid : ∀ x, isUuidChar x = false → x ∉ d.emailId.text := fun x hx => not_mem_of_uuid hx
  have hquery : queryOf (createTrackingPixel env (pixelIds m d i)) =
      beforeHash (pixelQuery (pixelIds m d i)) := queryOf_pixel env (pixelIds m d i)
  cases hcontact : given (contactId m i) with
  | none =>
    have hpixel : pixelQuery (pixelIds m d i) =
        "message_id".toList ++ '=' :: (d.emailId.text ++ untrackedProvider) := by
      show "message_id=".toList ++ d.emailId.text ++
        ((given (contactId m i)).map _).getD [] ++ untrackedProvider = _
      rw [hcontact]
      simp
    have hvalue : ∀ x, isUuidChar x = false → x ∉ untrackedProvider →
        x ∉ d.emailId.text ++ untrackedProvider :=
      fun x hx hsuffix => not_mem_suffixed_uuid d.emailId hx hsuffix
    have hhash : '#' ∉ "message_id".toList ++ '=' :: (d.emailId.text ++ untrackedProvider) :=
      not_mem_pasted (by decide) (by decide) (hvalue '#' (by decide) (by decide))
    have hamp : '&' ∉ d.emailId.text ++ untrackedProvider :=
      hvalue '&' (by decide) (by decide)
    have hplain : unquotePlus (d.emailId.text ++ untrackedProvider) =
        d.emailId.text ++ untrackedProvider :=
      unquotePlus_of_not_mem (hvalue '%' (by decide) (by decide))
        (hvalue '+' (by decide) (by decide))
    have hparams : parseQsl (queryOf (createTrackingPixel env (pixelIds m d i))) =
        [("message_id".toList, d.emailId.text ++ untrackedProvider)] := by
      rw [hquery, hpixel, beforeHash_of_not_mem hhash, parseQsl_pasted (by decide) hamp, hplain]
    rw [names_iff_of_params hparams (List.nodup_singleton _)]
    refine iff_of_false ?_ (fun h => h rfl)
    intro h
    -- the id that is read has the eighteen characters of the provider behind it
    have hlen := congrArg List.length h
    rw [List.length_append] at hlen
    have hpos : untrackedProvider.length = 18 := by decide
    omega
  | some contact =>
    obtain ⟨id, hin, htext⟩ : ∃ id : TrackerId, m.contact[i]? = some id ∧ id.text = contact := by
      have hsome := Option.eq_some_of_filter_eq_some hcontact
      exact Option.map_eq_some_iff.mp hsome
    subst htext
    have hpixel : pixelQuery (pixelIds m d i) = "message_id".toList ++ '=' :: (d.emailId.text ++
        '&' :: ("contact_id".toList ++ '=' :: (id.text ++ untrackedProvider))) := by
      show "message_id=".toList ++ d.emailId.text ++
        ((given (contactId m i)).map _).getD [] ++ untrackedProvider = _
      rw [hcontact]
      simp
    have hhash : '#' ∉ "message_id".toList ++ '=' :: (d.emailId.text ++
        '&' :: ("contact_id".toList ++ '=' :: (id.text ++ untrackedProvider))) := by
      refine not_mem_pasted (by decide) (by decide) ?_
      rw [List.mem_append, List.mem_cons, not_or, not_or]
      exact ⟨hid '#' (by decide), by decide, not_mem_pasted (by decide) (by decide)
        (not_mem_suffixed_uuid id (by decide) (by decide))⟩
    have hamp : '&' ∉ id.text ++ untrackedProvider :=
      not_mem_suffixed_uuid id (by decide) (by decide)
    have hplain : unquotePlus d.emailId.text = d.emailId.text :=
      unquotePlus_of_not_mem (hid '%' (by decide)) (hid '+' (by decide))
    have hparams : parseQsl (queryOf (createTrackingPixel env (pixelIds m d i))) =
        [("message_id".toList, d.emailId.text),
          ("contact_id".toList, unquotePlus (id.text ++ untrackedProvider))] := by
      rw [hquery, hpixel, beforeHash_of_not_mem hhash,
        parseQsl_pasted_append (by decide) (hid '&' (by decide)),
        parseQsl_pasted (by decide) hamp, hplain]
    have hnodup : ["message_id".toList, "contact_id".toList].Nodup := by decide
    rw [names_iff_of_params hparams hnodup]
    exact iff_of_true rfl (Option.some_ne_none _)

/-- What the filter writes is no URL that names an email. -/
theorem not_names_callbackText (env : Env) (emailId : MailText) :
    ¬ Names emailId env.callbackText := by
  have hid : ∀ x, isUuidChar x = false → x ∉ env.address.text := fun x hx => not_mem_of_uuid hx
  have hplain : PlainAddress env.callbackText := by
    have hboth : ∀ x, isUuidChar x = false → x ∉ ['>'] →
        x ∉ "<function LinkService.create_link_re.<locals>.callback at 0x".toList →
        x ∉ env.callbackText := by
      intro x hx hend hstart
      unfold Env.callbackText
      rw [List.mem_append, List.mem_append, not_or, not_or]
      exact ⟨⟨hstart, hid x hx⟩, hend⟩
    exact ⟨hboth '?' (by decide) (by decide) (by decide),
      hboth '#' (by decide) (by decide) (by decide)⟩
  intro h
  have hnone : (LinkRequest.ofUrl env.callbackText).get "message_id" = none := by
    refine queryParam_eq_none ?_
    rw [queryOf_of_plain hplain]
    exact List.not_mem_nil
  have h : (LinkRequest.ofUrl env.callbackText).get "message_id" = some emailId := h
  rw [hnone] at h
  cases h

/-! ## The route of templates -/

section Template

variable {ν : Type} (env : Env) (t : HTMLTemplate ν) (signature : Option (MailText × MailText))

/-- The URL of the pixel of the first message of a content. -/
def firstPixel (draw : ℕ → Draw) (c : Content (TemplateData ν)) : UrlText :=
  createTrackingPixel env.link (pixelIds c.emailMeta (draw 0) 0)

/-- The page of the first message is made: the data has no key of the template's own and is
rendered, and the page has a title. Where the html is sent, no URL is given to the filter and there
is a contact for the pixel. -/
structure PageFits (draw : ℕ → Draw) (c : Content (TemplateData ν)) : Prop where
  keys : ∀ key ∈ reservedKeys, key ∉ c.data.data.keys
  page : ∃ segments, t.inject (t.fill signature (firstPixel env draw c) c.data.data) =
      some segments ∧
    t.exportText (renderParts (segments.map (env.segment signature (firstPixel env draw c)))) ≠
      none ∧
    (c.data.mimeType = .both ∨ c.data.mimeType = .html →
      (∀ url, .subUrl url ∉ segments) ∧
        (.trackingPixel ∈ segments → given (contactId c.emailMeta 0) ≠ none))

/-- A content of a template is of no recipient, each of whom would get a mail of its own, or of
one. -/
def TemplateFits (draw : ℕ → Draw) (c : Content (TemplateData ν)) : Prop :=
  (c.emailMeta.asIndividual = true ∧ c.emailMeta.data.toAddrs = []) ∨
    (∃ recipient, c.emailMeta.data.toAddrs = [recipient]) ∧ PageFits env t signature draw c

/-- Every content but the last fits, and the last does too or is of several that are grouped. -/
def TemplatesFit : ℕ → List (Content (TemplateData ν)) → Prop
  | _, [] => True
  | k, c :: rest =>
    (GroupedMany c.emailMeta ∧ rest = []) ∨
      (TemplateFits env t signature (env.draw k) c ∧ TemplatesFit (k + 1) rest)

variable {env t signature}

theorem templateBuild_ok_iff {content next : TemplateData ν} {ids : TrackIds} {pixel : UrlText}
    {body : Body} :
    templateBuild env t signature content ids pixel = .ok (body, next) ↔
      (∀ key ∈ reservedKeys, key ∉ content.data.keys) ∧
        ∃ segments text, t.inject (t.fill signature pixel content.data) = some segments ∧
          t.exportText (renderParts (segments.map (env.segment signature pixel))) = some text ∧
          body = parseMimeContent (segments.map (env.segment signature pixel)) [.text text]
            content.mimeType ∧
          next = { content with data := t.fill signature pixel content.data } := by
  unfold templateBuild
  by_cases hkeys : ∃ key ∈ reservedKeys, key ∈ content.data.keys
  · rw [if_pos hkeys]
    obtain ⟨key, hkey, hmem⟩ := hkeys
    refine iff_of_false (by intro h; cases h) ?_
    rintro ⟨hno, -⟩
    exact hno key hkey hmem
  rw [if_neg hkeys]
  have hno : ∀ key ∈ reservedKeys, key ∉ content.data.keys :=
    fun key hkey hmem => hkeys ⟨key, hkey, hmem⟩
  cases hinject : t.inject (t.fill signature pixel content.data) with
  | none =>
    refine iff_of_false (by intro h; cases h) ?_
    rintro ⟨-, segments, text, hsome, -⟩
    cases hsome
  | some segments =>
    dsimp only
    cases htext : t.exportText (renderParts (segments.map (env.segment signature pixel))) with
    | none =>
      refine iff_of_false (by intro h; cases h) ?_
      rintro ⟨-, segments', text, hsome, hpage, -⟩
      cases hsome
      rw [htext] at hpage
      cases hpage
    | some text =>
      dsimp only
      constructor
      · intro h
        cases h
        exact ⟨hno, segments, text, rfl, htext, rfl, rfl⟩
      · rintro ⟨-, segments', text', hsome, hpage, rfl, rfl⟩
        cases hsome
        rw [htext] at hpage
        cases hpage
        rfl

/-- After a build the data has the key of the pixel, so there is no second one. -/
theorem templateBuild_again {content next : TemplateData ν} {ids ids' : TrackIds}
    {pixel pixel' : UrlText} {body : Body}
    (h : templateBuild env t signature content ids pixel = .ok (body, next)) :
    templateBuild env t signature next ids' pixel' = .error .templateInjectError := by
  obtain ⟨-, segments, text, -, -, -, rfl⟩ := templateBuild_ok_iff.mp h
  have hmem : "_tracking_url" ∈ (t.fill signature pixel content.data).keys := by
    unfold HTMLTemplate.fill
    cases signature with
    | none => exact (Dict.mem_keys_set _ _ _ _).mpr (.inl rfl)
    | some s =>
      exact (Dict.mem_keys_set _ _ _ _).mpr (.inr ((Dict.mem_keys_set _ _ _ _).mpr (.inl rfl)))
  exact if_pos ⟨_, List.mem_cons_self, hmem⟩

/-- A body of a template names its email where its html does. -/
theorem carries_template_iff {segments : List Segment} {pixel : UrlText} {text : MailText}
    {mimeType : MimeType} (emailId : MailText) :
    Carries emailId (parseMimeContent (segments.map (env.segment signature pixel)) [.text text]
        mimeType) ↔
      (mimeType = .both ∨ mimeType = .html →
        (∀ url, .subUrl url ∉ segments) ∧ (.trackingPixel ∈ segments → Names emailId pixel)) := by
  have hplain : ∀ url, Part.link url ∉ [Part.text text] ∧ Part.pixel url ∉ [Part.text text] := by
    intro url
    simp
  have hlink : ∀ url, Part.link url ∈ segments.map (env.segment signature pixel) ↔
      (∃ v, .subUrl v ∈ segments) ∧ url = env.callbackText := by
    intro url
    rw [List.mem_map]
    constructor
    · rintro ⟨seg, hseg, heq⟩
      cases seg with
      | subUrl v =>
        cases heq
        exact ⟨⟨v, hseg⟩, rfl⟩
      | _ => cases heq
    · rintro ⟨⟨v, hv⟩, rfl⟩
      exact ⟨_, hv, rfl⟩
  have hpixel : ∀ url, Part.pixel url ∈ segments.map (env.segment signature pixel) ↔
      .trackingPixel ∈ segments ∧ url = pixel := by
    intro url
    rw [List.mem_map]
    constructor
    · rintro ⟨seg, hseg, heq⟩
      cases seg with
      | trackingPixel =>
        cases heq
        exact ⟨hseg, rfl⟩
      | _ => cases heq
    · rintro ⟨hseg, rfl⟩
      exact ⟨_, hseg, rfl⟩
  have hhtml : (∀ url, (Part.link url ∈ segments.map (env.segment signature pixel) ∨
      Part.pixel url ∈ segments.map (env.segment signature pixel)) → Names emailId url) ↔
        (∀ url, .subUrl url ∉ segments) ∧ (.trackingPixel ∈ segments → Names emailId pixel) := by
    constructor
    · intro h
      constructor
      · intro v hv
        exact not_names_callbackText env emailId (h _ (.inl ((hlink _).mpr ⟨⟨v, hv⟩, rfl⟩)))
      · intro hseg
        exact h _ (.inr ((hpixel _).mpr ⟨hseg, rfl⟩))
    · rintro ⟨hsub, hname⟩ url (hmem | hmem)
      · obtain ⟨⟨v, hv⟩, -⟩ := (hlink url).mp hmem
        exact absurd hv (hsub v)
      · obtain ⟨hseg, rfl⟩ := (hpixel url).mp hmem
        exact hname hseg
  unfold Carries
  cases mimeType with
  | both =>
    rw [forall_prop_of_true (.inl rfl), ← hhtml]
    refine forall_congr' fun url => ?_
    show (_ ∈ _ ++ [Part.text text] ∨ _ ∈ _ ++ [Part.text text] → _) ↔ _
    rw [List.mem_append, List.mem_append, or_iff_left (hplain url).1, or_iff_left (hplain url).2]
    exact Iff.rfl
  | html =>
    rw [forall_prop_of_true (.inr rfl), ← hhtml]
    refine forall_congr' fun url => ?_
    show (_ ∈ _ ++ [] ∨ _ ∈ _ ++ [] → _) ↔ _
    rw [List.append_nil]
    exact Iff.rfl
  | plain =>
    refine iff_of_true ?_ ?_
    · rintro url (hmem | hmem)
      · exact absurd hmem (hplain url).1
      · exact absurd hmem (hplain url).2
    · rintro (h | h) <;> cases h
  | none =>
    refine iff_of_true ?_ ?_
    · rintro url (hmem | hmem) <;> cases hmem
    · rintro (h | h) <;> cases h

variable {draw : ℕ → Draw} {c : Content (TemplateData ν)}

/-- The only recipient gets a body that names its email exactly if the page fits. -/
theorem pageFits_iff {ids : TrackIds} :
    (∃ body next, templateBuild env t signature c.data ids (firstPixel env draw c) =
        .ok (body, next) ∧ Carries (draw 0).emailId.text body) ↔
      PageFits env t signature draw c := by
  have hnames : Names (draw 0).emailId.text (firstPixel env draw c) ↔
      given (contactId c.emailMeta 0) ≠ none := names_pixel_iff env.link c.emailMeta (draw 0) 0
  constructor
  · rintro ⟨body, next, hbuild, hcarries⟩
    obtain ⟨hkeys, segments, text, hinject, htext, rfl, -⟩ := templateBuild_ok_iff.mp hbuild
    have hall := (carries_template_iff (draw 0).emailId.text).mp hcarries
    refine ⟨hkeys, segments, hinject, ?_, fun hhtml => ?_⟩
    · rw [htext]
      exact Option.some_ne_none _
    · obtain ⟨hsub, hpixel⟩ := hall hhtml
      exact ⟨hsub, fun hmem => hnames.mp (hpixel hmem)⟩
  · rintro ⟨hkeys, segments, hinject, htext, hall⟩
    obtain ⟨text, htext⟩ := Option.ne_none_iff_exists'.mp htext
    refine ⟨_, _, templateBuild_ok_iff.mpr ⟨hkeys, segments, text, hinject, htext, rfl, rfl⟩, ?_⟩
    refine (carries_template_iff (draw 0).emailId.text).mpr fun hhtml => ?_
    obtain ⟨hsub, hpixel⟩ := hall hhtml
    exact ⟨hsub, fun hmem => hnames.mpr (hpixel hmem)⟩

/-- The second recipient of a content ends the request. -/
theorem contentFits_template_iff :
    ContentFits env (templateBuild env t signature) draw c ↔
      TemplateFits env t signature draw c := by
  rw [contentFits_iff]
  constructor
  · rintro ⟨htrackable, bodies, data, hrendered, hcarries⟩
    cases haddrs : c.emailMeta.data.toAddrs with
    | nil =>
      rcases htrackable with hind | ⟨recipient, hone⟩
      · exact .inl ⟨hind, haddrs⟩
      · rw [haddrs] at hone
        cases hone
    | cons recipient rest =>
      rw [haddrs] at hrendered
      obtain ⟨addr, body, next, others, -, hbuild, rfl, hrest⟩ := hrendered
      cases rest with
      | nil =>
        exact .inr ⟨⟨recipient, haddrs⟩,
          pageFits_iff.mp ⟨body, next, hbuild, hcarries 0 body rfl⟩⟩
      | cons second rest =>
        -- the data of the second page is the dictionary that the first has filled
        obtain ⟨addr', body', next', others', -, hagain, -⟩ := hrest
        rw [templateBuild_again hbuild] at hagain
        cases hagain
  · rintro (⟨hind, haddrs⟩ | ⟨⟨recipient, haddrs⟩, hpage⟩)
    · refine ⟨.inl hind, [], c.data, ?_, ?_⟩
      · rw [haddrs]
        exact ⟨rfl, rfl⟩
      · intro i body hbody
        cases hbody
    · obtain ⟨body, next, hbuild, hcarries⟩ : ∃ body next, templateBuild env t signature c.data
          (linkIds env c.emailMeta (draw 0) 0 recipient) (firstPixel env draw c) =
          .ok (body, next) ∧ Carries (draw 0).emailId.text body := pageFits_iff.mpr hpage
      refine ⟨.inr ⟨recipient, haddrs⟩, [body], next, ?_, ?_⟩
      · rw [haddrs]
        exact ⟨recipient, body, next, [], by rw [haddrs]; rfl, hbuild, rfl, rfl, rfl⟩
      · intro i body' hbody'
        cases i with
        | zero =>
          cases hbody'
          exact hcarries
        | succ i => cases hbody'

theorem fits_template_iff (k : ℕ) (contents : List (Content (TemplateData ν))) :
    Fits env (templateBuild env t signature) k contents ↔
      TemplatesFit env t signature k contents := by
  induction contents generalizing k with
  | nil => exact Iff.rfl
  | cons c rest ih => exact or_congr Iff.rfl (and_congr contentFits_template_iff (ih (k + 1)))

end Template

/-! ## The route of custom mails -/

section Custom

variable (env : Env) (signature : Option (MailText × MailText))

/-- Every host of a text is one that `urlparse` takes. -/
def HostsOk (content : Option MailText) : Prop :=
  ∀ s ∈ content, ∀ url ∈ urlsOf s,
    env.link.netlocOk (netlocOf url) = true ∧ env.link.netlocOk (netlocOf env.link.prodUrl) = true

/-- The text of a message with its signature. -/
def signedText (data : CustomData) : Option MailText :=
  match signature with
  | none => data.textContent
  | some s => data.textContent.map (· ++ "\n\n\n\n".toList ++ s.2)

/-- The recipients can be tracked; where there are any, the hosts of all URLs are taken and a
signature has a text to stand below; and all URLs, which are left as they are, name the email of
each recipient already. -/
def CustomFits (draw : ℕ → Draw) (c : Content CustomData) : Prop :=
  Trackable c.emailMeta ∧ ∀ i < c.emailMeta.data.toAddrs.length,
    HostsOk env c.data.htmlContent ∧ HostsOk env c.data.textContent ∧
      (signature ≠ none → c.data.textContent ≠ none) ∧
      ∀ s, s ∈ c.data.htmlContent ∨ s ∈ signedText signature c.data →
        ∀ url ∈ urlsOf s, Names (draw i).emailId.text url

/-- Every content but the last fits, and the last does too or is of several that are grouped. -/
def CustomsFit : ℕ → List (Content CustomData) → Prop
  | _, [] => True
  | k, c :: rest =>
    (GroupedMany c.emailMeta ∧ rest = []) ∨
      (CustomFits env signature (env.draw k) c ∧ CustomsFit (k + 1) rest)

variable {env signature}

theorem createLinkRe_ok_iff (ids : TrackIds) (content : Option MailText) :
    (∃ made, createLinkRe env.link ids content = .ok made) ↔ HostsOk env content := by
  constructor
  · rintro ⟨made, hmade⟩ s hs url hurl
    have hs : content = some s := hs
    subst hs
    obtain ⟨texts, htexts, -⟩ := bind_ok hmade
    exact (mapM_replacePiece env.link ids (pieces s)).mp ⟨texts, htexts⟩ url
      (mem_urlsOf_iff.mp hurl)
  · intro h
    exact ⟨_, (createLinkRe_iff env.link ids content).mpr h⟩

/-- The body of every message of a custom mail. -/
def customBody (signature : Option (MailText × MailText)) (data : CustomData) : Body :=
  ⟨data.htmlContent.map partsOf, (signedText signature data).map partsOf⟩

theorem signText_ok_iff (data : CustomData) (text : Option MailText) :
    signText signature data.textContent = .ok text ↔
      (signature ≠ none → data.textContent ≠ none) ∧ text = signedText signature data := by
  unfold signText signedText
  cases signature with
  | none =>
    constructor
    · intro h
      cases h
      exact ⟨fun hne => absurd rfl hne, rfl⟩
    · rintro ⟨-, rfl⟩
      rfl
  | some s =>
    cases htext : data.textContent with
    | none =>
      refine iff_of_false (by intro h; cases h) ?_
      rintro ⟨hne, -⟩
      exact hne (Option.some_ne_none s) rfl
    | some t =>
      constructor
      · intro h
        cases h
        exact ⟨fun _ => Option.some_ne_none t, rfl⟩
      · rintro ⟨-, rfl⟩
        rfl

theorem ofPy_ok_iff {α : Type} {x : Py α} : (∃ a, ofPy x = .ok a) ↔ ∃ a, x = .ok a := by
  cases x with
  | error e =>
    refine iff_of_false ?_ ?_ <;>
    · rintro ⟨a, ha⟩
      cases ha
  | ok a => exact iff_of_true ⟨a, rfl⟩ ⟨a, rfl⟩

/-- A body is made where the links could be replaced; the texts that were made are not taken. -/
theorem customBuild_ok_iff {data next : CustomData} {ids : TrackIds} {pixel : UrlText}
    {body : Body} :
    customBuild env signature data ids pixel = .ok (body, next) ↔
      (HostsOk env data.htmlContent ∧ HostsOk env data.textContent ∧
        (signature ≠ none → data.textContent ≠ none)) ∧
      body = customBody signature data ∧ next = data := by
  rw [← createLinkRe_ok_iff ids, ← createLinkRe_ok_iff ids, ← ofPy_ok_iff, ← ofPy_ok_iff]
  constructor
  · intro h
    obtain ⟨html, hhtml, h⟩ := bind_ok h
    obtain ⟨made, hmade, h⟩ := bind_ok h
    obtain ⟨text, htext, h⟩ := bind_ok h
    obtain ⟨hsign, rfl⟩ := (signText_ok_iff data text).mp htext
    cases h
    exact ⟨⟨⟨html, hhtml⟩, ⟨made, hmade⟩, hsign⟩, rfl, rfl⟩
  · rintro ⟨⟨⟨html, hhtml⟩, ⟨made, hmade⟩, hsign⟩, rfl, rfl⟩
    have htext := (signText_ok_iff next _).mpr ⟨hsign, rfl⟩
    unfold customBuild
    rw [hhtml, hmade, htext]
    rfl

/-- The links of a custom mail are the URLs that were given. -/
theorem carries_custom_iff (emailId : MailText) (data : CustomData) :
    Carries emailId (customBody signature data) ↔
      ∀ s, s ∈ data.htmlContent ∨ s ∈ signedText signature data →
        ∀ url ∈ urlsOf s, Names emailId url := by
  have hparts : ∀ (content : Option MailText) (part : Part),
      part ∈ (content.map partsOf).getD [] ↔
        ∃ s ∈ content, ∃ piece ∈ pieces s, Part.ofPiece piece = part := by
    intro content part
    cases content with
    | none => simp
    | some s => simp [partsOf]
  have hlink : ∀ (content : Option MailText) (url : UrlText),
      Part.link url ∈ (content.map partsOf).getD [] ↔ ∃ s ∈ content, url ∈ urlsOf s := by
    intro content url
    rw [hparts]
    refine exists_congr fun s => and_congr_right fun _ => ?_
    rw [mem_urlsOf_iff]
    constructor
    · rintro ⟨piece, hpiece, heq⟩
      cases piece with
      | char c => cases heq
      | url u =>
        cases heq
        exact hpiece
    · intro hurl
      exact ⟨_, hurl, rfl⟩
  have hpixel : ∀ (content : Option MailText) (url : UrlText),
      Part.pixel url ∉ (content.map partsOf).getD [] := by
    intro content url hmem
    obtain ⟨s, -, piece, -, heq⟩ := (hparts content _).mp hmem
    cases piece <;> cases heq
  constructor
  · intro h s hs url hurl
    refine h url (.inl (List.mem_append.mpr ?_))
    exact hs.imp (fun hmem => (hlink _ url).mpr ⟨s, hmem, hurl⟩)
      (fun hmem => (hlink _ url).mpr ⟨s, hmem, hurl⟩)
  · rintro h url (hmem | hmem)
    · rcases List.mem_append.mp hmem with hmem | hmem
      · obtain ⟨s, hs, hurl⟩ := (hlink _ url).mp hmem
        exact h s (.inl hs) url hurl
      · obtain ⟨s, hs, hurl⟩ := (hlink _ url).mp hmem
        exact h s (.inr hs) url hurl
    · rcases List.mem_append.mp hmem with hmem | hmem
      · exact absurd hmem (hpixel _ url)
      · exact absurd hmem (hpixel _ url)

/-- The bodies of all recipients are the same. -/
theorem rendered_custom_iff {m : EmailMeta} {draw : ℕ → Draw} {i : ℕ} {recipients : List MailText}
    {data data' : CustomData} {bodies : List Body}
    (hin : i + recipients.length ≤ m.data.toAddrs.length) :
    Rendered env (customBuild env signature) m draw 0 i recipients data bodies data' ↔
      (recipients ≠ [] → HostsOk env data.htmlContent ∧ HostsOk env data.textContent ∧
        (signature ≠ none → data.textContent ≠ none)) ∧
      bodies = List.replicate recipients.length (customBody signature data) ∧ data' = data := by
  induction recipients generalizing i bodies with
  | nil =>
    constructor
    · rintro ⟨rfl, rfl⟩
      exact ⟨fun hne => absurd rfl hne, rfl, rfl⟩
    · rintro ⟨-, rfl, rfl⟩
      exact ⟨rfl, rfl⟩
  | cons recipient rest ih =>
    rw [List.length_cons] at hin
    have hrest := fun bodies => @ih (i + 1) bodies (by omega)
    constructor
    · rintro ⟨addr, body, next, others, -, hbuild, rfl, hothers⟩
      obtain ⟨hmakes, rfl, rfl⟩ := customBuild_ok_iff.mp hbuild
      obtain ⟨-, rfl, rfl⟩ := (hrest others).mp hothers
      exact ⟨fun _ => hmakes, rfl, rfl⟩
    · rintro ⟨hmakes, rfl, rfl⟩
      have hmakes := hmakes (List.cons_ne_nil _ _)
      obtain ⟨addr, haddr⟩ : ∃ addr, m.data.toAddrs[i + 0]? = some addr :=
        ⟨_, List.getElem?_eq_getElem (by omega)⟩
      exact ⟨addr, _, _, _, haddr, customBuild_ok_iff.mpr ⟨hmakes, rfl, rfl⟩, rfl,
        (hrest _).mpr ⟨fun _ => hmakes, rfl, rfl⟩⟩

variable {draw : ℕ → Draw} {c : Content CustomData}

theorem contentFits_custom_iff :
    ContentFits env (customBuild env signature) draw c ↔ CustomFits env signature draw c := by
  rw [contentFits_iff]
  refine and_congr_right fun _ => ?_
  have hrendered := fun bodies data' => @rendered_custom_iff env signature c.emailMeta draw 0
    c.emailMeta.data.toAddrs c.data data' bodies (Nat.zero_add _).le
  constructor
  · rintro ⟨bodies, data, hall, hcarries⟩ i hi
    obtain ⟨hmakes, rfl, rfl⟩ := (hrendered bodies data).mp hall
    have hne : c.emailMeta.data.toAddrs ≠ [] := List.ne_nil_of_length_pos (by omega)
    obtain ⟨hhtml, htext, hsign⟩ := hmakes hne
    refine ⟨hhtml, htext, hsign, (carries_custom_iff _ _).mp (hcarries i _ ?_)⟩
    rw [List.getElem?_replicate, if_pos hi]
  · intro h
    refine ⟨_, _, (hrendered _ _).mpr ⟨?_, rfl, rfl⟩, ?_⟩
    · intro hne
      obtain ⟨hhtml, htext, hsign, -⟩ := h 0 (List.length_pos_iff.mpr hne)
      exact ⟨hhtml, htext, hsign⟩
    · intro i body hbody
      rw [List.getElem?_replicate] at hbody
      by_cases hi : i < c.emailMeta.data.toAddrs.length
      · rw [if_pos hi] at hbody
        obtain rfl := Option.some.inj hbody
        exact (carries_custom_iff _ _).mpr (h i hi).2.2.2
      · rw [if_neg hi] at hbody
        cases hbody

theorem fits_custom_iff (k : ℕ) (contents : List (Content CustomData)) :
    Fits env (customBuild env signature) k contents ↔ CustomsFit env signature k contents := by
  induction contents generalizing k with
  | nil => exact Iff.rfl
  | cons c rest ih => exact or_congr Iff.rfl (and_congr contentFits_custom_iff (ih (k + 1)))

end Custom

/-! ## Every tracked request -/

/-- A tracked request, to the one route or the other. -/
inductive Request (ν : Type)
  | template (t : HTMLTemplate ν) (signature : Option (MailText × MailText))
    (contents : List (Content (TemplateData ν)))
  | custom (signature : Option (MailText × MailText)) (contents : List (Content CustomData))

/-- Every content has an error and nothing sent for it, or what belongs together. -/
def Request.Right {ν : Type} (env : Env) : Request ν → Prop
  | .template t signature contents =>
    RequestRight env contents (sendEmailTemplate env t signature contents)
  | .custom signature contents =>
    RequestRight env contents (sendCustomEmail env signature contents)

/-- The requests whose contents fit their route. -/
def Request.Fits {ν : Type} (env : Env) : Request ν → Prop
  | .template t signature contents => TemplatesFit env t signature 0 contents
  | .custom signature contents => CustomsFit env signature 0 contents

/-- **Every content of a tracked request is right exactly if the contents fit the route.** -/
theorem trackedRight_iff {ν : Type} (env : Env) (request : Request ν) :
    request.Right env ↔ request.Fits env := by
  cases request with
  | template t signature contents =>
    exact (runContents_right_iff 0 contents).trans (fits_template_iff 0 contents)
  | custom signature contents =>
    exact (runContents_right_iff 0 contents).trans (fits_custom_iff 0 contents)

/-- A server that draws the same id again and again. -/
def exampleEnv : Env where
  link := exampleServer
  domainName := "notifyr.example".toList
  providerMap := Dict.empty
  lower := id
  draw _ _ := {
    emailId := ⟨"0a".toList, List.all_eq_true.mp (by decide)⟩
    eventId := "e"
    timeval := 1
    randval := 2 }
  dispositionNotificationTo := none
  returnReceiptTo := none
  address := ⟨"7f".toList, List.all_eq_true.mp (by decide)⟩

/-- A page with a greeting and its pixel. -/
def greeting : HTMLTemplate MailText where
  inject _ := some [.text "Hello".toList, .trackingPixel]
  exportText page := some page
  ofText s := s
  images := []

/-- One mail for each of two recipients. -/
def twoRecipients : Content (TemplateData MailText) where
  emailMeta := {
    data := {
      subject := "Hello".toList
      fromAddr := "us@notifyr.example".toList
      toAddrs := ["a@b.example".toList, "c@d.example".toList]
      cc := .absent
      replyTo := none
      returnPath := none
      priority := "1".toList
      dispositionNotificationTo := none
      returnReceiptTo := none
      xEmailId := .texts []
      messageId := .texts []
      contact := none }
    asIndividual := true
    contact := [] }
  index := 0
  data := ⟨Dict.empty, .both⟩

/-- The page of the first recipient leaves its pixel in the data, and the second has no page. -/
theorem second_recipient_raises :
    ¬ (Request.template greeting none [twoRecipients]).Right exampleEnv := by
  intro h
  have hfits := (fits_template_iff 0 _).mp ((runContents_right_iff 0 _).mp h)
  rcases hfits with ⟨⟨hgrouped, -⟩, -⟩ | ⟨⟨-, hnone⟩ | ⟨⟨recipient, hone⟩, -⟩, -⟩
  · cases hgrouped
  · cases hnone
  · cases hone

end Tracked

end Notifyr
