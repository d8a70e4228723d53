import Notifyr.Callback.LinkEvents
import Notifyr.Depends.LinkQuery
import Notifyr.Runtime.UrlSplit
import Notifyr.Theory.Glob

/-!
# The tracked links of mails

`LinkService.create_link_re` and `create_tracking_pixel` (`app/services/link_service.py`), and the
visits of what they make: `LinkQuery.redirect_url` (`app/depends/class_dep.py`),
`track_email_links`, `track_pixel` and `send_email_event` (`app/ressources/link_ressource.py`).

- `pieces`: how the regular expression cuts a text into URLs and other characters.
- `createLinkRe`, `createTrackingPixel`: the text with its links replaced, and the pixel.
- `sendEmailEvent`, `trackEmailLinks`: what a visit reports, and where it is sent.
- `TrackingRight`: the links are replaced, lead to where they led, and both name their ids.
- `trackingRight_iff`: for which texts and ids this is so.
-/

namespace Notifyr

open Theory

/-! ## The URLs of a text -/

/-- `[^\s"<>()]`. -/
def isUrlChar (c : Char) : Bool := !isSpace c && c ∉ ['"', '<', '>', '(', ')']

/-- `https?://`. -/
def linkSchemes : List UrlText := ["https://".toList, "http://".toList]

/-- The URL that `https?://[^\s"<>()]+` matches at the beginning of a text. -/
def matchUrl (s : UrlText) : Option UrlText :=
  linkSchemes.findSome? fun scheme =>
    let body := (s.drop scheme.length).takeWhile isUrlChar
    if scheme.isPrefixOf s ∧ body ≠ [] then some (scheme ++ body) else none

/-- A part of a text. -/
inductive Piece
  | char (c : Char)
  | url (url : UrlText)

/-- The text of a part. -/
def Piece.text : Piece → UrlText
  | char c => [c]
  | url u => u

/-- The URL of a part that is one. -/
def Piece.url? : Piece → Option UrlText
  | char _ => none
  | url u => some u

/-- The parts of a text from left to right; `skip` characters are still of the last URL. -/
def piecesFrom : ℕ → UrlText → List Piece
  | _, [] => []
  | skip + 1, _ :: rest => piecesFrom skip rest
  | 0, c :: rest =>
    match matchUrl (c :: rest) with
    | some url => .url url :: piecesFrom (url.length - 1) rest
    | none => .char c :: piecesFrom 0 rest

/-- What `re.sub` goes through. -/
def pieces (content : UrlText) : List Piece := piecesFrom 0 content

/-- The URLs that `re.sub` replaces. -/
def urlsOf (content : UrlText) : List UrlText := (pieces content).filterMap Piece.url?

/-! ## The links of a mail -/

/-- The server: `PROD_URL`, the address that its links begin with; the checks of `urlsplit` on a
host; and `validators.url`, which takes no text without a scheme and a host. -/
structure TrackEnv where
  prodUrl : UrlText
  netlocOk : UrlText → Bool
  urlValidator : UrlText → Bool
  plain : PlainAddress prodUrl
  absolute : '/' ∈ prodUrl
  relative : ∀ url, RelativeUrl url → urlValidator url = false

/-- What a link is tracked with: the id of the message, and of the contact and the provider if they
are known. -/
structure TrackIds where
  messageId : UrlText
  contactId : Option UrlText
  esp : Option UrlText

/-- The URL that a tracked link carries: of the server's own, path and query only. -/
def redirectFor (env : TrackEnv) (url : UrlText) : UrlText :=
  if netlocOf url = netlocOf env.prodUrl then ownTarget url else url

/-- An optional parameter. -/
def param (key : String) (value : Option UrlText) : List Param :=
  (value.map fun v => (key.toList, v)).toList

/-- `query_params` of `_replace_link`. -/
def trackParams (ids : TrackIds) (redirect : UrlText) : List Param :=
  param "contact_id" (given ids.contactId) ++ param "esp" ids.esp ++
    [("message_id".toList, ids.messageId), ("r".toList, redirect)]

/-- The URL that a link is replaced by. -/
def trackingUrl (env : TrackEnv) (ids : TrackIds) (url : UrlText) : UrlText :=
  env.prodUrl ++ "/link/t/".toList ++ '?' :: urlencode (trackParams ids (redirectFor env url))

/-- `_replace_link`: `urlparse` raises for a host that it does not take. -/
def replaceLink (env : TrackEnv) (ids : TrackIds) (url : UrlText) : Py UrlText :=
  if env.netlocOk (netlocOf url) ∧ env.netlocOk (netlocOf env.prodUrl) then
    .ok (trackingUrl env ids url)
  else .error .valueError

/-- The replacement of a part. -/
def replacePiece (env : TrackEnv) (ids : TrackIds) : Piece → Py UrlText
  | .char c => .ok [c]
  | .url url => replaceLink env ids url

/-- `create_link_re`. -/
def createLinkRe (env : TrackEnv) (ids : TrackIds) : Option UrlText → Py (Option UrlText)
  | none => .ok none
  | some content => do
    let texts ← (pieces content).mapM (replacePiece env ids)
    pure (some texts.flatten)

/-- `create_tracking_pixel` in the format `raw_url`. -/
def createTrackingPixel (env : TrackEnv) (ids : TrackIds) : UrlText :=
  env.prodUrl ++ "/link/p/p.png/".toList ++ '?' :: ("message_id=".toList ++ ids.messageId ++
    ((given ids.contactId).map ("&contact_id=".toList ++ ·)).getD [] ++
    ((given ids.esp).map ("&esp=".toList ++ ·)).getD "Untracked Provider".toList)

/-! ## The visit -/

/-- The request for a URL. -/
def LinkRequest.ofUrl (url : UrlText) : LinkRequest where
  netloc := netlocOf url
  query := queryOf url

/-- `request.query_params.get(key)`. -/
def LinkRequest.get (r : LinkRequest) (key : String) : Option UrlText :=
  (Dict.ofEntries r.multiItems).get? key.toList

/-- An event of a mail. -/
structure TrackingEmailEvent where
  eventId : String
  emailId : UrlText
  currentEvent : String
  espProvider : UrlText
  description : String

/-- What is handed to the broker. -/
inductive BrokerCall
  | publishContact (subjectId : UrlText)
  | publishMessage (subjectId : UrlText) (event : TrackingEmailEvent)
  | stream (event : TrackingEmailEvent)

/-- `send_email_event`; `uuid` are the new ids of the events. -/
def sendEmailEvent (uuid : ℕ → String) (r : LinkRequest) (event : String) : List BrokerCall :=
  let esp := (r.get "esp").getD "Untracked Provider".toList
  let contactCalls := ((given (r.get "contact_id")).map .publishContact).toList
  let messageCalls := (given (r.get "message_id")).elim [] fun messageId =>
    let data := { eventId := uuid 0, emailId := messageId, currentEvent := event, espProvider := esp
                  description := "" }
    let delivered := { eventId := uuid 1, emailId := messageId, currentEvent := "DELIVERED"
                       espProvider := esp
                       description :=
                         "The email has been successfully delivered in the recipient mailbox" }
    [.publishMessage messageId data, .stream data, .stream delivered]
  contactCalls ++ messageCalls

/-- `Image_Ext`. -/
def imageExt : List UrlText :=
  [".png", ".jpg", ".jpeg", ".gif", ".bmp", ".webp", ".svg"].map String.toList

/-- The answer to a visit. -/
inductive VisitReply
  | redirect (url : UrlText)
  | serverFile (filename : String) (statusCode : ℕ)
  deriving DecidableEq

/-- `LinkQuery.redirect_url`; without a URL that the validator takes, `ServerFileError`. -/
def LinkRequest.redirectUrl (env : TrackEnv) (r : LinkRequest) : Py (Option UrlText) :=
  match (r.get "r").filter (env.urlValidator ·) with
  | none => .ok none
  | some url =>
    if env.netlocOk (netlocOf url) then
      .ok (some (if netlocOf url = env.prodUrl then removeWord env.prodUrl url else url))
    else .error .valueError

/-- `LinkQuery.is_same_redirect_url`. -/
def LinkRequest.isSameRedirectUrl (env : TrackEnv) (r : LinkRequest) : Bool :=
  (r.get "r").any fun url => netlocOf url = env.prodUrl

/-- `track_email_links`. -/
def trackEmailLinks (env : TrackEnv) (uuid : ℕ → String) (r : LinkRequest) :
    Py (VisitReply × List BrokerCall) := do
  match ← r.redirectUrl env with
  | none => pure (.serverFile "app/static/error-404-page/index.html" 404, [])
  | some url =>
    let isImageUrl := imageExt.any fun ext => ext.isSuffixOf (url.takeWhile (· ≠ '?'))
    let calls := sendEmailEvent uuid r (if isImageUrl then "OPENED" else "LINK-CLICKED")
    let same := r.isSameRedirectUrl env
    let scopedOut := if same then [] else ["contact_id".toList, "message_id".toList]
    let idsOut := if same then [] else ["cid".toList]
    pure (.redirect (createLink r (some url) none (.tuple scopedOut) (.tuple idsOut)), calls)

/-- `track_pixel`. -/
def trackPixel (uuid : ℕ → String) (r : LinkRequest) : List BrokerCall :=
  sendEmailEvent uuid r "OPENED"

/-! ## What tracking is for -/

/-- The ids are read back from a URL. -/
structure IdsRight (ids : TrackIds) (url : UrlText) : Prop where
  messageId : (LinkRequest.ofUrl url).get "message_id" = some ids.messageId
  contactId : (LinkRequest.ofUrl url).get "contact_id" = given ids.contactId
  esp : (LinkRequest.ofUrl url).get "esp" = ids.esp

/-- The parameters that the visit adds. -/
def addedParams (ids : TrackIds) : List Param :=
  param "contact_id" (given ids.contactId) ++ [("message_id".toList, ids.messageId)]

/-- A URL leads to where another one leads, with more parameters. -/
structure SameTarget (url out : UrlText) (added : List Param) : Prop where
  base : baseOf out = baseOf url
  fragment : fragmentOf out = fragmentOf url
  params : (parseQsl (queryOf out)).Perm (parseQsl (queryOf url) ++ added)

/-- A tracked link names its ids, and its visit leads to the link that it stands for. -/
structure TrackedLinkRight (env : TrackEnv) (ids : TrackIds) (url : UrlText) : Prop where
  named : IdsRight ids (trackingUrl env ids url)
  visit : ∀ uuid, ∃ out calls,
    trackEmailLinks env uuid (.ofUrl (trackingUrl env ids url)) = .ok (.redirect out, calls) ∧
      SameTarget url out (addedParams ids)

/-- The links of a text are replaced and all else is kept; the links and the pixel are right. -/
structure TrackingRight (env : TrackEnv) (ids : TrackIds) (content : Option UrlText) : Prop where
  replaced : createLinkRe env ids content = .ok (content.map fun s => (pieces s).flatMap fun p =>
    (p.url?.map (trackingUrl env ids)).getD p.text)
  links : ∀ s ∈ content, ∀ url ∈ urlsOf s, TrackedLinkRight env ids url
  pixel : IdsRight ids (createTrackingPixel env ids)

/-- A URL of another host, with a path that ends in a slash, and no query and no fragment. -/
structure UrlGuard (env : TrackEnv) (url : UrlText) : Prop where
  netlocs : env.netlocOk (netlocOf url) = true ∧ env.netlocOk (netlocOf env.prodUrl) = true
  foreign : netlocOf url ≠ netlocOf env.prodUrl
  valid : env.urlValidator url = true
  plain : PlainAddress url
  slash : url.getLast? = some '/'

/-- The ids survive, there is a provider, and every URL of the text is of the kind that is
rebuilt. -/
structure TrackingGuard (env : TrackEnv) (ids : TrackIds) (content : Option UrlText) : Prop where
  messageId : Survives ids.messageId
  contactId : ∀ id ∈ given ids.contactId, Survives id
  esp : ∃ esp, ids.esp = some esp ∧ esp ≠ [] ∧ Survives esp
  urls : ∀ s ∈ content, ∀ url ∈ urlsOf s, UrlGuard env url

/-! ## The parts of a text -/

/-- What a match is. -/
theorem eq_of_matchUrl {s url : UrlText} (h : matchUrl s = some url) :
    ∃ scheme ∈ linkSchemes, ∃ body, body ≠ [] ∧ (∀ c ∈ body, isUrlChar c = true) ∧
      url = scheme ++ body ∧ url <+: s := by
  unfold matchUrl at h
  obtain ⟨scheme, hscheme, hfound⟩ := List.exists_of_findSome?_eq_some h
  dsimp only at hfound
  split at hfound
  · rename_i hcond
    obtain ⟨hscheme', hbody⟩ := hcond
    obtain rfl := Option.some.inj hfound
    obtain ⟨rest, rfl⟩ := List.isPrefixOf_iff_prefix.mp hscheme'
    rw [List.drop_left] at hbody ⊢
    refine ⟨scheme, hscheme, _, hbody, ?_, rfl, ?_⟩
    · intro c hc
      exact List.all_eq_true.mp List.all_takeWhile c hc
    · exact (List.prefix_append_right_inj scheme).mpr (List.takeWhile_prefix _)
  · cases hfound

theorem piecesFrom_text (n : ℕ) (s : UrlText) :
    (piecesFrom n s).flatMap Piece.text = s.drop n := by
  induction s generalizing n with
  | nil => cases n <;> rfl
  | cons c rest ih =>
    cases n with
    | succ n => exact ih n
    | zero =>
      unfold piecesFrom
      cases hmatch : matchUrl (c :: rest) with
      | none => exact congrArg (c :: ·) (ih 0)
      | some url =>
        obtain ⟨scheme, -, body, hbody, -, hurl, hstart⟩ := eq_of_matchUrl hmatch
        obtain ⟨tail, htail⟩ := hstart
        have hpos : 1 ≤ url.length := by
          have hone := List.length_pos_of_ne_nil hbody
          rw [hurl, List.length_append]
          omega
        have hdrop : rest.drop (url.length - 1) = tail := by
          have hall := congrArg (List.drop url.length) htail
          rw [List.drop_left] at hall
          rw [hall]
          obtain ⟨n, hn⟩ := Nat.exists_eq_add_of_le' hpos
          rw [hn]
          rfl
        show url ++ (piecesFrom (url.length - 1) rest).flatMap Piece.text = c :: rest
        rw [ih, hdrop, htail]

/-- The parts of a text are all of it. -/
theorem pieces_text (s : UrlText) : (pieces s).flatMap Piece.text = s := piecesFrom_text 0 s

theorem mem_piecesFrom {n : ℕ} {s url : UrlText} (h : .url url ∈ piecesFrom n s) :
    ∃ t, matchUrl t = some url := by
  induction s generalizing n with
  | nil => cases n <;> cases h
  | cons c rest ih =>
    cases n with
    | succ n => exact ih h
    | zero =>
      unfold piecesFrom at h
      cases hmatch : matchUrl (c :: rest) with
      | none =>
        rw [hmatch] at h
        exact ih (List.mem_of_ne_of_mem (by simp) h)
      | some u =>
        rw [hmatch] at h
        rcases List.mem_cons.mp h with heq | hmem
        · cases heq
          exact ⟨_, hmatch⟩
        · exact ih hmem

theorem mem_urlsOf_iff {s url : UrlText} : url ∈ urlsOf s ↔ .url url ∈ pieces s := by
  unfold urlsOf
  rw [List.mem_filterMap]
  constructor
  · rintro ⟨p, hp, hurl⟩
    cases p with
    | char c => cases hurl
    | url u =>
      cases hurl
      exact hp
  · intro h
    exact ⟨_, h, rfl⟩

/-- The URLs of a text have a host. -/
theorem hasNetloc_of_mem {s url : UrlText} (h : url ∈ urlsOf s) : HasNetloc url := by
  obtain ⟨t, hmatch⟩ := mem_piecesFrom (mem_urlsOf_iff.mp h)
  obtain ⟨scheme, hscheme, body, -, hbody, rfl, -⟩ := eq_of_matchUrl hmatch
  have hkeep : (body.filter fun c => c ≠ '\t' ∧ c ≠ '\r' ∧ c ≠ '\n') = body := by
    refine List.filter_eq_self.mpr fun c hc => ?_
    have hchar := hbody c hc
    refine decide_eq_true ⟨?_, ?_, ?_⟩ <;>
    · rintro rfl
      revert hchar
      decide
  unfold HasNetloc
  simp only [linkSchemes, List.mem_cons, List.not_mem_nil, or_false] at hscheme
  rcases hscheme with rfl | rfl
  · have hstrip : stripUrl ("https://".toList ++ body) = "https://".toList ++ body := by
      show List.filter _ ("https://".toList ++ body) = _
      rw [List.filter_append, hkeep]
      rfl
    rw [hstrip]
    rfl
  · have hstrip : stripUrl ("http://".toList ++ body) = "http://".toList ++ body := by
      show List.filter _ ("http://".toList ++ body) = _
      rw [List.filter_append, hkeep]
      rfl
    rw [hstrip]
    rfl

/-! ## The text with its links replaced -/

theorem replaceLink_ok_iff (env : TrackEnv) (ids : TrackIds) (url : UrlText) :
    replaceLink env ids url = .ok (trackingUrl env ids url) ↔
      env.netlocOk (netlocOf url) = true ∧ env.netlocOk (netlocOf env.prodUrl) = true := by
  unfold replaceLink
  split
  · rename_i h
    exact iff_of_true rfl h
  · rename_i h
    exact iff_of_false (by intro heq; cases heq) h

theorem mapM_replacePiece (env : TrackEnv) (ids : TrackIds) (l : List Piece) :
    (∃ texts, l.mapM (replacePiece env ids) = .ok texts) ↔
      ∀ url, .url url ∈ l →
        env.netlocOk (netlocOf url) = true ∧ env.netlocOk (netlocOf env.prodUrl) = true := by
  rw [exists_mapM_ok_iff]
  constructor
  · intro h url hurl
    obtain ⟨t, ht⟩ := h _ hurl
    change replaceLink env ids url = .ok t at ht
    by_contra hno
    rw [replaceLink, if_neg hno] at ht
    cases ht
  · intro h p hp
    cases p with
    | char c => exact ⟨_, rfl⟩
    | url u => exact ⟨_, (replaceLink_ok_iff env ids u).mpr (h u hp)⟩

theorem mapM_replacePiece_eq {env : TrackEnv} {ids : TrackIds} {l : List Piece}
    {texts : List UrlText} (h : l.mapM (replacePiece env ids) = .ok texts) :
    texts = l.map fun p => (p.url?.map (trackingUrl env ids)).getD p.text := by
  induction l generalizing texts with
  | nil =>
    cases h
    rfl
  | cons p l ih =>
    rw [List.mapM_cons] at h
    obtain ⟨t, ht, h⟩ := bind_ok h
    obtain ⟨ts, hts, h⟩ := bind_ok h
    cases h
    rw [List.map_cons, ← ih hts]
    refine congrArg (· :: ts) ?_
    cases p with
    | char c =>
      cases ht
      rfl
    | url u =>
      change replaceLink env ids u = .ok t at ht
      unfold replaceLink at ht
      split at ht
      · cases ht
        rfl
      · cases ht

/-- The links of a text are replaced exactly if `urlparse` takes every host. -/
theorem createLinkRe_iff (env : TrackEnv) (ids : TrackIds) (content : Option UrlText) :
    createLinkRe env ids content = .ok (content.map fun s => (pieces s).flatMap fun p =>
        (p.url?.map (trackingUrl env ids)).getD p.text) ↔
      ∀ s ∈ content, ∀ url ∈ urlsOf s,
        env.netlocOk (netlocOf url) = true ∧ env.netlocOk (netlocOf env.prodUrl) = true := by
  cases content with
  | none => exact iff_of_true rfl (by simp)
  | some s =>
    have hall := mapM_replacePiece env ids (pieces s)
    have hmem : (∀ s' ∈ some s, ∀ url ∈ urlsOf s',
        env.netlocOk (netlocOf url) = true ∧ env.netlocOk (netlocOf env.prodUrl) = true) ↔
          ∀ url, .url url ∈ pieces s →
            env.netlocOk (netlocOf url) = true ∧ env.netlocOk (netlocOf env.prodUrl) = true := by
      constructor
      · intro h url hurl
        exact h s rfl url (mem_urlsOf_iff.mpr hurl)
      · rintro h s' hs url hurl
        obtain rfl := Option.some.inj hs
        exact h url (mem_urlsOf_iff.mp hurl)
    rw [hmem, ← hall]
    constructor
    · intro h
      obtain ⟨texts, htexts, -⟩ := bind_ok h
      exact ⟨texts, htexts⟩
    · rintro ⟨texts, htexts⟩
      show ((pieces s).mapM (replacePiece env ids) >>= fun texts => pure (some texts.flatten)) = _
      rw [htexts, mapM_replacePiece_eq htexts]
      show Except.ok (some ((pieces s).map _).flatten) = Except.ok (some ((pieces s).flatMap _))
      rw [List.flatMap_def]

/-! ## The ids of a URL -/

theorem mem_param {key : String} {value : Option UrlText} {e : Param} :
    e ∈ param key value ↔ e.1 = key.toList ∧ value = some e.2 := by
  cases value with
  | none => simp [param]
  | some v =>
    constructor
    · intro h
      rw [param, Option.map_some, Option.toList_some, List.mem_singleton] at h
      rw [h]
      exact ⟨rfl, rfl⟩
    · rintro ⟨hkey, hvalue⟩
      rw [param, Option.map_some, Option.toList_some, List.mem_singleton, Option.some.inj hvalue,
        ← hkey]

/-- The parameters that name the ids. -/
def idParams (ids : TrackIds) : List Param :=
  ("message_id".toList, ids.messageId) :: param "contact_id" (given ids.contactId) ++
    param "esp" ids.esp

theorem keys_param (key : String) (value : Option UrlText) :
    ((param key value).map Prod.fst).Sublist [key.toList] := by
  cases value with
  | none => exact List.nil_sublist _
  | some v => exact List.Sublist.refl _

theorem keys_idParams (ids : TrackIds) : ((idParams ids).map Prod.fst).Sublist
    (["message_id", "contact_id", "esp"].map String.toList) := by
  unfold idParams
  rw [List.map_append, List.map_cons]
  exact ((keys_param _ _).cons_cons _).append (keys_param _ _)

/-- A parameter is read back from a URL that has it once. -/
theorem get_eq {url : UrlText} {key : String} {value : Option UrlText}
    (hnd : ((parseQsl (queryOf url)).map Prod.fst).Nodup)
    (h : ∀ v, (key.toList, v) ∈ parseQsl (queryOf url) ↔ value = some v) :
    (LinkRequest.ofUrl url).get key = value := by
  cases value with
  | none =>
    refine queryParam_eq_none fun hkey => ?_
    obtain ⟨⟨k, v⟩, hmem, rfl⟩ := List.mem_map.mp hkey
    cases (h v).mp hmem
  | some v => exact (queryParam_eq_some_iff hnd _ _).mpr ((h v).mpr rfl)

/-- The ids are read back from a URL that has them, and others of other names. -/
theorem idsRight_of_perm {ids : TrackIds} {url : UrlText} {rest : List Param}
    (hrest : ∀ e ∈ rest, e.1 = "r".toList) (hnd : (rest.map Prod.fst).Nodup)
    (h : (parseQsl (queryOf url)).Perm (idParams ids ++ rest)) : IdsRight ids url := by
  have hkeys : ((parseQsl (queryOf url)).map Prod.fst).Nodup := by
    rw [(h.map _).nodup_iff, List.map_append, List.nodup_append]
    refine ⟨(keys_idParams ids).nodup (by decide), hnd, ?_⟩
    intro k hk k' hk' heq
    obtain ⟨e, he, rfl⟩ := List.mem_map.mp hk'
    have hr := (keys_idParams ids).subset hk
    rw [heq, hrest e he] at hr
    revert hr
    decide
  have hmem : ∀ (key : String) (value : Option UrlText), key ≠ "r" →
      (∀ v, (key.toList, v) ∈ idParams ids ↔ value = some v) →
        (LinkRequest.ofUrl url).get key = value := by
    intro key value hkey hiff
    refine get_eq hkeys fun v => ?_
    rw [h.mem_iff, List.mem_append, or_iff_left, hiff]
    intro hr
    exact hkey (String.toList_inj.mp (hrest _ hr))
  have hparams : ∀ (key : String) (v : UrlText), (key.toList, v) ∈ idParams ids ↔
      (key = "message_id" ∧ v = ids.messageId) ∨
        (key = "contact_id" ∧ given ids.contactId = some v) ∨
        (key = "esp" ∧ ids.esp = some v) := by
    intro key v
    unfold idParams
    rw [List.mem_append, List.mem_cons, mem_param, mem_param, Prod.mk.injEq, String.toList_inj,
      String.toList_inj, String.toList_inj, or_assoc]
  refine ⟨hmem _ _ (by decide) ?_, hmem _ _ (by decide) ?_, hmem _ _ (by decide) ?_⟩ <;>
  · intro v
    rw [hparams]
    simp [eq_comm]

/-- The parameters of a URL that names its ids. -/
theorem idParams_subset {ids : TrackIds} {url : UrlText} (h : IdsRight ids url) :
    idParams ids ⊆ parseQsl (queryOf url) := by
  have hmem : ∀ (key : String) (v : UrlText), (LinkRequest.ofUrl url).get key = some v →
      (key.toList, v) ∈ parseQsl (queryOf url) := fun key v => mem_of_queryParam
  intro e he
  unfold idParams at he
  rw [List.mem_append, List.mem_cons] at he
  obtain ⟨k, v⟩ := e
  rcases he with (heq | he) | he
  · rw [heq]
    exact hmem _ _ h.messageId
  · obtain ⟨rfl, hvalue⟩ := mem_param.mp he
    exact hmem _ _ (h.contactId.trans hvalue)
  · obtain ⟨rfl, hvalue⟩ := mem_param.mp he
    exact hmem _ _ (h.esp.trans hvalue)

/-- What is handed to the broker names the ids. -/
def BrokerCall.Names (ids : TrackIds) : BrokerCall → Prop
  | .publishContact subjectId => given ids.contactId = some subjectId
  | .publishMessage subjectId event => subjectId = ids.messageId ∧ event.emailId = ids.messageId ∧
      event.espProvider = ids.esp.getD "Untracked Provider".toList
  | .stream event => event.emailId = ids.messageId ∧
      event.espProvider = ids.esp.getD "Untracked Provider".toList

/-- The visit of a URL that names its ids reports them. -/
theorem names_of_mem {ids : TrackIds} {url : UrlText} (h : IdsRight ids url) {uuid : ℕ → String}
    {event : String} {call : BrokerCall}
    (hcall : call ∈ sendEmailEvent uuid (.ofUrl url) event) : call.Names ids := by
  unfold sendEmailEvent at hcall
  rw [h.messageId, h.contactId, h.esp, given_given] at hcall
  rcases List.mem_append.mp hcall with hcontact | hmessage
  · obtain ⟨c, hc, rfl⟩ := Option.map_eq_some_iff.mp (Option.mem_toList.mp hcontact)
    exact hc
  · cases hid : given (some ids.messageId) with
    | none =>
      rw [hid] at hmessage
      cases hmessage
    | some m =>
      obtain rfl := Option.some.inj (Option.filter_eq_some_iff.mp hid).1
      rw [hid] at hmessage
      simp only [Option.elim_some, List.mem_cons, List.not_mem_nil, or_false] at hmessage
      rcases hmessage with rfl | rfl | rfl
      · exact ⟨rfl, rfl, rfl⟩
      · exact ⟨rfl, rfl⟩
      · exact ⟨rfl, rfl⟩

/-! ## The visit of a tracked link -/

theorem hash_not_mem_urlencode (es : List Param) : '#' ∉ urlencode es := by
  intro h
  rcases of_mem_urlencode h with hc | hc | ⟨e, -, hc | hc⟩
  · cases hc
  · cases hc
  · exact not_isReserved_quotePlus hc (.inr (.inr (.inl rfl)))
  · exact not_isReserved_quotePlus hc (.inr (.inr (.inl rfl)))

section Visit

variable (env : TrackEnv) (ids : TrackIds)

theorem plain_prodUrl_append {path : UrlText} (h : PlainAddress path) :
    PlainAddress (env.prodUrl ++ path) := (plain_append_iff _ _).mpr ⟨env.plain, h⟩

/-- What a tracked link carries. -/
theorem parseQsl_trackingUrl (url : UrlText) :
    parseQsl (queryOf (trackingUrl env ids url)) = trackParams ids (redirectFor env url) := by
  have hplain : PlainAddress (env.prodUrl ++ "/link/t/".toList) :=
    plain_prodUrl_append env (by unfold PlainAddress; decide)
  unfold trackingUrl
  rw [queryOf_append hplain, beforeHash_of_not_mem (hash_not_mem_urlencode _), parseQsl_urlencode]

theorem perm_trackParams (redirect : UrlText) :
    (trackParams ids redirect).Perm (idParams ids ++ [("r".toList, redirect)]) := by
  have hmove : trackParams ids redirect =
      (param "contact_id" (given ids.contactId) ++ param "esp" ids.esp) ++
        ("message_id".toList, ids.messageId) :: [("r".toList, redirect)] := rfl
  rw [hmove]
  exact List.perm_middle

/-- A tracked link always names its ids. -/
theorem idsRight_trackingUrl (url : UrlText) : IdsRight ids (trackingUrl env ids url) := by
  refine idsRight_of_perm ?_ ?_ ((parseQsl_trackingUrl env ids url).symm ▸
    perm_trackParams ids (redirectFor env url))
  · intro e he
    rw [List.mem_singleton.mp he]
  · exact List.nodup_singleton _

theorem get_r (url : UrlText) :
    (LinkRequest.ofUrl (trackingUrl env ids url)).get "r" = some (redirectFor env url) := by
  have hperm := perm_trackParams ids (redirectFor env url)
  have hnot : "r".toList ∉ (idParams ids).map Prod.fst := by
    intro h
    have hr := (keys_idParams ids).subset h
    revert hr
    decide
  refine get_eq ?_ ?_
  · rw [parseQsl_trackingUrl, (hperm.map _).nodup_iff, List.map_append, List.nodup_append]
    refine ⟨(keys_idParams ids).nodup (by decide), List.nodup_singleton _, ?_⟩
    rintro k hk k' hk' rfl
    have hkey : k = "r".toList := List.mem_singleton.mp hk'
    rw [hkey] at hk
    exact hnot hk
  · intro v
    rw [parseQsl_trackingUrl, hperm.mem_iff, List.mem_append, or_iff_right, List.mem_singleton,
      Prod.mk.injEq, Option.some.injEq]
    · exact ⟨fun h => h.2.symm, fun h => ⟨rfl, h.symm⟩⟩
    · exact fun h => hnot (List.mem_map_of_mem h)

/-- No host is the address of the server. -/
theorem netlocOf_ne_prodUrl (url : UrlText) : netlocOf url ≠ env.prodUrl :=
  fun h => slash_not_mem_netlocOf url (h ▸ env.absolute)

/-- The groups of parameters that a visit appends. -/
theorem wantedGroups_visit (url : UrlText) :
    wantedGroups (LinkRequest.ofUrl (trackingUrl env ids url))
        (.tuple ["contact_id".toList, "message_id".toList]) (.tuple ["cid".toList]) =
      [[], addedParams ids, []] := by
  have hitems : (LinkRequest.ofUrl (trackingUrl env ids url)).multiItems =
      trackParams ids (redirectFor env url) := parseQsl_trackingUrl env ids url
  unfold wantedGroups
  rw [hitems]
  unfold trackParams addedParams param
  cases given ids.contactId <;> cases ids.esp <;> rfl

/-- The link that a visit leads to. -/
def visitLink (url : UrlText) : UrlText :=
  createLink (LinkRequest.ofUrl (trackingUrl env ids url)) (some url) none
    (.tuple ["contact_id".toList, "message_id".toList]) (.tuple ["cid".toList])

/-- A visit leads to a URL of another host that the validator takes, and nowhere else. -/
theorem trackEmailLinks_iff {url : UrlText} (hhost : HasNetloc url)
    (hok : env.netlocOk (netlocOf url) = true) (uuid : ℕ → String) (out : UrlText) :
    (∃ calls, trackEmailLinks env uuid (.ofUrl (trackingUrl env ids url)) =
        .ok (.redirect out, calls)) ↔
      netlocOf url ≠ netlocOf env.prodUrl ∧ env.urlValidator url = true ∧
        out = visitLink env ids url := by
  have hget := get_r env ids url
  unfold trackEmailLinks LinkRequest.redirectUrl
  rw [hget]
  by_cases hforeign : netlocOf url = netlocOf env.prodUrl
  · have hredirect : redirectFor env url = ownTarget url := if_pos hforeign
    have hvalid := env.relative _ (ownTarget_relative hhost)
    have hnone : (some (ownTarget url)).filter (env.urlValidator ·) = none := by
      rw [Option.filter_some, hvalid]
      rfl
    rw [hredirect, hnone]
    refine iff_of_false ?_ fun h => h.1 hforeign
    rintro ⟨calls, h⟩
    cases h
  · have hredirect : redirectFor env url = url := if_neg hforeign
    rw [hredirect] at hget ⊢
    by_cases hvalid : env.urlValidator url = true
    · have hsome : (some url).filter (env.urlValidator ·) = some url := by
        rw [Option.filter_some, hvalid]
        rfl
      have hsame :
          (LinkRequest.ofUrl (trackingUrl env ids url)).isSameRedirectUrl env = false := by
        unfold LinkRequest.isSameRedirectUrl
        rw [hget]
        exact decide_eq_false (netlocOf_ne_prodUrl env url)
      rw [hsome]
      dsimp only
      rw [if_pos hok, if_neg (netlocOf_ne_prodUrl env url)]
      constructor
      · rintro ⟨calls, h⟩
        have hout := congrArg Prod.fst (Except.ok.inj h)
        rw [hsame] at hout
        exact ⟨hforeign, hvalid, (VisitReply.redirect.inj hout).symm⟩
      · rintro ⟨-, -, rfl⟩
        rw [hsame]
        exact ⟨_, rfl⟩
    · have hnone : (some url).filter (env.urlValidator ·) = none := by
        rw [Option.filter_some, Bool.eq_false_iff.mpr hvalid]
        rfl
      rw [hnone]
      refine iff_of_false ?_ fun h => hvalid h.2.1
      rintro ⟨calls, h⟩
      cases h

/-- The link of a visit leads to the link that was replaced, for plain addresses that end in a
slash and ids that survive. -/
theorem sameTarget_visitLink_iff (url : UrlText) :
    SameTarget url (visitLink env ids url) (addedParams ids) ↔
      PlainAddress url ∧ url.getLast? = some '/' ∧ ∀ e ∈ addedParams ids, CleanPair e := by
  have hgroups := wantedGroups_visit env ids url
  have hflat : (wantedGroups (LinkRequest.ofUrl (trackingUrl env ids url))
      (.tuple ["contact_id".toList, "message_id".toList]) (.tuple ["cid".toList])).flatten =
        addedParams ids := by
    rw [hgroups]
    simp
  have hne : addedParams ids ≠ [] := by simp [addedParams]
  have hlink : visitLink env ids url = joinSlash url [] ++ '?' ::
      paste (linkGroups (LinkRequest.ofUrl (trackingUrl env ids url))
        (.tuple ["contact_id".toList, "message_id".toList]) (.tuple ["cid".toList])) := by
    unfold visitLink
    rw [createLink_eq]
    rfl
  rw [hlink]
  by_cases hhash : '#' ∈ url
  · -- all that is appended is of the fragment
    refine iff_of_false ?_ fun h => h.1.2 hhash
    rintro ⟨-, -, hparams⟩
    have hout := joinSlash_eq url []
    rw [slashed_eq, List.append_assoc] at hout
    rw [hout, List.append_assoc] at hparams
    unfold queryOf at hparams
    rw [beforeHash_append_of_mem hhash] at hparams
    have hlen := hparams.length_eq
    have hpos := List.length_pos_of_ne_nil hne
    rw [List.length_append] at hlen
    omega
  · by_cases hquery : '?' ∈ url
    · refine iff_of_false ?_ fun h => h.1.1 hquery
      intro h
      have hparams := h.params
      rw [← hflat] at hparams
      exact not_params_query _ url [] _ _ rfl hquery hhash hparams
    · have hplain : PlainAddress url := ⟨hquery, hhash⟩
      have hjoin : PlainAddress (joinSlash url []) := by
        rw [joinSlash_eq, plain_append_iff, plain_slashed_iff, plain_stripSlash_iff]
        exact ⟨hplain, by simp [PlainAddress]⟩
      have hperm := paste_linkGroups_iff (LinkRequest.ofUrl (trackingUrl env ids url))
        (.tuple ["contact_id".toList, "message_id".toList]) (.tuple ["cid".toList])
      have hone : ((wantedGroups (LinkRequest.ofUrl (trackingUrl env ids url))
          (.tuple ["contact_id".toList, "message_id".toList]) (.tuple ["cid".toList])).filter
            (· ≠ [])).length ≤ 1 := by
        rw [hgroups]
        simp [hne]
      have hnodup : ((addedParams ids).map Prod.fst).Nodup := by
        have hkeys := (keys_param "contact_id" (given ids.contactId)).append
          (List.Sublist.refl ["message_id".toList])
        unfold addedParams
        rw [List.map_append]
        exact hkeys.nodup (by decide)
      rw [hflat] at hperm
      have haddress := baseOf_append hjoin ('?' ::
        paste (linkGroups (LinkRequest.ofUrl (trackingUrl env ids url))
          (.tuple ["contact_id".toList, "message_id".toList]) (.tuple ["cid".toList])))
      have hquestion : ∀ t : UrlText, baseOf ('?' :: t) = [] := fun _ => rfl
      rw [hquestion, List.append_nil] at haddress
      constructor
      · rintro ⟨hbase, -, hparams⟩
        rw [haddress, baseOf_of_plain hplain] at hbase
        rw [queryOf_append hjoin, queryOf_of_plain hplain, parseQsl_nil, List.nil_append] at hparams
        exact ⟨hplain, ((eq_joinSlash_iff url []).mp hbase.symm).1, (hperm.mp hparams).2.2⟩
      · rintro ⟨-, hslash, hclean⟩
        have hurl := (eq_joinSlash_iff url []).mpr ⟨hslash, .inl rfl⟩
        refine ⟨?_, ?_, ?_⟩
        · rw [haddress, baseOf_of_plain hplain, ← hurl]
        · have hpaste := hash_not_mem_paste fun e he =>
            hclean e (hflat ▸ (linkGroups_subperm _ _ _).subset he)
          rw [← hurl, fragmentOf_of_not_mem hhash, fragmentOf_of_not_mem]
          rw [List.mem_append, List.mem_cons, not_or, not_or]
          exact ⟨hhash, by decide, hpaste⟩
        · rw [queryOf_append hjoin, queryOf_of_plain hplain, parseQsl_nil, List.nil_append]
          exact hperm.mpr ⟨hone, hnodup, hclean⟩

end Visit

/-! ## The pixel -/

/-- What `create_tracking_pixel` appends where there is no provider. -/
def untrackedProvider : UrlText := "Untracked Provider".toList

/-- The characters of that text, and the one that stands for its blank. -/
def faint (c : Char) : Bool := c ∈ '+' :: untrackedProvider

theorem weightless_faint : Weightless faint := by
  refine ⟨?_, by decide, by decide⟩
  intro c hc
  have hall : ∀ a ∈ '+' :: untrackedProvider, a.toNat < 128 :=
    @of_decide_eq_true _ (List.decidableBAll _ _) (by decide)
  exact hall c (of_decide_eq_true hc)

theorem faint_amp : faint '&' = false := by decide

theorem faint_hash : faint '#' = false := by decide

theorem weight_suffixed (v : UrlText) : weight faint (v ++ untrackedProvider) = weight faint v := by
  have hsuffix : weight faint untrackedProvider = 0 := by decide
  rw [weight_append, hsuffix, Nat.add_zero]

theorem delimiter_U : Delimiter 'U' := ⟨by decide, by decide, by decide, by decide⟩

/-- A value is not read back with that text behind it: its `U` is of some value. -/
theorem not_mem_suffixed {k : UrlText} (h : PlainKey k) (v : UrlText) :
    (k, v) ∉ parseQsl (k ++ '=' :: beforeHash (v ++ untrackedProvider)) := by
  intro hmem
  have hle := weight_value_le weightless_faint faint_amp h hmem
  have hhash : '#' ∉ v := fun hv => by
    have hlt := weight_beforeHash_lt faint_hash hv
    rw [beforeHash_append_of_mem hv] at hle
    simp only at hle
    omega
  have hcut : beforeHash (v ++ untrackedProvider) = v ++ untrackedProvider := by
    rw [beforeHash_append hhash]
    rfl
  rw [hcut] at hmem
  have hamp : '&' ∉ v ++ untrackedProvider := fun hv => by
    have hlt := weight_value_lt weightless_faint faint_amp h hv hmem
    rw [weight_suffixed] at hlt
    simp only at hlt
    omega
  rw [parseQsl_pasted h hamp, List.mem_singleton] at hmem
  have hvalue : v = unquotePlus (v ++ untrackedProvider) := congrArg Prod.snd hmem
  have hcount := count_le_unquotePlus delimiter_U (v ++ untrackedProvider)
  have hone : untrackedProvider.count 'U' = 1 := by decide
  rw [← hvalue, List.count_append, hone] at hcount
  omega

/-- With that text behind the contact, one of the two ids is not read back. -/
theorem not_both_suffixed (m c : UrlText)
    (hm : ("message_id".toList, m) ∈ parseQsl (beforeHash ("message_id=".toList ++
      (m ++ ("&contact_id=".toList ++ (c ++ untrackedProvider)))))) :
    ("contact_id".toList, c) ∉ parseQsl (beforeHash ("message_id=".toList ++
      (m ++ ("&contact_id=".toList ++ (c ++ untrackedProvider))))) := by
  intro hc
  have hprefix : "message_id=".toList = "message_id".toList ++ ['='] := rfl
  rw [beforeHash_append (by decide), hprefix, List.append_assoc, List.singleton_append] at hm hc
  by_cases hhash : '#' ∈ m
  · rw [beforeHash_append_of_mem hhash] at hm
    have hle := weight_value_le weightless_faint faint_amp (by decide) hm
    have hlt := weight_beforeHash_lt faint_hash hhash
    simp only at hle
    omega
  · have hcontact : ∀ t, '#' ∉ m → beforeHash (m ++ ("&contact_id=".toList ++ t)) =
        m ++ '&' :: ("contact_id".toList ++ '=' :: beforeHash t) := by
      intro t hno
      rw [beforeHash_append hno, beforeHash_append (by decide)]
      rfl
    rw [hcontact _ hhash] at hm hc
    have hcut := weight_beforeHash_le (z := faint) (c ++ untrackedProvider)
    rw [weight_suffixed] at hcut
    have hlast := not_mem_suffixed (k := "contact_id".toList) (by decide) c
    by_cases hamp : '&' ∈ m
    · obtain ⟨m₁, m₂, rfl, hm₁⟩ := List.eq_append_cons_of_mem hamp
      rw [List.append_assoc, List.cons_append, parseQsl_pasted_append (by decide) hm₁,
        parseQsl_append] at hm hc
      have hweight : weight faint (m₁ ++ '&' :: m₂) = weight faint m₁ + weight faint m₂ + 1 := by
        rw [weight_append, weight_cons, faint_amp, if_neg Bool.false_ne_true]
        omega
      -- the message is larger than what is read before the contact
      have hsmall : weight faint (m₁ ++ '&' :: m₂) < weight faint c := by
        rcases List.mem_cons.mp hm with heq | hm
        · have hvalue : m₁ ++ '&' :: m₂ = unquotePlus m₁ := congrArg Prod.snd heq
          have hle := weight_unquotePlus_le weightless_faint m₁
          rw [← hvalue] at hle
          omega
        · rcases List.mem_append.mp hm with hm | hm
          · have hle := weight_le_of_mem_parseQsl weightless_faint faint_amp hm
            simp only at hle
            omega
          · rcases mem_parseQsl_pasted (p := []) (u := beforeHash (c ++ untrackedProvider))
              weightless_faint faint_amp (by decide) List.not_mem_nil hm with hk | hlt
            · simp at hk
            · simp only at hlt
              omega
      rcases List.mem_cons.mp hc with heq | hc
      · exact absurd (congrArg Prod.fst heq) (by simp)
      · rcases List.mem_append.mp hc with hc | hc
        · have hle := weight_le_of_mem_parseQsl weightless_faint faint_amp hc
          simp only at hle
          omega
        · exact hlast hc
    · rw [parseQsl_pasted_append (by decide) hamp] at hc
      exact hlast (List.mem_of_ne_of_mem (by simp) hc)

section Pixel

variable (env : TrackEnv) (ids : TrackIds)

/-- A parameter survives where its value does. -/
theorem cleanPair_iff {key : String} (hkey : PlainKey key.toList) (hhash : '#' ∉ key.toList)
    (value : UrlText) : CleanPair (key.toList, value) ↔ Survives value := by
  obtain ⟨hamp, heq, hpercent, hplus⟩ := hkey
  constructor
  · exact fun h => h.2.2
  · exact fun h => ⟨heq, ⟨hamp, hhash, unquotePlus_of_not_mem hpercent hplus⟩, h⟩

theorem clean_param {key : String} (hkey : PlainKey key.toList) (hhash : '#' ∉ key.toList)
    (value : Option UrlText) :
    (∀ e ∈ param key value, CleanPair e) ↔ ∀ v ∈ value, Survives v := by
  constructor
  · intro h v hv
    exact (cleanPair_iff hkey hhash v).mp (h _ (mem_param.mpr ⟨rfl, hv⟩))
  · rintro h ⟨k, v⟩ he
    obtain ⟨rfl, hv⟩ := mem_param.mp he
    exact (cleanPair_iff hkey hhash v).mpr (h v hv)

/-- What a visit adds survives where the message and the contact do. -/
theorem clean_addedParams : (∀ e ∈ addedParams ids, CleanPair e) ↔
    Survives ids.messageId ∧ ∀ id ∈ given ids.contactId, Survives id := by
  unfold addedParams
  rw [List.forall_mem_append, List.forall_mem_singleton, clean_param (by decide) (by decide),
    cleanPair_iff (by decide) (by decide)]
  exact and_comm

theorem clean_idParams : (∀ e ∈ idParams ids, CleanPair e) ↔
    Survives ids.messageId ∧ (∀ id ∈ given ids.contactId, Survives id) ∧
      ∀ esp ∈ ids.esp, Survives esp := by
  unfold idParams
  rw [List.forall_mem_append, List.forall_mem_cons, clean_param (by decide) (by decide),
    clean_param (by decide) (by decide), cleanPair_iff (by decide) (by decide)]
  exact and_assoc

/-- The query of a pixel. -/
def pixelQuery : UrlText :=
  "message_id=".toList ++ ids.messageId ++
    ((given ids.contactId).map ("&contact_id=".toList ++ ·)).getD [] ++
    ((given ids.esp).map ("&esp=".toList ++ ·)).getD untrackedProvider

theorem queryOf_pixel : queryOf (createTrackingPixel env ids) = beforeHash (pixelQuery ids) :=
  queryOf_append (plain_prodUrl_append env (by unfold PlainAddress; decide)) _

/-- Without a provider the pixel does not name its ids. -/
theorem not_idsRight_untracked (h : given ids.esp = none) :
    ¬ IdsRight ids (createTrackingPixel env ids) := by
  intro hright
  have hsub := idParams_subset hright
  rw [queryOf_pixel] at hsub
  have hmessage : ("message_id".toList, ids.messageId) ∈ parseQsl (beforeHash (pixelQuery ids)) :=
    hsub (by simp [idParams])
  unfold pixelQuery at hsub hmessage
  rw [h] at hsub hmessage
  cases hcontact : given ids.contactId with
  | none =>
    rw [hcontact] at hmessage
    have hquery : ∀ m : UrlText, beforeHash ("message_id=".toList ++ m ++ [] ++ untrackedProvider) =
        "message_id".toList ++ '=' :: beforeHash (m ++ untrackedProvider) := by
      intro m
      rw [List.append_nil, List.append_assoc, beforeHash_append (by decide)]
      rfl
    change _ ∈ parseQsl (beforeHash ("message_id=".toList ++ _ ++ [] ++ untrackedProvider))
      at hmessage
    rw [hquery] at hmessage
    exact not_mem_suffixed (by decide) _ hmessage
  | some c =>
    have hin : ("contact_id".toList, c) ∈ idParams ids := by
      unfold idParams
      rw [List.mem_append, List.mem_cons, mem_param]
      exact .inl (.inr ⟨rfl, hcontact⟩)
    have hmem := hsub hin
    rw [hcontact] at hmem hmessage
    simp only [Option.map_some, Option.getD_some, Option.map_none, Option.getD_none,
      List.append_assoc] at hmem hmessage
    exact not_both_suffixed _ c hmessage hmem

theorem pixelQuery_eq {esp : UrlText} (h : ids.esp = some esp) (hne : esp ≠ []) :
    pixelQuery ids = render (idParams ids) := by
  have hesp : given ids.esp = some esp := by
    rw [h]
    simp [given, hne]
  unfold pixelQuery idParams
  rw [hesp, h]
  cases given ids.contactId with
  | none => simp [param, render, List.intercalate]
  | some c => simp [param, render, List.intercalate]

/-- A pixel names its ids exactly if there is a provider and all of them survive. -/
theorem idsRight_pixel_iff :
    IdsRight ids (createTrackingPixel env ids) ↔
      Survives ids.messageId ∧ (∀ id ∈ given ids.contactId, Survives id) ∧
        ∃ esp, ids.esp = some esp ∧ esp ≠ [] ∧ Survives esp := by
  by_cases htracked : ∃ esp, ids.esp = some esp ∧ esp ≠ []
  · obtain ⟨esp, hesp, hne⟩ := htracked
    have hnd : (idParams ids).Nodup := ((keys_idParams ids).nodup (by decide)).of_map _
    have hquery : queryOf (createTrackingPixel env ids) = beforeHash (render (idParams ids)) := by
      rw [queryOf_pixel, pixelQuery_eq ids hesp hne]
    have hclean : (∀ e ∈ idParams ids, CleanPair e) ↔
        Survives ids.messageId ∧ (∀ id ∈ given ids.contactId, Survives id) ∧
          ∃ esp, ids.esp = some esp ∧ esp ≠ [] ∧ Survives esp := by
      rw [clean_idParams, hesp]
      simp [hne]
    rw [← hclean]
    constructor
    · intro hright
      have hsub := idParams_subset hright
      rw [hquery] at hsub
      exact (render_subset_iff hnd).mp hsub
    · intro hall
      have hpaste : paste [idParams ids] = render (idParams ids) := List.append_nil _
      have hhash : '#' ∉ render (idParams ids) := by
        rw [← hpaste]
        exact hash_not_mem_paste (by simpa using hall)
      have hperm : (parseQsl (queryOf (createTrackingPixel env ids))).Perm
          (idParams ids ++ []) := by
        rw [hquery, beforeHash_of_not_mem hhash, parseQsl_render hall, List.append_nil]
      exact idsRight_of_perm (by simp) (by simp) hperm
  · have hnone : given ids.esp = none := by
      unfold given
      rw [Option.filter_eq_none_iff]
      intro esp hesp hne
      exact htracked ⟨esp, hesp, of_decide_eq_true hne⟩
    refine iff_of_false (not_idsRight_untracked env ids hnone) ?_
    rintro ⟨-, -, esp, hesp, hne, -⟩
    exact htracked ⟨esp, hesp, hne⟩

/-! ## When tracking is right -/

/-- A tracked link is right for the URLs that are rebuilt and ids that survive. -/
theorem trackedLinkRight_iff {url : UrlText} (hhost : HasNetloc url)
    (hok : env.netlocOk (netlocOf url) = true ∧ env.netlocOk (netlocOf env.prodUrl) = true) :
    TrackedLinkRight env ids url ↔
      UrlGuard env url ∧ Survives ids.messageId ∧ ∀ id ∈ given ids.contactId, Survives id := by
  rw [← clean_addedParams]
  have htarget := sameTarget_visitLink_iff env ids url
  constructor
  · intro h
    obtain ⟨out, calls, hvisit, hsame⟩ := h.visit fun _ => ""
    obtain ⟨hforeign, hvalid, rfl⟩ :=
      (trackEmailLinks_iff env ids hhost hok.1 (fun _ => "") out).mp ⟨calls, hvisit⟩
    obtain ⟨hplain, hslash, hclean⟩ := htarget.mp hsame
    exact ⟨⟨hok, hforeign, hvalid, hplain, hslash⟩, hclean⟩
  · rintro ⟨hguard, hclean⟩
    refine ⟨idsRight_trackingUrl env ids url, fun uuid => ?_⟩
    obtain ⟨calls, hvisit⟩ := (trackEmailLinks_iff env ids hhost hok.1 uuid _).mpr
      ⟨hguard.foreign, hguard.valid, rfl⟩
    exact ⟨_, calls, hvisit, htarget.mpr ⟨hguard.plain, hguard.slash, hclean⟩⟩

/-- A text is tracked as it should be exactly under the guard. -/
theorem trackingRight_iff (content : Option UrlText) :
    TrackingRight env ids content ↔ TrackingGuard env ids content := by
  constructor
  · intro h
    have hnetlocs := (createLinkRe_iff env ids content).mp h.replaced
    obtain ⟨hmessage, hcontact, hesp⟩ := (idsRight_pixel_iff env ids).mp h.pixel
    refine ⟨hmessage, hcontact, hesp, fun s hs url hurl => ?_⟩
    exact ((trackedLinkRight_iff env ids (hasNetloc_of_mem hurl) (hnetlocs s hs url hurl)).mp
      (h.links s hs url hurl)).1
  · intro h
    refine ⟨?_, ?_, ?_⟩
    · exact (createLinkRe_iff env ids content).mpr fun s hs url hurl =>
        (h.urls s hs url hurl).netlocs
    · intro s hs url hurl
      have hguard := h.urls s hs url hurl
      exact (trackedLinkRight_iff env ids (hasNetloc_of_mem hurl) hguard.netlocs).mpr
        ⟨hguard, h.messageId, h.contactId⟩
    · exact (idsRight_pixel_iff env ids).mpr ⟨h.messageId, h.contactId, h.esp⟩

end Pixel

/-- A server whose validator looks at the scheme. -/
def exampleServer : TrackEnv where
  prodUrl := "https://notifyr.example".toList
  netlocOk _ := true
  urlValidator url := "http".toList.isPrefixOf url
  plain := by unfold PlainAddress; decide
  absolute := by decide
  relative := by
    rintro url (rfl | h | h)
    · rfl
    · obtain ⟨rest, rfl⟩ := List.head?_eq_some_iff.mp h
      rfl
    · obtain ⟨rest, rfl⟩ := List.head?_eq_some_iff.mp h
      rfl

/-- A message to a contact, with a provider. -/
def exampleIds : TrackIds where
  messageId := "m1".toList
  contactId := some "c1".toList
  esp := some "Google".toList

/-- The visit of a link without a slash at its end leads to another path. -/
theorem slash_added : ¬ TrackingRight exampleServer exampleIds
    (some "Go to https://shop.example/cart now".toList) := by
  intro h
  have hmem : "https://shop.example/cart".toList ∈
      urlsOf "Go to https://shop.example/cart now".toList := by decide
  obtain ⟨out, calls, hvisit, hsame⟩ := (h.links _ rfl _ hmem).visit fun _ => ""
  obtain ⟨-, -, rfl⟩ := (trackEmailLinks_iff exampleServer exampleIds (hasNetloc_of_mem hmem) rfl
    (fun _ => "") out).mp ⟨calls, hvisit⟩
  have hbase := hsame.base
  revert hbase
  decide

end Notifyr
