import Notifyr.Runtime.Effect
import Notifyr.Runtime.Urllib

/-!
# SMS and calls of the Twilio services

`SMSService.__send_sms__`, `CallService.__create_call_sync__` and `__create_call_async__`
(`app/services/ntfr/twilio_service.py`), and the events that `ProfileEventInterface.EventWrapper`
streams after them.

- `Channel`: what the two services differ in; `smsService` and `callService`.
- `setUrl`: the address that the provider reports the status to.
- `sendOne`: the body of the three loops; `sendSms`, `createCall`: the loops.
- `eventWrapper`: what a caller of a service gets.
- `DeliveryRight`: one request, one result and one event per recipient, as asked for.
- `urlRight_iff`: when the provider's report names the subject and the tracked message.
- `deliveryRight_iff`: when a send does what it is for.
-/

namespace Notifyr

/-! ## The provider -/

/-- What `response_extractor` reads of a `MessageInstance`; a date as `str` prints it. -/
structure MessageInstance where
  dateCreated : String
  dateSent : String
  dateUpdated : String
  price : Option String
  priceUnit : Option String
  status : String
  sid : String
  messagingServiceSid : Option String

/-- The dictionary it makes. -/
structure MessageDict where
  dateCreated : String
  dateSent : String
  dateUpdated : String
  price : Option String
  priceUnit : Option String
  status : String
  sid : String
  messageServiceSid : Option String

/-- What it reads of a `CallInstance`; of the duration, what `int` makes of it. -/
structure CallInstance where
  callerName : Option String
  dateCreated : Option String
  dateUpdated : Option String
  endTime : Option String
  duration : Option (Py ℤ)
  answeredBy : Option String
  price : Option String
  priceUnit : Option String
  sid : String
  direction : String
  status : String
  queueTime : Option String
  startTime : Option String

/-- The dictionary it makes. -/
structure CallDict where
  callerName : Option String
  dateCreated : Option String
  dateUpdated : Option String
  endTime : Option String
  duration : Option ℤ
  answeredBy : Option String
  price : Option String
  priceUnit : Option String
  sid : String
  direction : String
  status : String
  queueTime : Option String
  startTime : Option String

/-- How a request to the provider ends. -/
inductive ProviderOutcome (ι : Type)
  | success (response : ι)
  | twilioRestException (msg code : String)
  | exception

/-- What the variable `result` holds: the provider's object, the dictionary made of it, or
`None`. -/
inductive SendResult (ι δ : Type)
  | object (response : ι)
  | extracted (fields : δ)
  | absent

/-- An event of a message or a call; `trackingId` is its `sms_id` or `call_id`, where it has one. -/
structure TwilioEvent where
  eventId : String
  sid : String
  trackingId : Option UrlText
  direction : String
  currentEvent : String
  dateEventReceived : String
  description : String

/-- What the services differ in. -/
structure Channel (ι δ : Type) where
  /-- `status_callback_type`; `none` is the `...` of the base class. -/
  statusCallbackType : Option UrlText
  /-- The arguments of a request that are the same in each. -/
  constants : List (String × List String)
  responseExtractor : ι → Py δ
  stream : String
  event : (eventId : String) → ι → (trackingId : UrlText) → (status now description : String) →
    TwilioEvent

/-- `SMSService.response_extractor`. -/
def extractMessage (message : MessageInstance) : Py MessageDict :=
  pure {
    dateCreated := message.dateCreated
    dateSent := message.dateSent
    dateUpdated := message.dateUpdated
    price := message.price
    priceUnit := message.priceUnit
    status := message.status
    sid := message.sid
    messageServiceSid := message.messagingServiceSid }

/-- `CallService.response_extractor`. -/
def extractCall (result : CallInstance) : Py CallDict := do
  let duration ← result.duration.mapM id
  pure {
    callerName := result.callerName
    dateCreated := result.dateCreated
    dateUpdated := result.dateUpdated
    endTime := result.endTime
    duration
    answeredBy := result.answeredBy
    price := result.price
    priceUnit := result.priceUnit
    sid := result.sid
    direction := result.direction
    status := result.status
    queueTime := result.queueTime
    startTime := result.startTime }

/-- `SMSService`: its event has no `sms_id`. -/
def smsService : Channel MessageInstance MessageDict where
  statusCallbackType := some "?type=sms".toList
  constants := [("provide_feedback", ["True"]), ("send_as_mms", ["True"])]
  responseExtractor := extractMessage
  stream := "TWILIO_EVENT_STREAM_SMS"
  event eventId result _ status now description :=
    { eventId, sid := result.sid, trackingId := none, direction := "O", currentEvent := status
      dateEventReceived := now, description }

/-- `CallService`, which leaves `status_callback_type` as the base class has it. -/
def callService : Channel CallInstance CallDict where
  statusCallbackType := none
  constants := [("method", ["GET"]), ("status_callback_method", ["POST"]),
    ("status_callback_event",
      ["initiated", "ringing", "answered", "completed", "busy", "failed", "no-answer"])]
  responseExtractor := extractCall
  stream := "TWILIO_EVENT_STREAM_CALL"
  event eventId result trackingId status now description :=
    { eventId, sid := result.sid, trackingId := some trackingId, direction := "O"
      currentEvent := status, dateEventReceived := now, description }

/-! ## The loops -/

/-- `APP_MODE`. -/
inductive TwilioContext
  | server
  | worker
  deriving DecidableEq

/-- A request to the provider. -/
structure TwilioRequest (γ : Type) where
  method : String
  recipient : String
  statusCallback : UrlText
  constants : List (String × List String)
  data : γ

/-- The requests that were made and the events that were streamed. -/
structure TwilioWorld (γ : Type) where
  requests : List (TwilioRequest γ) := []
  streamed : List (String × TwilioEvent) := []

/-- A computation on them. -/
abbrev SendM (γ : Type) := EffectM (TwilioWorld γ)

/-- What a service is asked to send; `data` are the entries of the dictionary other than `to`. -/
structure SendJob (γ : Type) where
  recipients : List String
  subjectId : Option UrlText
  twilioTracking : Option (List UrlText)
  data : γ

/-- The account, the provider's answers and the clock. -/
structure SendEnv (ι : Type) where
  mode : TwilioContext
  twilioUrl : UrlText
  provider : ℕ → ProviderOutcome ι
  now : ℕ → String
  uuidV1Mc : ℕ → String

variable {ι δ γ : Type}

/-- `TwilioAccountMiniService.logs_url`. -/
def SendEnv.logsUrl (env : SendEnv ι) : UrlText := env.twilioUrl ++ "/status/logs".toList

/-- `get_value_in_list`: `None` on any error. -/
def getValueInList {α : Type} (data : Option (List α)) (index : ℕ) : Option α :=
  data.bind fun values => values[index]?

/-- `BaseTwilioCommunication.set_url`. -/
def setUrl (statusCallbackType : Option UrlText) (statusCallback : UrlText)
    (subjectId twilioTracking : Option UrlText) : Py UrlText :=
  match statusCallbackType with
  | none => .error .typeError
  | some kind =>
    let url := statusCallback ++ kind
    let url := url ++ (subjectId.map ("&subject_id=".toList ++ ·)).getD []
    .ok (url ++ (twilioTracking.map ("twilio_tracking_id=".toList ++ ·)).getD [])

namespace ProviderOutcome

/-- What is left in `result`. -/
def result (extract : ι → Py δ) : ProviderOutcome ι → SendResult ι δ
  | success response =>
    match extract response with
    | .ok fields => .extracted fields
    | .error _ => .absent
  | twilioRestException _ _ => .absent
  | exception => .absent

/-- What is left in `status`. -/
def status (extract : ι → Py δ) : ProviderOutcome ι → String
  | success response => if (extract response).isOk then "SENT" else "FAILED"
  | twilioRestException _ _ => "FAILED"
  | exception => "FAILED"

/-- What is left in `description`. -/
def description (extract : ι → Py δ) : ProviderOutcome ι → String
  | success response =>
    if (extract response).isOk then "Sent request to third-party API"
    else "Failed to send the request"
  | twilioRestException msg code =>
    "Third Party Api could not process the request message: " ++ msg ++ " code:" ++ code ++ " "
  | exception => "Failed to send the request"

end ProviderOutcome

/-- The event of the `finally` clause: only for a tracked recipient and while `result` is the
provider's own object. -/
def finallyEvent (channel : Channel ι δ) (env : SendEnv ι) (job : SendJob γ) (i : ℕ) :
    SendResult ι δ → Option TwilioEvent
  | .object response =>
    match getValueInList job.twilioTracking i with
    | some trackingId =>
      if trackingId = [] then none
      else some (channel.event (env.uuidV1Mc i) response trackingId
        ((env.provider i).status channel.responseExtractor) (env.now i)
        ((env.provider i).description channel.responseExtractor))
    | none => none
  | _ => none

/-- The body of the loops, for the recipient at position `i`. `set_url` stands before the
`try`. -/
def sendOne (channel : Channel ι δ) (env : SendEnv ι) (job : SendJob γ) (i : ℕ)
    (recipient : String) : SendM γ (SendResult ι δ × Option TwilioEvent) := do
  let url ← EffectM.lift <| setUrl channel.statusCallbackType env.logsUrl job.subjectId
    (getValueInList job.twilioTracking i)
  modify fun w => { w with
    requests := w.requests ++ [{
      method := if env.mode = .server then "create_async" else "create"
      recipient, statusCallback := url, constants := channel.constants, data := job.data }] }
  let result := (env.provider i).result channel.responseExtractor
  pure (result, finallyEvent channel env job i result)

/-- What the loops return: the results, and the stream with the events for it. -/
abbrev SendReturn (ι δ : Type) := List (SendResult ι δ) × String × List TwilioEvent

/-- `SMSService.__send_sms__`. The `return` stands in the body of the loop; without a recipient
the function ends without one. -/
def sendSms (env : SendEnv MessageInstance) (job : SendJob γ) :
    SendM γ (Option (SendReturn MessageInstance MessageDict)) :=
  match job.recipients with
  | [] => pure none
  | recipient :: _ => do
    let (result, event) ← sendOne smsService env job 0 recipient
    pure (some ([result], smsService.stream, event.toList))

/-- The recipients from position `i` on, after `results` and `events`. -/
def callLoop (env : SendEnv CallInstance) (job : SendJob γ) (i : ℕ)
    (results : List (SendResult CallInstance CallDict)) (events : List TwilioEvent) :
    List String → SendM γ (Option (SendReturn CallInstance CallDict))
  | [] => pure (some (results, callService.stream, events))
  | recipient :: rest => do
    let (result, event) ← sendOne callService env job i recipient
    callLoop env job (i + 1) (results ++ [result]) (events ++ event.toList) rest

/-- `CallService.__create_call_sync__` and `__create_call_async__`. -/
def createCall (env : SendEnv CallInstance) (job : SendJob γ) :
    SendM γ (Option (SendReturn CallInstance CallDict)) :=
  callLoop env job 0 [] [] job.recipients

/-- `ProfileEventInterface.EventWrapper`: `result[1]` is streamed and `result[0]` returned. -/
def eventWrapper (func : SendM γ (Option (SendReturn ι δ))) : SendM γ (List (SendResult ι δ)) := do
  match ← func with
  | none => throw .typeError
  | some (results, stream, events) =>
    modify fun w => { w with streamed := w.streamed ++ events.map fun e => (stream, e) }
    pure results

/-! ## What a send is for -/

/-- A status callback names the subject and the tracked message it was made from. -/
def UrlRight (subjectId twilioTracking : Option UrlText) (url : UrlText) : Prop :=
  queryParam url "subject_id".toList = subjectId ∧
    queryParam url "twilio_tracking_id".toList = twilioTracking

/-- The tracking id and the outcome of each tracked recipient. -/
def trackedOutcomes (channel : Channel ι δ) (env : SendEnv ι) (job : SendJob γ) :
    List (Option UrlText × String) :=
  job.recipients.zipIdx.filterMap fun entry =>
    ((getValueInList job.twilioTracking entry.2).filter (· ≠ [])).map fun trackingId =>
      (some trackingId, (env.provider entry.2).status channel.responseExtractor)

/-- What a send leaves: its value and the world after it. -/
abbrev SendOutcome (ι δ γ : Type) := Py (List (SendResult ι δ)) × TwilioWorld γ

/-- One request, one result and one event per recipient, as asked for. -/
structure DeliveryRight (channel : Channel ι δ) (env : SendEnv ι) (job : SendJob γ)
    (out : SendOutcome ι δ γ) : Prop where
  requests : out.2.requests.map TwilioRequest.recipient = job.recipients
  results : out.1 = .ok (job.recipients.zipIdx.map fun entry =>
    (env.provider entry.2).result channel.responseExtractor)
  events : (out.2.streamed.map fun e => (e.2.trackingId, e.2.currentEvent)).Perm
    (trackedOutcomes channel env job)
  urls : ∀ i request, out.2.requests[i]? = some request →
    UrlRight job.subjectId (getValueInList job.twilioTracking i) request.statusCallback

/-! ## The status callback -/

/-- The query string of a callback for an SMS. -/
def callbackQuery (subjectId twilioTracking : Option UrlText) : UrlText :=
  "type=sms".toList ++ ((subjectId.map ("&subject_id=".toList ++ ·)).getD [] ++
    (twilioTracking.map ("twilio_tracking_id=".toList ++ ·)).getD [])

theorem setUrl_sms (base : UrlText) (subjectId twilioTracking : Option UrlText) :
    setUrl smsService.statusCallbackType base subjectId twilioTracking =
      .ok (base ++ '?' :: callbackQuery subjectId twilioTracking) := by
  unfold setUrl smsService callbackQuery
  simp [List.append_assoc]

theorem parseQsl_type (rest : UrlText) :
    parseQsl ("type=sms".toList ++ '&' :: rest) =
      ("type".toList, "sms".toList) :: parseQsl rest := by
  have hsms : unquotePlus "sms".toList = "sms".toList :=
    unquotePlus_of_not_mem (by decide) (by decide)
  rw [parseQsl_append]
  show parseQsl ("type".toList ++ '=' :: "sms".toList) ++ _ = _
  rw [parseQsl_pasted (by decide) (by decide), hsms]
  rfl

theorem callbackQuery_subject (s rest : UrlText) :
    parseQsl (beforeHash ("type=sms&subject_id=".toList ++ (s ++ rest))) =
      ("type".toList, "sms".toList) ::
        parseQsl ("subject_id".toList ++ '=' :: beforeHash (s ++ rest)) := by
  rw [beforeHash_append (by decide), ← parseQsl_type]
  rfl

/-- The query string of an SMS that is not tracked, for a subject that survives. -/
theorem parseQsl_survives {s : UrlText} (h : Survives s) :
    parseQsl (beforeHash (callbackQuery (some s) none)) =
      [("type".toList, "sms".toList), ("subject_id".toList, s)] := by
  obtain ⟨hamp, hhash, hs⟩ := h
  have hquery : callbackQuery (some s) none = "type=sms&subject_id=".toList ++ (s ++ []) := rfl
  rw [hquery, callbackQuery_subject, List.append_nil, beforeHash_of_not_mem hhash,
    parseQsl_pasted (by decide) hamp, hs]

/-- Without a tracking id the subject is read back if it survives. -/
theorem subject_iff (s : UrlText) :
    ("subject_id".toList, s) ∈ parseQsl (beforeHash (callbackQuery (some s) none)) ↔
      Survives s := by
  have hquery : callbackQuery (some s) none = "type=sms&subject_id=".toList ++ (s ++ []) := rfl
  constructor
  · intro h
    rw [hquery, callbackQuery_subject, List.append_nil] at h
    rcases List.mem_cons.mp h with hk | h
    · simp at hk
    · have hle := weight_value_le weightless_light light_amp (by decide) h
      have hhash : '#' ∉ s := fun hs => by
        have hlt := weight_beforeHash_lt light_hash hs
        simp only at hle
        omega
      rw [beforeHash_of_not_mem hhash] at h
      have hamp : '&' ∉ s := fun hs =>
        absurd (weight_value_lt weightless_light light_amp (by decide) hs h) (by simp)
      rw [parseQsl_pasted (by decide) hamp, List.mem_singleton] at h
      exact ⟨hamp, hhash, (congrArg Prod.snd h).symm⟩
  · intro h
    rw [parseQsl_survives h]
    simp

/-- A tracking id is not read back beside the subject. -/
theorem tracking_lost_subject (s t : UrlText)
    (hs : ("subject_id".toList, s) ∈ parseQsl (beforeHash (callbackQuery (some s) (some t)))) :
    ("twilio_tracking_id".toList, t) ∉
      parseQsl (beforeHash (callbackQuery (some s) (some t))) := by
  have hcut := weight_beforeHash_le (z := light) t
  have hquery : callbackQuery (some s) (some t) =
      "type=sms&subject_id=".toList ++ (s ++ ("twilio_tracking_id=".toList ++ t)) := rfl
  rw [hquery, callbackQuery_subject] at hs ⊢
  intro ht
  have hsubject := List.mem_of_ne_of_mem (by simp) hs
  have htracking := List.mem_of_ne_of_mem (by simp) ht
  by_cases hhash : '#' ∈ s
  · -- the fragment takes the rest of the subject
    obtain ⟨s₁, s₂, rfl, hs₁⟩ := List.eq_append_cons_of_mem hhash
    have hcut : beforeHash (s₁ ++ '#' :: s₂ ++ ("twilio_tracking_id=".toList ++ t)) = s₁ := by
      rw [List.append_assoc, beforeHash_append hs₁]
      exact List.append_nil s₁
    have hle := weight_value_le weightless_light light_amp (by decide) hsubject
    simp only at hle
    rw [hcut, weight_append, weight_cons, if_neg (by decide)] at hle
    omega
  · rw [beforeHash_append hhash, beforeHash_append (by decide)] at hsubject htracking
    by_cases hamp : '&' ∈ s
    · -- the subject would have to come after its first separator, beside the tracking id
      obtain ⟨s₁, s₂, rfl, hs₁⟩ := List.eq_append_cons_of_mem hamp
      rw [List.append_assoc, List.cons_append, parseQsl_pasted_append (by decide) hs₁]
        at hsubject htracking
      have htracking := List.mem_of_ne_of_mem (by simp) htracking
      rcases List.mem_cons.mp hsubject with heq | hsubject
      · have hweight := congrArg (fun e => weight light e.2) heq
        have hle := weight_unquotePlus_le weightless_light s₁
        simp only [weight_append, weight_cons] at hweight
        rw [if_neg (by decide)] at hweight
        omega
      · have hpairs := weight_pairs_le weightless_light light_amp (by simp) (List.cons_subset.mpr
          ⟨hsubject, List.cons_subset.mpr ⟨htracking, List.nil_subset _⟩⟩)
        have hkeys : weight light "subject_id".toList = 10 ∧
            weight light "twilio_tracking_id".toList = 18 ∧
            weight light "twilio_tracking_id=".toList = 18 := by decide
        simp only [List.map_cons, List.map_nil, List.sum_cons, List.sum_nil, pairWeight,
          weight_append, weight_cons] at hpairs
        rw [if_neg (by decide)] at hpairs
        omega
    · rw [← List.append_assoc] at htracking
      have hprefix : '&' ∉ s ++ "twilio_tracking_id=".toList := by
        simp [hamp]
      rcases mem_parseQsl_pasted weightless_light light_amp (by decide) hprefix htracking with
        hk | hk
      · simp at hk
      · simp only at hk
        omega

/-- A tracking id alone is not read back. -/
theorem tracking_lost (t : UrlText) :
    ("twilio_tracking_id".toList, t) ∉ parseQsl (beforeHash (callbackQuery none (some t))) := by
  intro h
  have hcut := weight_beforeHash_le (z := light) t
  have hquery : callbackQuery none (some t) = "type=smstwilio_tracking_id=".toList ++ t := rfl
  rw [hquery, beforeHash_append (by decide)] at h
  have hpair : "type=smstwilio_tracking_id=".toList ++ beforeHash t =
      "type".toList ++ '=' :: ("smstwilio_tracking_id=".toList ++ beforeHash t) := rfl
  rw [hpair] at h
  rcases mem_parseQsl_pasted weightless_light light_amp (by decide) (by decide) h with hk | hk
  · simp at hk
  · simp only at hk
    omega

/-- The callback of an SMS names what it was made from if the message is not tracked and the
subject survives. -/
theorem urlRight_iff {address : UrlText} (h : PlainAddress address)
    (subjectId twilioTracking : Option UrlText) :
    UrlRight subjectId twilioTracking
        (address ++ "/status/logs".toList ++ '?' :: callbackQuery subjectId twilioTracking) ↔
      twilioTracking = none ∧ ∀ s, subjectId = some s → Survives s := by
  have hquery : queryOf (address ++ "/status/logs".toList ++
      '?' :: callbackQuery subjectId twilioTracking) =
        beforeHash (callbackQuery subjectId twilioTracking) :=
    queryOf_append ⟨by simp [h.1], by simp [h.2]⟩ _
  constructor
  · rintro ⟨hsubject, htracking⟩
    cases twilioTracking with
    | some t =>
      have ht := mem_of_queryParam htracking
      rw [hquery] at ht
      cases subjectId with
      | none => exact absurd ht (tracking_lost t)
      | some s =>
        have hs := mem_of_queryParam hsubject
        rw [hquery] at hs
        exact absurd ht (tracking_lost_subject s t hs)
    | none =>
      refine ⟨rfl, ?_⟩
      rintro s rfl
      have hs := mem_of_queryParam hsubject
      rw [hquery] at hs
      exact (subject_iff s).mp hs
  · rintro ⟨rfl, hsurvives⟩
    cases subjectId with
    | none =>
      have hpairs : parseQsl (beforeHash (callbackQuery none none)) =
          [("type".toList, unquotePlus "sms".toList)] :=
        parseQsl_pasted (k := "type".toList) (v := "sms".toList) (by decide) (by decide)
      exact ⟨queryParam_eq_none (by rw [hquery, hpairs]; simp),
        queryParam_eq_none (by rw [hquery, hpairs]; simp)⟩
    | some s =>
      have hpairs := parseQsl_survives (hsurvives s rfl)
      refine ⟨?_, queryParam_eq_none (by rw [hquery, hpairs]; simp)⟩
      rw [queryParam_eq_some_iff (by rw [hquery, hpairs]; simp), hquery, hpairs]
      simp

/-! ## What a send does -/

theorem result_ne_object (extract : ι → Py δ) (outcome : ProviderOutcome ι) (response : ι) :
    outcome.result extract ≠ .object response := by
  cases outcome with
  | success r =>
    rw [ProviderOutcome.result]
    cases extract r with
    | ok fields =>
      intro h
      cases h
    | error e =>
      intro h
      cases h
  | twilioRestException msg code =>
    intro h
    cases h
  | exception =>
    intro h
    cases h

/-- `response_extractor` never returns the provider's object, so no event is made. -/
theorem finallyEvent_result (channel : Channel ι δ) (env : SendEnv ι) (job : SendJob γ) (i : ℕ) :
    finallyEvent channel env job i ((env.provider i).result channel.responseExtractor) = none := by
  cases h : (env.provider i).result channel.responseExtractor with
  | object response => exact absurd h (result_ne_object _ _ response)
  | extracted fields => rfl
  | absent => rfl

/-- The request for the first recipient of an SMS. -/
def firstRequest (env : SendEnv MessageInstance) (job : SendJob γ) (recipient : String) :
    TwilioRequest γ where
  method := if env.mode = .server then "create_async" else "create"
  recipient
  statusCallback := env.logsUrl ++
    '?' :: callbackQuery job.subjectId (getValueInList job.twilioTracking 0)
  constants := smsService.constants
  data := job.data

/-- An SMS is sent to the first recipient, and no event is streamed. -/
theorem run_sendSms_cons (env : SendEnv MessageInstance) (job : SendJob γ) {recipient : String}
    {rest : List String} (h : job.recipients = recipient :: rest) :
    (eventWrapper (sendSms env job)).run {} =
      (.ok [(env.provider 0).result extractMessage],
        { requests := [firstRequest env job recipient] }) := by
  unfold eventWrapper sendSms sendOne
  rw [h, setUrl_sms]
  simp only [EffectM.run_bind]
  rw [finallyEvent_result]
  rfl

/-- Without a recipient the wrapper subscripts `None`. -/
theorem run_sendSms_nil (env : SendEnv MessageInstance) (job : SendJob γ)
    (h : job.recipients = []) :
    (eventWrapper (sendSms env job)).run {} = (.error .typeError, {}) := by
  unfold eventWrapper sendSms
  rw [h]
  rfl

/-- A call to anyone ends in the `+` of a text and `...`. -/
theorem run_createCall_cons (env : SendEnv CallInstance) (job : SendJob γ) {recipient : String}
    {rest : List String} (h : job.recipients = recipient :: rest) :
    (eventWrapper (createCall env job)).run {} = (.error .typeError, {}) := by
  unfold eventWrapper createCall
  rw [h]
  rfl

theorem run_createCall_nil (env : SendEnv CallInstance) (job : SendJob γ)
    (h : job.recipients = []) :
    (eventWrapper (createCall env job)).run {} = (.ok [], {}) := by
  unfold eventWrapper createCall
  rw [h]
  rfl

/-- No outcome is expected where the only recipient is not tracked. -/
theorem trackedOutcomes_untracked (channel : Channel ι δ) (env : SendEnv ι) {job : SendJob γ}
    {recipient : String} (h : job.recipients = [recipient])
    (htracking : getValueInList job.twilioTracking 0 = none) :
    trackedOutcomes channel env job = [] := by
  unfold trackedOutcomes
  rw [h]
  simp [htracking]

/-! ## When a send does what it is for -/

/-- An SMS to exactly one recipient, not tracked, whose subject survives. -/
structure SmsGuard (job : SendJob γ) : Prop where
  recipients : ∃ recipient, job.recipients = [recipient]
  untracked : getValueInList job.twilioTracking 0 = none
  subject : ∀ s, job.subjectId = some s → Survives s

theorem sms_right_iff (env : SendEnv MessageInstance) (h : PlainAddress env.twilioUrl)
    (job : SendJob γ) :
    DeliveryRight smsService env job ((eventWrapper (sendSms env job)).run {}) ↔ SmsGuard job := by
  cases hto : job.recipients with
  | nil =>
    rw [run_sendSms_nil env job hto]
    constructor
    · intro hright
      cases hright.results
    · rintro ⟨⟨recipient, hr⟩, -, -⟩
      rw [hr] at hto
      cases hto
  | cons recipient rest =>
    rw [run_sendSms_cons env job hto]
    constructor
    · rintro ⟨hrequests, -, hevents, hurls⟩
      have hrest : job.recipients = [recipient] := hrequests.symm
      have hurl := hurls 0 _ rfl
      obtain ⟨huntracked, hsubject⟩ := (urlRight_iff h _ _).mp hurl
      exact ⟨⟨recipient, hrest⟩, huntracked, hsubject⟩
    · rintro ⟨⟨r, hr⟩, huntracked, hsubject⟩
      rw [hr] at hto
      cases hto
      refine ⟨hr.symm, ?_, ?_, ?_⟩
      · rw [hr]
        rfl
      · rw [trackedOutcomes_untracked _ _ hr huntracked]
        exact List.Perm.refl []
      · intro i request hi
        cases i with
        | zero =>
          cases hi
          rw [huntracked]
          show UrlRight job.subjectId none (env.logsUrl ++ '?' :: callbackQuery job.subjectId
            (getValueInList job.twilioTracking 0))
          rw [huntracked]
          exact (urlRight_iff h job.subjectId none).mpr ⟨rfl, hsubject⟩
        | succ i => cases hi

theorem call_right_iff (env : SendEnv CallInstance) (job : SendJob γ) :
    DeliveryRight callService env job ((eventWrapper (createCall env job)).run {}) ↔
      job.recipients = [] := by
  cases hto : job.recipients with
  | nil =>
    rw [run_createCall_nil env job hto]
    refine iff_of_true ⟨hto.symm, ?_, ?_, ?_⟩ rfl
    · rw [hto]
      rfl
    · unfold trackedOutcomes
      rw [hto]
      exact List.Perm.refl []
    · intro i request hi
      cases hi
  | cons recipient rest =>
    rw [run_createCall_cons env job hto]
    refine iff_of_false ?_ (List.cons_ne_nil _ _)
    intro hright
    cases hright.results

/-- A send does what it is for exactly if it is an SMS under `SmsGuard`, or a call to nobody. -/
theorem deliveryRight_iff (sms : SendEnv MessageInstance) (call : SendEnv CallInstance)
    (h : PlainAddress sms.twilioUrl) (job : SendJob γ) :
    (DeliveryRight smsService sms job ((eventWrapper (sendSms sms job)).run {}) ↔ SmsGuard job) ∧
      (DeliveryRight callService call job ((eventWrapper (createCall call job)).run {}) ↔
        job.recipients = []) :=
  ⟨sms_right_iff sms h job, call_right_iff call job⟩

/-- A provider that ends every request in one way. -/
def uniformEnv (outcome : ProviderOutcome ι) : SendEnv ι where
  mode := .server
  twilioUrl := "https://notifyr.example/twilio".toList
  provider _ := outcome
  now _ := "2025-01-01T00:00:00+00:00"
  uuidV1Mc _ := "00000000-0000-1000-8000-000000000000"

/-- A job for some recipients, with a plain subject and without tracking. -/
def plainJob (recipients : List String) : SendJob Unit where
  recipients
  subjectId := some "abc".toList
  twilioTracking := some []
  data := ()

theorem deliveryRight_uniformEnv :
    (DeliveryRight smsService (uniformEnv .exception) (plainJob ["+15145550100"])
      ((eventWrapper (sendSms (uniformEnv .exception) (plainJob ["+15145550100"]))).run {}) ↔
        SmsGuard (plainJob ["+15145550100"])) ∧
    (DeliveryRight callService (uniformEnv .exception) (plainJob ["+15145550100"])
      ((eventWrapper (createCall (uniformEnv .exception) (plainJob ["+15145550100"]))).run {}) ↔
        (plainJob ["+15145550100"]).recipients = []) :=
  deliveryRight_iff (uniformEnv .exception) (uniformEnv .exception) ⟨by decide, by decide⟩
    (plainJob ["+15145550100"])

/-- A message that the provider accepted. -/
def queuedMessage : MessageInstance where
  dateCreated := "2025-01-01 00:00:00+00:00"
  dateSent := "None"
  dateUpdated := "2025-01-01 00:00:00+00:00"
  price := none
  priceUnit := some "USD"
  status := "queued"
  sid := "SM0"
  messagingServiceSid := none

/-- Of two recipients the second gets no request. -/
theorem second_recipient_dropped :
    ¬ DeliveryRight smsService (uniformEnv (.success queuedMessage))
      (plainJob ["+15145550100", "+15145550101"])
      ((eventWrapper (sendSms (uniformEnv (.success queuedMessage))
        (plainJob ["+15145550100", "+15145550101"]))).run {}) := by
  intro h
  have hrequests := h.requests
  rw [run_sendSms_cons _ _ rfl] at hrequests
  cases hrequests

end Notifyr
