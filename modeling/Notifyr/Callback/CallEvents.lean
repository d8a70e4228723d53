import Mathlib
import Notifyr.Callback.Stream
import Notifyr.Theory.Batch
import Notifyr.Theory.Runs

/-!
# Call events

`Add_Twilio_Call_Event` (`app/callback/event_stream.py`): events of calls are to be counted under
the location of their call; those without one wait in the module's dictionary `Call_Ids`.

- `CallWorld`: `Call_Ids` and the dictionaries of one batch.
- `parkEvent`, `countEvent`: the two halves of the loop's body.
- `addTwilioCallEvent`: the handler on a batch; `CallRun`: what is left between batches.
- `CallsRight`: what a run of batches owes; `callsRight_iff`: when it does.
-/

namespace Notifyr

open Theory

attribute [local instance] lawfulBEq_option

/-! ## The data -/

/-- `CallStatusEnum`. -/
inductive CallStatus
  | received
  | completed
  | noAnswer
  | initiated
  | ringing
  | answered
  | failed
  | sent
  | bounce
  | inProgress
  | declined
  | rejected
  deriving DecidableEq

/-- Its value. -/
def CallStatus.value : CallStatus → String
  | received => "RECEIVED"
  | completed => "COMPLETED"
  | noAnswer => "NO-ANSWER"
  | initiated => "INITIATED"
  | ringing => "RINGING"
  | answered => "ANSWERED"
  | failed => "FAILED"
  | sent => "SENT"
  | bounce => "BOUNCE"
  | inProgress => "IN-PROGRESS"
  | declined => "DECLINED"
  | rejected => "REJECTED"

/-- `CallStatusEnum(value)`. -/
def CallStatus.ofValue (value : String) : Option CallStatus :=
  [received, completed, noAnswer, initiated, ringing, answered, failed, sent, bounce, inProgress,
    declined, rejected].find? fun status => status.value = value

/-- A value of `Call_Ids`. -/
structure CallSlot where
  key : Option Location := none
  temp : Option (List StreamVal) := none

/-- The counters of a location, by direction and name. -/
abbrev CallCounters := Dict (String × String) ℤ

/-- `create_analytics()`, without the text under `direction`. -/
def createAnalytics : CallCounters :=
  .ofEntries <| ["I", "O"].flatMap fun direction =>
    ["received", "sent", "started", "delivered", "failed", "bounce", "price", "no_answer",
      "declined", "rejected", "call_duration", "total_duration"].map fun name =>
        ((direction, name), 0)

/-- `Call_Ids` and what a batch fills. -/
structure CallWorld where
  callIds : Dict (Option String) CallSlot
  /-- The key may be `None`, too. -/
  analytics : Dict (Option Location) CallCounters := .empty
  objs : List StreamVal := []
  callTrackingStatus : Dict (Option String) (Option String) := .empty
  duration : Dict (Option String) (Dict String ℤ) := .empty

/-- A computation on them. -/
abbrev CallM := EffectM CallWorld

/-! ## The body of the loop -/

/-- `Call_Ids[call_id] = slot`, for a slot that has been changed. -/
def putSlot (callId : Option String) (slot : CallSlot) : CallM Unit :=
  modify fun w => { w with callIds := w.callIds.set callId slot }

/-- `Call_Ids[call_id]`. -/
def getSlot (callId : Option String) : CallM CallSlot := do
  EffectM.lift (getItem (← get).callIds callId)

/-- `analytics[key] = create_analytics()`. -/
def startAnalytics (key : Option Location) : CallM Unit :=
  modify fun w => { w with analytics := w.analytics.set key createAnalytics }

/-- Where an event is counted, and the events that are counted now. -/
def parkEvent (val : StreamVal) : CallM (Option Location × List StreamVal) := do
  let callId ← EffectM.lift (getItem val "call_id")
  if callId ∉ (← get).callIds.keys then
    if (← EffectM.lift (getItem val "city")) ≠ none then
      let country ← EffectM.lift (getItem val "country")
      let state ← EffectM.lift (getItem val "state")
      let city ← EffectM.lift (getItem val "city")
      let key := (country, state, city)
      -- the first target of the assignment is in the entry that is missing
      let slot ← getSlot callId
      putSlot callId { slot with key := some key }
      startAnalytics (some key)
      return (some key, [val])
    else
      let slot ← getSlot callId
      let temp := slot.temp.getD [] ++ [val]
      putSlot callId { slot with temp := some temp }
      let event ← EffectM.lift (getItem val "current_event")
      if event ∉ [some CallStatus.rejected.value, some CallStatus.failed.value] then
        if some nowhere ∉ (← get).analytics.keys then startAnalytics (some nowhere)
        return (some nowhere, temp)
      else return (none, [])
  else
    let slot ← getSlot callId
    match slot.temp with
    | some temp =>
      if (← EffectM.lift (getItem val "city")) ≠ none then
        -- `key` is still `None`
        startAnalytics none
        putSlot callId { slot with temp := some [] }
        return (none, temp)
      else
        putSlot callId { slot with temp := some (temp ++ [val]) }
        return (none, [])
    | none =>
      match slot.key with
      | some key => return (some key, [val])
      | none => throw .keyError

/-- `analytics[key][direction][name] += n`. -/
def bumpCall (key : Option Location) (direction : Option String) (name : String) (n : ℤ) :
    CallM Unit := do
  let counters ← EffectM.lift (getItem (← get).analytics key)
  match direction with
  | some direction =>
    let old ← EffectM.lift (getItem counters (direction, name))
    modify fun w =>
      { w with analytics := w.analytics.set key (counters.set (direction, name) (old + n)) }
  | none => throw .keyError

/-- `analytics[key][direction][name] += v[field]`: the fields of an entry are texts, or `None`. -/
def bumpField (v : StreamVal) (field : String) : CallM Unit := do
  let _ ← EffectM.lift (getItem v field)
  throw .typeError

/-- `CallEventORM(**val)`: `accepts` says whether the class takes the fields. -/
def callEventORM (accepts : StreamVal → Bool) (val : StreamVal) : Py StreamVal :=
  if accepts val then .ok val else .error .valueError

/-- One round of the inner loop: the row of an event and its counter. -/
def countEvent (accepts : StreamVal → Bool) (key : Option Location) (v : StreamVal) :
    CallM Unit := do
  let copy ← EffectM.lift (delItem v "correction")
  let copy ← EffectM.lift (delItem copy "price")
  let copy ← EffectM.lift (delItem copy "price_unit")
  let event ← EffectM.lift (callEventORM accepts copy)
  modify fun w => { w with objs := w.objs ++ [event] }
  let factor : ℤ := if (v.get? "correction").join.isSome then 1 else -1
  let current ← EffectM.lift (getItem v "current_event")
  let direction : CallM (Option String) := EffectM.lift (getItem v "direction")
  match current.bind CallStatus.ofValue with
  | some .received => bumpCall key (← direction) "received" factor
  | some .sent => bumpCall key (← direction) "sent" factor
  | some .rejected => bumpCall key (← direction) "sent" factor
  | some .initiated => bumpCall key (← direction) "started" factor
  | some .completed =>
    bumpCall key (← direction) "completed" factor
    bumpField v "call_duration"
  | some .declined =>
    bumpCall key (← direction) "declined" factor
    bumpField v "total_duration"
  | some .failed => bumpCall key (← direction) "failed" factor
  | some .bounce => bumpCall key (← direction) "bounce" factor
  | some .noAnswer => bumpCall key (← direction) "no-answer" factor
  | some .ringing | some .answered | some .inProgress | none => return ()

/-- The body of the `try`, on an entry. -/
def treatCall (accepts : StreamVal → Bool) (entry : StreamEntry) : CallM Unit := do
  let val := emptyStrToNone entry.val
  let (key, data) ← parkEvent val
  let callId ← EffectM.lift (getItem val "call_id")
  if key.isSome then
    modify fun w => { w with callIds := w.callIds.erase callId }
  let current ← EffectM.lift (getItem val "current_event")
  modify fun w => { w with callTrackingStatus := w.callTrackingStatus.set callId current }
  data.forM (countEvent accepts key)

/-- The loop: the ids of the valid and of the invalid entries, and what has been filled. -/
def treatCalls (accepts : StreamVal → Bool) :
    CallWorld → List StreamEntry → CallWorld × List String × List String
  | w, [] => (w, [], [])
  | w, entry :: entries =>
    match (treatCall accepts entry).run w with
    | (.ok (), w) =>
      let (w, valid, invalid) := treatCalls accepts w entries
      (w, entry.ids :: valid, invalid)
    | (.error _, w) =>
      let (w, valid, invalid) := treatCalls accepts w entries
      (w, valid, entry.ids :: invalid)

/-! ## The handler -/

/-- What the handler lets through: an exception of the interpreter, or the `FieldError` of
`tortoise`. -/
inductive CallbackExc
  | py (e : PyErr)
  | fieldError (field : String)

/-- The fields of `CallTrackingORM`. -/
def callTrackingFields : List String :=
  ["call_id", "call_sid", "contact", "contact_id", "recipient", "sender", "date_started",
    "last_update", "expired_tracking_date", "call_current_status", "duration", "total_duration",
    "price", "price_unit", "events"]

/-- `CallTrackingORM.filter(field__in=…)`. -/
def filterTracking (field : String) : Except CallbackExc Unit :=
  if field ∈ callTrackingFields then .ok () else .error (.fieldError field)

/-- A call of `bulk_upsert_call_analytics`, which takes one argument. -/
def bulkUpsertCallAnalytics (positional : ℕ) : Py Unit :=
  if positional = 1 then .ok () else .error .typeError

/-- What is left between batches: `Call_Ids`, the rows, and the analytics. -/
structure CallRun where
  callIds : Dict (Option String) CallSlot := .empty
  rows : List StreamVal := []
  counted : Option Location → String → String → ℤ := fun _ _ _ => 0

/-- `Add_Twilio_Call_Event`: the ids to acknowledge. The transaction is rolled back where the
analytics raise. -/
def addTwilioCallEvent (accepts : StreamVal → Bool) (run : CallRun)
    (entries : List StreamEntry) : Except CallbackExc (List String) × CallRun :=
  let (w, valid, invalid) := treatCalls accepts { callIds := run.callIds } entries
  let run := { run with callIds := w.callIds }
  match filterTracking "sms_id" with
  | .error e => (.error e, run)
  | .ok () =>
    match bulkUpsertCallAnalytics 2 with
    | .error _ => (.ok invalid, run)
    | .ok () =>
      let change := fun location direction name =>
        (w.analytics.get? location).bind fun counters => counters.get? (direction, name)
      (.ok (valid ++ invalid).dedup, { run with
        rows := run.rows ++ w.objs
        counted := fun location direction name =>
          run.counted location direction name + (change location direction name).getD 0 })

/-! ## What a run owes -/

/-- The counter of an event. -/
def CallStatus.counter : CallStatus → Option String
  | received => some "received"
  | sent => some "sent"
  | rejected => some "rejected"
  | initiated => some "started"
  | completed => some "completed"
  | declined => some "declined"
  | failed => some "failed"
  | bounce => some "bounce"
  | noAnswer => some "no_answer"
  | ringing | answered | inProgress => none

/-- The call is over after such an event. -/
def CallStatus.final : CallStatus → Bool
  | completed | noAnswer | failed | bounce | declined | rejected => true
  | received | initiated | ringing | answered | sent | inProgress => false

/-- A valid event. -/
structure CallEvent where
  callId : Option String
  direction : String
  status : CallStatus
  location : Option Location
  correction : Bool
  row : StreamVal

/-- The sign of an event. -/
def CallEvent.factor (e : CallEvent) : ℤ := if e.correction then -1 else 1

/-- The event of an entry that has the fields of `CallEventORM.JSON` without a default, and whose
row the class accepts. -/
def callEvent (accepts : StreamVal → Bool) (entry : StreamEntry) : Option CallEvent := do
  let val := emptyStrToNone entry.val
  let callId ← val.get? "call_id"
  let direction ← (← val.get? "direction")
  let status ← (← val.get? "current_event").bind CallStatus.ofValue
  let country ← val.get? "country"
  let state ← val.get? "state"
  let city ← val.get? "city"
  let row := ((val.erase "correction").erase "price").erase "price_unit"
  let location := if city = none then none else some (country, state, city)
  let correction := (val.get? "correction").join.isSome
  if accepts row ∧ direction ∈ ["I", "O"] then
    some { callId, direction, status, location, correction, row }
  else none

/-- The location of a call: the first one an event of it carries. -/
def locationOf (es : List CallEvent) (callId : Option String) : Location :=
  (es.filter fun e => e.callId = callId).findSome? (·.location) |>.getD nowhere

/-- What a run owes: each valid event has one row and counts once under the location of its call,
and no event of a call that is over waits. -/
structure CallsRight (es : List CallEvent) (run : CallRun) : Prop where
  inserted : run.rows.Perm (es.map (·.row))
  counted : ∀ location direction name, run.counted (some location) direction name =
    signedSum CallEvent.factor (fun e => locationOf es e.callId = location ∧
      e.direction = direction ∧ e.status.counter = some name) es
  parked : ∀ callId slot, run.callIds.get? callId = some slot →
    (∃ e ∈ es, e.callId = callId ∧ e.status.final) → slot.temp.getD [] = []

/-! ## What the handler does -/

section Handler

variable {w : CallWorld}

/-- A look at a slot while there is none. -/
theorem getSlot_empty (h : w.callIds = .empty) (callId : Option String) :
    (getSlot callId).run w = (.error .keyError, w) := by
  show (EffectM.lift (getItem w.callIds callId)).run w = _
  rw [h]
  rfl

/-- While no call is known, every entry ends at a look for its call. -/
theorem parkEvent_empty (h : w.callIds = .empty) (val : StreamVal) :
    ∃ e, (parkEvent val).run w = (.error e, w) := by
  unfold parkEvent
  refine EffectM.run_lift_bind (fun callId _ => ?_) rfl
  have hnew : callId ∉ w.callIds.keys := by
    rw [h]
    exact List.not_mem_nil
  show ∃ e, ((if callId ∉ w.callIds.keys then _ else _ : CallM _)).run w = _
  rw [if_pos hnew]
  refine EffectM.run_lift_bind (fun city _ => ?_) rfl
  split
  · refine EffectM.run_lift_bind (fun country _ => ?_) rfl
    refine EffectM.run_lift_bind (fun state _ => ?_) rfl
    refine EffectM.run_lift_bind (fun city _ => ?_) rfl
    exact ⟨_, EffectM.run_bind_error (getSlot_empty h callId)⟩
  · exact ⟨_, EffectM.run_bind_error (getSlot_empty h callId)⟩

variable (accepts : StreamVal → Bool)

theorem treatCall_empty (h : w.callIds = .empty) (entry : StreamEntry) :
    ∃ e, (treatCall accepts entry).run w = (.error e, w) := by
  obtain ⟨e, he⟩ := parkEvent_empty h (emptyStrToNone entry.val)
  exact ⟨e, EffectM.run_bind_error he⟩

/-- While no call is known, all entries are invalid and nothing is filled. -/
theorem treatCalls_empty (h : w.callIds = .empty) (entries : List StreamEntry) :
    treatCalls accepts w entries = (w, [], entries.map (·.ids)) := by
  induction entries with
  | nil => rfl
  | cons entry entries ih =>
    obtain ⟨e, he⟩ := treatCall_empty accepts h entry
    rw [treatCalls, he]
    dsimp only
    rw [ih]
    rfl

/-- The handler raises: its look for the tracked calls names a field they do not have. -/
theorem addTwilioCallEvent_empty {run : CallRun} (h : run.callIds = .empty)
    (entries : List StreamEntry) :
    addTwilioCallEvent accepts run entries = (.error (.fieldError "sms_id"), run) := by
  unfold addTwilioCallEvent
  rw [treatCalls_empty accepts h]
  rfl

/-- The batches of a run, one after the other. -/
def callRun (batches : List (List StreamEntry)) : CallRun :=
  runFrom (fun run entries => (addTwilioCallEvent accepts run entries).2) {} batches

/-- No run leaves anything. -/
theorem callRun_eq (batches : List (List StreamEntry)) : callRun accepts batches = {} := by
  unfold callRun
  induction batches with
  | nil => rfl
  | cons entries batches ih =>
    rw [runFrom_cons, addTwilioCallEvent_empty accepts (rfl : ({} : CallRun).callIds = .empty)]
    exact ih

/-- **The exact condition.** Over every run of batches from the start of the process, the call
events are treated as they should be if and only if no entry is a valid event. -/
theorem callsRight_iff (batches : List (List StreamEntry)) :
    CallsRight (batches.flatten.filterMap (callEvent accepts)) (callRun accepts batches) ↔
      batches.flatten.filterMap (callEvent accepts) = [] := by
  rw [callRun_eq]
  constructor
  · intro h
    exact List.map_eq_nil_iff.mp h.inserted.nil_eq.symm
  · intro h
    rw [h]
    exact ⟨.nil, fun _ _ _ => rfl, fun _ _ hslot => nomatch hslot⟩

end Handler

/-- A located event of a call. -/
def locatedCall : StreamEntry :=
  ⟨"1-0", .ofEntries [("event_id", "e"), ("call_id", "c"), ("direction", "O"),
    ("current_event", "SENT"), ("country", "CA"), ("state", "QC"), ("city", "Laval"),
    ("correction", ""), ("price", ""), ("price_unit", "")]⟩

/-- The first event of a call is lost, although it has a location and all its fields. -/
theorem not_callsRight :
    ¬ CallsRight ([[locatedCall]].flatten.filterMap (callEvent fun _ => true))
      (callRun (fun _ => true) [[locatedCall]]) := by
  intro h
  have hlength := h.inserted.length_eq
  rw [callRun_eq] at hlength
  exact absurd hlength (by decide +kernel)

end Notifyr
