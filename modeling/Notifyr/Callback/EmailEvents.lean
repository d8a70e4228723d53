import Mathlib.Data.List.ReduceOption
import Notifyr.Callback.Stream
import Notifyr.Theory.Batch

/-!
# Email events

`Add_Email_Event` (`app/callback/event_stream.py`): a batch of events of any emails is folded into
counters for each provider and a status for each email.

- `EmailEnv`: what the ORM class accepts.
- `EmailTally`: the dictionaries of the handler; `EmailTally.add` is one accepted entry.
- `addEmailEvent`: the handler up to its transaction, with what the transaction is given.
- `EmailRight`: what should be written; `EmailMeets`: when it is.
- `status_tallyOf`, `count_tallyOf`: what the fold has made of a batch, by induction from its end.
- `emailRight_iff`: the exact condition.
-/

namespace Notifyr

open Theory

/-- `EmailStatus`. -/
inductive EmailStatus
  | received
  | sent
  | delivered
  | softBounce
  | hardBounce
  | mailboxFull
  | opened
  | linkClicked
  | failed
  | blocked
  | complaint
  | deferred
  | delayed
  | replied
  | rejected
  deriving DecidableEq

/-- Its value. -/
def EmailStatus.value : EmailStatus → String
  | received => "RECEIVED"
  | sent => "SENT"
  | delivered => "DELIVERED"
  | softBounce => "SOFT-BOUNCE"
  | hardBounce => "HARD-BOUNCE"
  | mailboxFull => "MAILBOX-FULL"
  | opened => "OPENED"
  | linkClicked => "LINK-CLICKED"
  | failed => "FAILED"
  | blocked => "BLOCKED"
  | complaint => "COMPLAINT"
  | deferred => "DEFERRED"
  | delayed => "DELAYED"
  | replied => "REPLIED"
  | rejected => "REJECTED"

/-- The members of the enumeration. -/
def EmailStatus.all : List EmailStatus :=
  [received, sent, delivered, softBounce, hardBounce, mailboxFull, opened, linkClicked, failed,
    blocked, complaint, deferred, delayed, replied, rejected]

/-- `EmailStatus(value)`. -/
def EmailStatus.ofValue (value : String) : Option EmailStatus :=
  all.find? fun status => status.value = value

/-- The keys of the counters of a provider. -/
inductive EmailCounter
  | sent
  | received
  | delivered
  | complaint
  | failed
  | opened
  | bounced
  | replied
  | rejected
  deriving DecidableEq

/-- The counters of a provider. -/
abbrev EmailCounters := EmailCounter → ℤ

/-! ## An entry -/

/-- The texts of UUIDs, and whether the ORM class accepts the fields of an entry other than
`email_id` and `current_event`. -/
structure EmailEnv (υ : Type) where
  uuid : UuidText υ
  accepts : StreamVal → Bool

/-- An event that the ORM class has been made of, with what the handler reads beside it. An entry
without `current_event` makes an event without one. -/
structure EmailEvent where
  emailId : String
  espProvider : Option String
  correction : Bool
  currentEvent : Option EmailStatus
  deriving DecidableEq

/-- The sign of an event. -/
def EmailEvent.factor (e : EmailEvent) : ℤ := if e.correction then -1 else 1

variable {υ : Type}

/-- `val['email_id']` and `TrackingEmailEventORM(**val)`: nothing where one of them raises. -/
def emailEvent (env : EmailEnv υ) (entry : StreamEntry) : Option EmailEvent := do
  let val := emptyStrToNone entry.val
  -- the key may be missing, and its value may be `None`
  let emailId ← (← val.get? "email_id")
  let _ ← env.uuid.parse emailId
  let currentEvent ← match val.get? "current_event" with
    | none => some none
    | some none => none
    | some (some value) => (EmailStatus.ofValue value).map some
  let espProvider := (val.get? "esp_provider").getD (some "Untracked Provider")
  let correction := (val.get? "correction").join.isSome
  if env.accepts val then some { emailId, espProvider, correction, currentEvent } else none

/-! ## The fold -/

/-- The dictionaries and sets of the handler that the entries fill. -/
structure EmailTally where
  objs : List EmailEvent := []
  analytics : Dict (Option String) EmailCounters := .empty
  contactIdToDeleteFrom : List String := []
  opensPerEmail : List String := []
  deliveredPerEmail : List String := []
  repliedPerEmail : List String := []
  emailStatus : Dict String EmailStatus := .empty

namespace EmailTally

/-- `analytics[esp_provider][counter] += factor`. -/
def bump (t : EmailTally) (provider : Option String) (counter : EmailCounter) (factor : ℤ) :
    EmailTally :=
  let counters := (t.analytics.get? provider).getD fun _ => 0
  let counters := Function.update counters counter (counters counter + factor)
  { t with analytics := t.analytics.set provider counters }

/-- The counters of a provider that has none yet. -/
def start (t : EmailTally) (provider : Option String) : EmailTally :=
  if provider ∈ t.analytics.keys then t
  else { t with analytics := t.analytics.set provider fun _ => 0 }

/-- The email has been opened. -/
def markOpened (t : EmailTally) (emailId : String) : EmailTally :=
  if emailId ∈ t.opensPerEmail then t else { t with opensPerEmail := emailId :: t.opensPerEmail }

/-- The email has been replied to. -/
def markReplied (t : EmailTally) (emailId : String) : EmailTally :=
  if emailId ∈ t.repliedPerEmail then t
  else { t with repliedPerEmail := emailId :: t.repliedPerEmail }

/-- The `match event.current_event`. -/
def countEvent (t : EmailTally) (e : EmailEvent) : EmailTally :=
  match e.currentEvent with
  | some .received => t.bump e.espProvider .received e.factor
  | some .rejected => t.bump e.espProvider .rejected e.factor
  | some .sent => t.bump e.espProvider .sent e.factor
  | some .delivered =>
    if e.emailId ∈ t.deliveredPerEmail then t
    else
      let t := t.bump e.espProvider .delivered e.factor
      { t with deliveredPerEmail := e.emailId :: t.deliveredPerEmail }
  | some .opened | some .linkClicked =>
    (t.bump e.espProvider .opened e.factor).markOpened e.emailId
  | some .softBounce | some .mailboxFull => t.bump e.espProvider .bounced e.factor
  | some .hardBounce =>
    let t := t.bump e.espProvider .bounced e.factor
    { t with contactIdToDeleteFrom := e.emailId :: t.contactIdToDeleteFrom }
  | some .replied =>
    let t := (t.bump e.espProvider .replied e.factor).bump e.espProvider .opened e.factor
    (t.markReplied e.emailId).markOpened e.emailId
  | some .failed => t.bump e.espProvider .failed e.factor
  | some .complaint => t.bump e.espProvider .complaint e.factor
  | some .blocked | some .deferred | some .delayed | none => t

/-- The status of one email: the second `if` sets again what the first has set. An event without
`current_event` has no `value`. -/
def setStatus (t : EmailTally) (e : EmailEvent) : EmailTally × Py Unit :=
  let put (t : EmailTally) (flag : Bool) (status : EmailStatus) : EmailTally × Py Unit :=
    if flag then ({ t with emailStatus := t.emailStatus.set e.emailId status }, .ok ())
    else
      match e.currentEvent with
      | some event => ({ t with emailStatus := t.emailStatus.set e.emailId event }, .ok ())
      | none => (t, .error .attributeError)
  match put t (e.emailId ∈ t.opensPerEmail) .opened with
  | (t, .error err) => (t, .error err)
  | (t, .ok ()) => put t (e.emailId ∈ t.repliedPerEmail) .replied

/-- One accepted entry. -/
def add (t : EmailTally) (e : EmailEvent) : EmailTally × Py Unit :=
  let t := { t with objs := t.objs ++ [e] }
  ((t.start e.espProvider).countEvent e).setStatus e

end EmailTally

/-- The handler between two entries. -/
structure EmailState where
  tally : EmailTally := {}
  validEntries : List String := []
  invalidEntries : List String := []

/-- The body of the loop. -/
def EmailState.treat (env : EmailEnv υ) (st : EmailState) (entry : StreamEntry) : EmailState :=
  match emailEvent env entry with
  | none => { st with invalidEntries := entry.ids :: st.invalidEntries }
  | some e =>
    match st.tally.add e with
    | (tally, .ok ()) => { st with tally, validEntries := entry.ids :: st.validEntries }
    | (tally, .error _) => { st with tally, invalidEntries := entry.ids :: st.invalidEntries }

/-! ## The rows -/

/-- What the handler reads of an `EmailTrackingORM`. -/
structure EmailRow (υ : Type) where
  emailId : υ
  currentStatus : Option EmailStatus
  contactId : Option String
  delivered : Bool

/-- The status that is put in a row. -/
def rowStatus (env : EmailEnv υ) (t : EmailTally) (row : EmailRow υ) : Py (Option EmailStatus) :=
  if row.currentStatus ≠ some .replied then
    (getItem t.emailStatus (env.uuid.text row.emailId)).map some
  else .ok row.currentStatus

/-- The contact of a row that is to be deleted. -/
def toDelete (t : EmailTally) (row : EmailRow υ) : List String :=
  if uuidIn row.emailId t.contactIdToDeleteFrom then row.contactId.toList else []

/-- `objs[index_tracking] = None` for a row that was delivered before; the index is a
dictionary. -/
def dropDelivered (t : EmailTally) (row : EmailRow υ) : Py Unit :=
  if uuidIn row.emailId t.deliveredPerEmail ∧ row.delivered then .error .typeError else .ok ()

/-- The loop over the rows of the batch: their new status, and the contacts to delete. -/
def updateRows (env : EmailEnv υ) (t : EmailTally) :
    List (EmailRow υ) → Py (List (EmailRow υ × Option EmailStatus) × List String)
  | [] => .ok ([], [])
  | row :: rows => do
    let status ← rowStatus env t row
    let () ← dropDelivered t row
    let (updated, contacts) ← updateRows env t rows
    return ((row, status) :: updated, toDelete t row ++ contacts)

/-- What the transaction is given, and the ids the handler returns if it commits. -/
structure EmailWrite (υ : Type) where
  analytics : Dict (Option String) EmailCounters
  emailTracker : List (EmailRow υ × Option EmailStatus)
  objs : List EmailEvent
  ids : List String

variable [DecidableEq υ]

/-- `EmailTrackingORM.filter(email_id__in=email_status.keys())`. -/
def trackedRows (env : EmailEnv υ) (t : EmailTally) (rows : List (EmailRow υ)) :
    List (EmailRow υ) :=
  rows.filter fun row => some row.emailId ∈ t.emailStatus.keys.map env.uuid.parse

/-- `Add_Email_Event` up to its transaction; `rows` are the tracked emails of the database. -/
def addEmailEvent (env : EmailEnv υ) (rows : List (EmailRow υ)) (entries : List StreamEntry) :
    Py (EmailWrite υ) := do
  let st := entries.foldl (EmailState.treat env) {}
  let (emailTracker, _) ← updateRows env st.tally (trackedRows env st.tally rows)
  return {
    analytics := st.tally.analytics
    emailTracker
    objs := st.tally.objs
    ids := (st.validEntries ++ st.invalidEntries).dedup }

/-! ## What is counted -/

/-- The counters an event belongs to. A reply counts as an opening, too. -/
def EmailStatus.counters : EmailStatus → List EmailCounter
  | received => [.received]
  | rejected => [.rejected]
  | sent => [.sent]
  | delivered => [.delivered]
  | opened | linkClicked => [.opened]
  | softBounce | hardBounce | mailboxFull => [.bounced]
  | replied => [.replied, .opened]
  | failed => [.failed]
  | complaint => [.complaint]
  | blocked | deferred | delayed => []

/-- The event is of the kind of a counter. -/
def EmailEvent.kind (c : EmailCounter) (e : EmailEvent) : Bool :=
  match e.currentEvent with
  | some status => c ∈ status.counters
  | none => false

/-- An earlier event of the same email is of the kind of the counter. -/
def seenBefore (c : EmailCounter) (before : List EmailEvent) (e : EmailEvent) : Bool :=
  before.any fun e' => e'.kind c && e'.emailId = e.emailId

/-- The counters that count an email once. -/
def EmailCounter.once : EmailCounter → Bool
  | delivered | opened => true
  | _ => false

/-- The event counts: it is of the kind, and the first of its email where that matters. -/
def EmailEvent.counts (c : EmailCounter) (before : List EmailEvent) (e : EmailEvent) : Bool :=
  e.kind c && !(c.once && seenBefore c before e)

/-- What a counter of a provider should change by. -/
def counterChange (es : List EmailEvent) (provider : Option String) (c : EmailCounter) : ℤ :=
  signedSum EmailEvent.factor (fun e => e.espProvider = provider)
    (keepAlong (EmailEvent.counts c) es)

/-- What is written for a counter. -/
def counterOf (analytics : Dict (Option String) EmailCounters) (provider : Option String)
    (c : EmailCounter) : ℤ :=
  (analytics.get? provider).getD (fun _ => 0) c

/-- The statuses of an email in a batch, `none` for an event without one. -/
def statusesOf (es : List EmailEvent) (emailId : String) : List (Option EmailStatus) :=
  (es.filter fun e => e.emailId = emailId).map (·.currentEvent)

/-- The status that should be written for an email: `current` is what it has, `events` are those
of the batch. -/
def emailStatusAfter (current : Option EmailStatus) (events : List EmailStatus) :
    Option EmailStatus :=
  if current = some .replied ∨ .replied ∈ events then some .replied
  else if .opened ∈ events ∨ .linkClicked ∈ events then some .opened
  else events.getLast?

/-- The accepted entries of a batch. -/
def eventsOf (env : EmailEnv υ) (entries : List StreamEntry) : List EmailEvent :=
  entries.filterMap (emailEvent env)

/-- The statuses that the events of a tracked email have in a batch. -/
def rowEvents (env : EmailEnv υ) (entries : List StreamEntry) (row : EmailRow υ) :
    List EmailStatus :=
  (statusesOf (eventsOf env entries) (env.uuid.text row.emailId)).reduceOption

/-- What a batch owes: each tracked email that has events is written with the status it should
have, whatever the events of the others are, and the counters change as they should. -/
structure EmailRight (env : EmailEnv υ) (rows : List (EmailRow υ)) (entries : List StreamEntry)
    (w : EmailWrite υ) : Prop where
  status : ∀ row ∈ rows, rowEvents env entries row ≠ [] → ∀ status,
    (row, status) ∈ w.emailTracker ↔
      status = emailStatusAfter row.currentStatus (rowEvents env entries row)
  counters : ∀ provider c,
    counterOf w.analytics provider c = counterChange (eventsOf env entries) provider c
  independent : ∀ entries' w', addEmailEvent env rows entries' = .ok w' → ∀ row ∈ rows,
    statusesOf (eventsOf env entries') (env.uuid.text row.emailId) =
      statusesOf (eventsOf env entries) (env.uuid.text row.emailId) →
    rowEvents env entries row ≠ [] → ∀ status,
      (row, status) ∈ w'.emailTracker ↔ (row, status) ∈ w.emailTracker

/-- The event is an opening after another one of its email. -/
def repeatedOpening (before : List EmailEvent) (e : EmailEvent) : Bool :=
  e.kind .opened && seenBefore .opened before e

/-- When a batch is treated as it should be. -/
structure EmailMeets (env : EmailEnv υ) (rows : List (EmailRow υ)) (es : List EmailEvent) :
    Prop where
  /-- No email that may change is named by another spelling of its UUID only. -/
  spelled : ∀ row ∈ rows, row.currentStatus ≠ some .replied →
    (∃ e ∈ es, e.currentEvent.isSome ∧ env.uuid.parse e.emailId = some row.emailId) →
    ∃ e ∈ es, e.currentEvent.isSome ∧ e.emailId = env.uuid.text row.emailId
  /-- The last of the events of an email with an opening and no reply is an opening, or has no
  status. -/
  last_opened : ∀ row ∈ rows, row.currentStatus ≠ some .replied →
    some .replied ∉ statusesOf es (env.uuid.text row.emailId) →
    some .opened ∈ statusesOf es (env.uuid.text row.emailId) ∨
      some .linkClicked ∈ statusesOf es (env.uuid.text row.emailId) →
    (statusesOf es (env.uuid.text row.emailId)).getLast? = some (some .opened) ∨
      (statusesOf es (env.uuid.text row.emailId)).getLast? = some none
  /-- The openings after the first one of their email cancel out. -/
  openings : ∀ provider, signedSum EmailEvent.factor (fun e => e.espProvider = provider)
    (keepAlong repeatedOpening es) = 0

/-! ## What the fold makes of a batch -/

/-- The event opens its email. -/
def EmailStatus.opens : EmailStatus → Bool
  | opened | linkClicked | replied => true
  | _ => false

/-- The dictionaries after some accepted entries. -/
def tallyOf (es : List EmailEvent) : EmailTally := es.foldl (fun t e => (t.add e).1) {}

theorem tallyOf_concat (es : List EmailEvent) (e : EmailEvent) :
    tallyOf (es ++ [e]) = ((tallyOf es).add e).1 := List.foldl_append

omit [DecidableEq υ] in
/-- The entries that are not accepted leave no trace in the dictionaries. -/
theorem tally_foldl_treat (env : EmailEnv υ) (entries : List StreamEntry) (st : EmailState) :
    (entries.foldl (EmailState.treat env) st).tally =
      (entries.filterMap (emailEvent env)).foldl (fun t e => (t.add e).1) st.tally := by
  induction entries generalizing st with
  | nil => rfl
  | cons entry entries ih =>
    rw [List.foldl_cons, ih, List.filterMap_cons]
    unfold EmailState.treat
    cases emailEvent env entry with
    | none => rfl
    | some e =>
      dsimp only
      rw [List.foldl_cons]
      rcases st.tally.add e with ⟨t, _ | _⟩ <;> rfl

namespace EmailTally

variable (t : EmailTally) (e : EmailEvent)

theorem counterOf_bump (provider : Option String) (counter : EmailCounter) (factor : ℤ)
    (p : Option String) (c : EmailCounter) :
    counterOf (t.bump provider counter factor).analytics p c =
      counterOf t.analytics p c + if p = provider ∧ c = counter then factor else 0 := by
  unfold counterOf bump
  dsimp only
  rw [Dict.get?_set]
  by_cases hp : p = provider
  · subst hp
    by_cases hc : c = counter
    · subst hc
      simp
    · simp [hc]
  · simp [hp]

theorem counterOf_start (provider p : Option String) (c : EmailCounter) :
    counterOf (t.start provider).analytics p c = counterOf t.analytics p c := by
  unfold start
  split
  · rfl
  · rename_i h
    unfold counterOf
    dsimp only
    rw [Dict.get?_set]
    split
    · rename_i hp
      rw [hp, (Dict.not_mem_keys_iff _ _).mp h]
      rfl
    · rfl

section Mark

variable (x y : String)

@[simp] theorem analytics_markOpened : (t.markOpened x).analytics = t.analytics := by
  unfold markOpened
  split <;> rfl

@[simp] theorem deliveredPerEmail_markOpened :
    (t.markOpened x).deliveredPerEmail = t.deliveredPerEmail := by
  unfold markOpened
  split <;> rfl

@[simp] theorem repliedPerEmail_markOpened :
    (t.markOpened x).repliedPerEmail = t.repliedPerEmail := by
  unfold markOpened
  split <;> rfl

@[simp] theorem emailStatus_markOpened : (t.markOpened x).emailStatus = t.emailStatus := by
  unfold markOpened
  split <;> rfl

@[simp] theorem mem_opensPerEmail_markOpened :
    y ∈ (t.markOpened x).opensPerEmail ↔ y = x ∨ y ∈ t.opensPerEmail := by
  unfold markOpened
  split
  · rename_i h
    exact ⟨.inr, fun hy => hy.elim (fun hy => hy ▸ h) id⟩
  · exact List.mem_cons

@[simp] theorem analytics_markReplied : (t.markReplied x).analytics = t.analytics := by
  unfold markReplied
  split <;> rfl

@[simp] theorem deliveredPerEmail_markReplied :
    (t.markReplied x).deliveredPerEmail = t.deliveredPerEmail := by
  unfold markReplied
  split <;> rfl

@[simp] theorem opensPerEmail_markReplied :
    (t.markReplied x).opensPerEmail = t.opensPerEmail := by
  unfold markReplied
  split <;> rfl

@[simp] theorem emailStatus_markReplied : (t.markReplied x).emailStatus = t.emailStatus := by
  unfold markReplied
  split <;> rfl

@[simp] theorem mem_repliedPerEmail_markReplied :
    y ∈ (t.markReplied x).repliedPerEmail ↔ y = x ∨ y ∈ t.repliedPerEmail := by
  unfold markReplied
  split
  · rename_i h
    exact ⟨.inr, fun hy => hy.elim (fun hy => hy ▸ h) id⟩
  · exact List.mem_cons

@[simp] theorem bump_fields (provider : Option String) (counter : EmailCounter) (factor : ℤ) :
    (t.bump provider counter factor).opensPerEmail = t.opensPerEmail ∧
      (t.bump provider counter factor).deliveredPerEmail = t.deliveredPerEmail ∧
      (t.bump provider counter factor).repliedPerEmail = t.repliedPerEmail ∧
      (t.bump provider counter factor).emailStatus = t.emailStatus := ⟨rfl, rfl, rfl, rfl⟩

end Mark

/-- An event adds its sign to the counters of its kind; an email is delivered once. -/
theorem counterOf_countEvent (p : Option String) (c : EmailCounter) :
    counterOf (t.countEvent e).analytics p c = counterOf t.analytics p c +
      if p = e.espProvider ∧ e.kind c = true ∧ (c = .delivered → e.emailId ∉ t.deliveredPerEmail)
      then e.factor else 0 := by
  unfold countEvent EmailEvent.kind
  rcases e.currentEvent with _ | status
  · simp
  · by_cases hdelivered : status = .delivered
    · subst hdelivered
      by_cases hseen : e.emailId ∈ t.deliveredPerEmail
      · cases c <;> simp [EmailStatus.counters, hseen]
      · cases c <;> simp [EmailStatus.counters, hseen, counterOf_bump]
    · cases status <;> cases c <;> simp [EmailStatus.counters, counterOf_bump] at hdelivered ⊢

/-- The emails that have been opened, delivered and replied to, after one more event. -/
theorem mem_opensPerEmail_countEvent (x : String) :
    x ∈ (t.countEvent e).opensPerEmail ↔
      x ∈ t.opensPerEmail ∨ (e.emailId = x ∧ e.currentEvent.any EmailStatus.opens) := by
  unfold countEvent
  rcases e.currentEvent with _ | status
  · simp
  · cases status <;> simp [EmailStatus.opens, eq_comm, or_comm]
    split <;> simp

@[inherit_doc mem_opensPerEmail_countEvent]
theorem mem_deliveredPerEmail_countEvent (x : String) :
    x ∈ (t.countEvent e).deliveredPerEmail ↔
      x ∈ t.deliveredPerEmail ∨ (e.emailId = x ∧ e.currentEvent = some .delivered) := by
  unfold countEvent
  rcases e.currentEvent with _ | status
  · simp
  · cases status <;> simp [eq_comm, or_comm]
    split
    · rename_i h
      exact ⟨.inr, fun hx => hx.elim (fun hx => hx ▸ h) id⟩
    · simp

@[inherit_doc mem_opensPerEmail_countEvent]
theorem mem_repliedPerEmail_countEvent (x : String) :
    x ∈ (t.countEvent e).repliedPerEmail ↔
      x ∈ t.repliedPerEmail ∨ (e.emailId = x ∧ e.currentEvent = some .replied) := by
  unfold countEvent
  rcases e.currentEvent with _ | status
  · simp
  · cases status <;> simp [eq_comm, or_comm]
    split <;> simp

theorem emailStatus_countEvent : (t.countEvent e).emailStatus = t.emailStatus := by
  unfold countEvent
  rcases e.currentEvent with _ | status
  · rfl
  · cases status <;> simp
    split <;> simp

/-- Setting the status leaves the other dictionaries. -/
theorem setStatus_fields :
    (t.setStatus e).1.analytics = t.analytics ∧
      (t.setStatus e).1.opensPerEmail = t.opensPerEmail ∧
      (t.setStatus e).1.deliveredPerEmail = t.deliveredPerEmail ∧
      (t.setStatus e).1.repliedPerEmail = t.repliedPerEmail := by
  unfold setStatus
  rcases e.currentEvent with _ | event
  · by_cases hopens : e.emailId ∈ t.opensPerEmail
    · by_cases hreplied : e.emailId ∈ t.repliedPerEmail <;> simp [hopens, hreplied]
    · simp [hopens]
  · by_cases hopens : e.emailId ∈ t.opensPerEmail <;>
      by_cases hreplied : e.emailId ∈ t.repliedPerEmail <;> simp [hopens, hreplied]

/-- The status of an email after one more of its events. -/
theorem get?_setStatus (hreplied : e.emailId ∈ t.repliedPerEmail → e.emailId ∈ t.opensPerEmail)
    (x : String) :
    (t.setStatus e).1.emailStatus.get? x =
      if x ≠ e.emailId then t.emailStatus.get? x
      else if e.emailId ∈ t.repliedPerEmail then some .replied
      else
        match e.currentEvent with
        | some event => some event
        | none => if e.emailId ∈ t.opensPerEmail then some .opened else t.emailStatus.get? x := by
  unfold setStatus
  by_cases hx : x = e.emailId
  · subst hx
    by_cases hr : e.emailId ∈ t.repliedPerEmail
    · simp [hr, hreplied hr]
    · by_cases ho : e.emailId ∈ t.opensPerEmail <;>
        rcases e.currentEvent with _ | event <;> simp [hr, ho]
  · by_cases hr : e.emailId ∈ t.repliedPerEmail
    · simp [hr, hreplied hr, hx, Dict.get?_set_ne]
    · by_cases ho : e.emailId ∈ t.opensPerEmail <;>
        rcases e.currentEvent with _ | event <;> simp [hr, ho, hx, Dict.get?_set_ne]

theorem fields_start (provider : Option String) :
    (t.start provider).opensPerEmail = t.opensPerEmail ∧
      (t.start provider).deliveredPerEmail = t.deliveredPerEmail ∧
      (t.start provider).repliedPerEmail = t.repliedPerEmail ∧
      (t.start provider).emailStatus = t.emailStatus := by
  unfold start
  split
  · exact ⟨rfl, rfl, rfl, rfl⟩
  · exact ⟨rfl, rfl, rfl, rfl⟩

/-! ## One entry -/

theorem counterOf_add (p : Option String) (c : EmailCounter) :
    counterOf (t.add e).1.analytics p c = counterOf t.analytics p c +
      if p = e.espProvider ∧ e.kind c = true ∧ (c = .delivered → e.emailId ∉ t.deliveredPerEmail)
      then e.factor else 0 := by
  unfold add
  rw [(setStatus_fields _ e).1, counterOf_countEvent, counterOf_start, (fields_start _ _).2.1]

theorem mem_opensPerEmail_add (x : String) :
    x ∈ (t.add e).1.opensPerEmail ↔
      x ∈ t.opensPerEmail ∨ (e.emailId = x ∧ e.currentEvent.any EmailStatus.opens) := by
  unfold add
  rw [(setStatus_fields _ e).2.1, mem_opensPerEmail_countEvent, (fields_start _ _).1]

theorem mem_deliveredPerEmail_add (x : String) :
    x ∈ (t.add e).1.deliveredPerEmail ↔
      x ∈ t.deliveredPerEmail ∨ (e.emailId = x ∧ e.currentEvent = some .delivered) := by
  unfold add
  rw [(setStatus_fields _ e).2.2.1, mem_deliveredPerEmail_countEvent, (fields_start _ _).2.1]

theorem mem_repliedPerEmail_add (x : String) :
    x ∈ (t.add e).1.repliedPerEmail ↔
      x ∈ t.repliedPerEmail ∨ (e.emailId = x ∧ e.currentEvent = some .replied) := by
  unfold add
  rw [(setStatus_fields _ e).2.2.2, mem_repliedPerEmail_countEvent, (fields_start _ _).2.2.1]

/-- The status of an email after one more entry. -/
theorem get?_add
    (hreplied : e.emailId ∈ (t.add e).1.repliedPerEmail → e.emailId ∈ (t.add e).1.opensPerEmail)
    (x : String) :
    (t.add e).1.emailStatus.get? x =
      if x ≠ e.emailId then t.emailStatus.get? x
      else if e.emailId ∈ (t.add e).1.repliedPerEmail then some .replied
      else
        match e.currentEvent with
        | some event => some event
        | none =>
          if e.emailId ∈ (t.add e).1.opensPerEmail then some .opened
          else t.emailStatus.get? x := by
  unfold add at hreplied ⊢
  rw [(setStatus_fields _ e).2.1, (setStatus_fields _ e).2.2.2] at hreplied ⊢
  rw [get?_setStatus _ _ hreplied, emailStatus_countEvent, (fields_start _ _).2.2.2]

end EmailTally

/-! ## A batch -/

section Batch

variable (es : List EmailEvent)

theorem mem_opensPerEmail_tallyOf (x : String) :
    x ∈ (tallyOf es).opensPerEmail ↔
      ∃ e ∈ es, e.emailId = x ∧ e.currentEvent.any EmailStatus.opens := by
  induction es using List.reverseRecOn with
  | nil => simp [tallyOf]
  | append_singleton es e ih =>
    rw [tallyOf_concat, EmailTally.mem_opensPerEmail_add, ih]
    simp [or_and_right, exists_or]

theorem mem_deliveredPerEmail_tallyOf (x : String) :
    x ∈ (tallyOf es).deliveredPerEmail ↔
      ∃ e ∈ es, e.emailId = x ∧ e.currentEvent = some .delivered := by
  induction es using List.reverseRecOn with
  | nil => simp [tallyOf]
  | append_singleton es e ih =>
    rw [tallyOf_concat, EmailTally.mem_deliveredPerEmail_add, ih]
    simp [or_and_right, exists_or]

theorem mem_repliedPerEmail_tallyOf (x : String) :
    x ∈ (tallyOf es).repliedPerEmail ↔
      ∃ e ∈ es, e.emailId = x ∧ e.currentEvent = some .replied := by
  induction es using List.reverseRecOn with
  | nil => simp [tallyOf]
  | append_singleton es e ih =>
    rw [tallyOf_concat, EmailTally.mem_repliedPerEmail_add, ih]
    simp [or_and_right, exists_or]

/-- An email that was replied to has been opened. -/
theorem opens_of_replied {x : String} (h : x ∈ (tallyOf es).repliedPerEmail) :
    x ∈ (tallyOf es).opensPerEmail := by
  obtain ⟨e, he, hx, hevent⟩ := (mem_repliedPerEmail_tallyOf es x).mp h
  exact (mem_opensPerEmail_tallyOf es x).mpr ⟨e, he, hx, by rw [hevent]; rfl⟩

/-- The event counts in the code: openings are not looked up. -/
def EmailEvent.countsNow (c : EmailCounter) (before : List EmailEvent) (e : EmailEvent) : Bool :=
  e.kind c && !(decide (c = .delivered) && seenBefore c before e)

theorem kind_delivered {e : EmailEvent} :
    e.kind .delivered = true ↔ e.currentEvent = some .delivered := by
  unfold EmailEvent.kind
  rcases e.currentEvent with _ | status
  · simp
  · cases status <;> simp [EmailStatus.counters]

theorem seenBefore_iff {c : EmailCounter} {e : EmailEvent} :
    seenBefore c es e = true ↔ ∃ e' ∈ es, e'.kind c = true ∧ e'.emailId = e.emailId := by
  unfold seenBefore
  simp

/-- A counter after a batch. -/
theorem counterOf_tallyOf (p : Option String) (c : EmailCounter) :
    counterOf (tallyOf es).analytics p c =
      signedSum EmailEvent.factor (fun e => e.espProvider = p)
        (keepAlong (EmailEvent.countsNow c) es) := by
  induction es using List.reverseRecOn with
  | nil => rfl
  | append_singleton es e ih =>
    rw [tallyOf_concat, EmailTally.counterOf_add, ih, keepAlong_concat, signedSum_append]
    congr 1
    have hcond : e.countsNow c es = true ↔ e.kind c = true ∧
        (c = .delivered → e.emailId ∉ (tallyOf es).deliveredPerEmail) := by
      unfold EmailEvent.countsNow
      rw [Bool.and_eq_true, Bool.not_eq_true', Bool.and_eq_false_iff, decide_eq_false_iff_not,
        ← Bool.not_eq_true, seenBefore_iff, mem_deliveredPerEmail_tallyOf]
      refine and_congr_right fun _ => ?_
      rw [← imp_iff_not_or]
      refine imp_congr_right fun hc => not_congr ?_
      refine exists_congr fun e' => and_congr_right fun _ => ?_
      rw [hc, kind_delivered, and_comm]
    by_cases hnow : e.countsNow c es = true
    · obtain ⟨hkind, hnew⟩ := hcond.mp hnow
      rw [if_pos hnow, signedSum_singleton]
      by_cases hp : p = e.espProvider
      · rw [if_pos ⟨hp, hkind, hnew⟩, if_pos (decide_eq_true hp.symm)]
      · rw [if_neg fun h => hp h.1, if_neg (by simpa using Ne.symm hp)]
    · rw [if_neg hnow, if_neg fun h => hnow (hcond.mpr h.2)]
      rfl

/-- The status of an email after its events: a reply stays, and of an opening only an event
without a status reminds. -/
def statusNow (events : List (Option EmailStatus)) : Option EmailStatus :=
  if some .replied ∈ events then some .replied
  else if events.getLast? = some none ∧ events.any fun e => e.any EmailStatus.opens then
    some .opened
  else events.reduceOption.getLast?

theorem statusesOf_concat (e : EmailEvent) (x : String) :
    statusesOf (es ++ [e]) x =
      statusesOf es x ++ if e.emailId = x then [e.currentEvent] else [] := by
  unfold statusesOf
  rw [List.filter_append, List.map_append]
  congr 1
  by_cases h : e.emailId = x
  · simp [h]
  · simp [h]

theorem mem_statusesOf {x : String} {event : Option EmailStatus} :
    event ∈ statusesOf es x ↔ ∃ e ∈ es, e.emailId = x ∧ e.currentEvent = event := by
  simp [statusesOf, and_assoc]

theorem mem_replied_iff (x : String) :
    x ∈ (tallyOf es).repliedPerEmail ↔ some .replied ∈ statusesOf es x := by
  rw [mem_repliedPerEmail_tallyOf, mem_statusesOf]

theorem mem_opens_iff (x : String) :
    x ∈ (tallyOf es).opensPerEmail ↔
      (statusesOf es x).any (Option.any EmailStatus.opens) = true := by
  rw [mem_opensPerEmail_tallyOf, List.any_eq_true]
  constructor
  · rintro ⟨e, he, hx, hopens⟩
    exact ⟨_, (mem_statusesOf es).mpr ⟨e, he, hx, rfl⟩, hopens⟩
  · rintro ⟨event, hevent, hopens⟩
    obtain ⟨e, he, hx, rfl⟩ := (mem_statusesOf es).mp hevent
    exact ⟨e, he, hx, hopens⟩

theorem statusNow_concat_some (l : List (Option EmailStatus)) (event : EmailStatus) :
    statusNow (l ++ [some event]) =
      if some .replied ∈ l ++ [some event] then some .replied else some event := by
  unfold statusNow
  simp [List.reduceOption_append]

theorem statusNow_concat_none (l : List (Option EmailStatus)) :
    statusNow (l ++ [none]) =
      if some .replied ∈ l ++ [none] then some .replied
      else if (l ++ [none]).any (Option.any EmailStatus.opens) then some .opened
      else statusNow l := by
  unfold statusNow
  by_cases hr : some .replied ∈ l
  · simp [hr]
  · by_cases ho : l.any (Option.any EmailStatus.opens) = true
    · simp [hr, ho]
    · simp [hr, ho, List.reduceOption_append]

/-- The status of an email after a batch. -/
theorem status_tallyOf (x : String) :
    (tallyOf es).emailStatus.get? x = statusNow (statusesOf es x) := by
  induction es using List.reverseRecOn with
  | nil => rfl
  | append_singleton es e ih =>
    have hopened : e.emailId ∈ (tallyOf (es ++ [e])).repliedPerEmail →
        e.emailId ∈ (tallyOf (es ++ [e])).opensPerEmail := opens_of_replied _
    rw [tallyOf_concat] at hopened
    rw [tallyOf_concat, EmailTally.get?_add _ _ hopened, ← tallyOf_concat]
    by_cases hx : x = e.emailId
    · subst hx
      rw [if_neg (not_not.mpr rfl), ih]
      simp only [mem_replied_iff, mem_opens_iff, statusesOf_concat, if_true]
      rcases e.currentEvent with _ | event
      · exact (statusNow_concat_none _).symm
      · exact (statusNow_concat_some _ _).symm
    · rw [if_pos hx, statusesOf_concat, if_neg (Ne.symm hx), List.append_nil, ih]

/-- An email has a status after a batch if it has an event with one. -/
theorem statusNow_eq_none_iff (l : List (Option EmailStatus)) :
    statusNow l = none ↔ l.reduceOption = [] := by
  unfold statusNow
  split
  · rename_i h
    refine iff_of_false nofun fun hnil => ?_
    exact List.ne_nil_of_mem (List.reduceOption_mem_iff.mpr h) hnil
  · split
    · rename_i h
      refine iff_of_false nofun fun hnil => ?_
      obtain ⟨event, hevent, hopens⟩ := List.any_eq_true.mp h.2
      obtain ⟨s, rfl, -⟩ := Option.any_eq_true _ _ |>.mp hopens
      exact List.ne_nil_of_mem (List.reduceOption_mem_iff.mpr hevent) hnil
    · exact List.getLast?_eq_none_iff

/-- When the code writes the status that it should. -/
theorem statusNow_right_iff {current : Option EmailStatus} {l : List (Option EmailStatus)}
    (hcurrent : current ≠ some .replied) :
    statusNow l = emailStatusAfter current l.reduceOption ↔
      (some .replied ∉ l → some .opened ∈ l ∨ some .linkClicked ∈ l →
        l.getLast? = some (some .opened) ∨ l.getLast? = some none) := by
  unfold statusNow emailStatusAfter
  simp only [List.reduceOption_mem_iff, hcurrent, false_or]
  by_cases hr : some .replied ∈ l
  · simp [hr]
  · by_cases ho : some .opened ∈ l ∨ some .linkClicked ∈ l
    · have hany : l.any (Option.any EmailStatus.opens) = true := by
        refine List.any_eq_true.mpr ?_
        rcases ho with ho | ho
        · exact ⟨_, ho, rfl⟩
        · exact ⟨_, ho, rfl⟩
      simp only [hr, ho, hany, if_false, if_true, not_false_eq_true, true_implies, and_true]
      rcases List.eq_nil_or_concat l with rfl | ⟨l', event, rfl⟩
      · simp at ho
      · rcases event with _ | event
        · simp
        · simp [List.reduceOption_append]
    · have hany : l.any (Option.any EmailStatus.opens) = false := by
        rw [List.any_eq_false]
        rintro (_ | s) hs
        · exact Bool.false_ne_true
        · cases s with
          | opened => exact absurd (.inl hs) ho
          | linkClicked => exact absurd (.inr hs) ho
          | replied => exact absurd hs hr
          | _ => exact Bool.false_ne_true
      simp [hr, ho, hany]

end Batch

/-! ## The rows -/

section Rows

variable (env : EmailEnv υ) (t : EmailTally)

/-- The status that a row gets. -/
def newStatus (row : EmailRow υ) : Option EmailStatus :=
  if row.currentStatus ≠ some .replied then t.emailStatus.get? (env.uuid.text row.emailId)
  else row.currentStatus

omit [DecidableEq υ] in
theorem rowStatus_ok {row : EmailRow υ} (h : row.currentStatus ≠ some .replied →
    t.emailStatus.get? (env.uuid.text row.emailId) ≠ none) :
    rowStatus env t row = .ok (newStatus env t row) := by
  unfold rowStatus newStatus getItem
  by_cases hcurrent : row.currentStatus ≠ some .replied
  · obtain ⟨s, hs⟩ := Option.ne_none_iff_exists'.mp (h hcurrent)
    rw [if_pos hcurrent, if_pos hcurrent, hs]
    rfl
  · rw [if_neg hcurrent, if_neg hcurrent]

omit [DecidableEq υ] in
/-- No row is found among the delivered emails: its id is a UUID, theirs are texts. -/
theorem dropDelivered_ok (row : EmailRow υ) : dropDelivered t row = .ok () :=
  if_neg fun h => Bool.false_ne_true h.1

omit [DecidableEq υ] in
/-- All rows are updated if every row that may change has a status. -/
theorem updateRows_eq_ok {rows : List (EmailRow υ)}
    (h : ∀ row ∈ rows, row.currentStatus ≠ some .replied →
      t.emailStatus.get? (env.uuid.text row.emailId) ≠ none) :
    ∃ contacts, updateRows env t rows =
      .ok (rows.map fun row => (row, newStatus env t row), contacts) := by
  induction rows with
  | nil => exact ⟨[], rfl⟩
  | cons row rows ih =>
    obtain ⟨contacts, hrest⟩ := ih fun row hrow => h row (List.mem_cons_of_mem _ hrow)
    refine ⟨toDelete t row ++ contacts, ?_⟩
    rw [updateRows, rowStatus_ok env t (h row List.mem_cons_self), dropDelivered_ok, hrest]
    rfl

omit [DecidableEq υ] in
/-- A row that may change and has no status is looked up in vain. -/
theorem updateRows_error {rows : List (EmailRow υ)} {row : EmailRow υ} (hrow : row ∈ rows)
    (hcurrent : row.currentStatus ≠ some .replied)
    (hnone : t.emailStatus.get? (env.uuid.text row.emailId) = none) :
    ∃ e, updateRows env t rows = .error e := by
  induction rows with
  | nil => cases hrow
  | cons head rows ih =>
    rw [updateRows]
    rcases List.mem_cons.mp hrow with rfl | hrow
    · refine ⟨.keyError, ?_⟩
      unfold rowStatus getItem
      rw [if_pos hcurrent, hnone]
      rfl
    · obtain ⟨e, he⟩ := ih hrow
      rw [he, dropDelivered_ok]
      cases rowStatus env t head with
      | error e' => exact ⟨e', rfl⟩
      | ok status => exact ⟨e, rfl⟩

end Rows

/-! ## The exact condition -/

section Exact

variable (env : EmailEnv υ) (rows : List (EmailRow υ)) (entries : List StreamEntry)

theorem mem_emailStatus_keys (es : List EmailEvent) (x : String) :
    x ∈ (tallyOf es).emailStatus.keys ↔ ∃ e ∈ es, e.currentEvent.isSome ∧ e.emailId = x := by
  rw [Dict.mem_keys_iff, ← Option.isSome_iff_exists, Option.isSome_iff_ne_none, status_tallyOf,
    ne_eq, statusNow_eq_none_iff]
  constructor
  · intro h
    obtain ⟨s, hs⟩ := List.exists_mem_of_ne_nil _ h
    obtain ⟨e, he, hx, hevent⟩ := (mem_statusesOf es).mp (List.reduceOption_mem_iff.mp hs)
    exact ⟨e, he, by rw [hevent]; rfl, hx⟩
  · rintro ⟨e, he, hevent, hx⟩ hnil
    obtain ⟨s, hs⟩ := Option.isSome_iff_exists.mp hevent
    have hmem := List.reduceOption_mem_iff.mpr ((mem_statusesOf es).mpr ⟨e, he, hx, hs⟩)
    rw [hnil] at hmem
    cases hmem

theorem mem_trackedRows {es : List EmailEvent} {row : EmailRow υ} :
    row ∈ trackedRows env (tallyOf es) rows ↔ row ∈ rows ∧
      ∃ e ∈ es, e.currentEvent.isSome ∧ env.uuid.parse e.emailId = some row.emailId := by
  unfold trackedRows
  rw [List.mem_filter, decide_eq_true_eq, List.mem_map]
  refine and_congr_right fun _ => ?_
  constructor
  · rintro ⟨x, hx, hparse⟩
    obtain ⟨e, he, hevent, rfl⟩ := (mem_emailStatus_keys es x).mp hx
    exact ⟨e, he, hevent, hparse⟩
  · rintro ⟨e, he, hevent, hparse⟩
    exact ⟨_, (mem_emailStatus_keys es _).mpr ⟨e, he, hevent, rfl⟩, hparse⟩

/-- A batch that names its emails by the texts of their UUIDs gets to the transaction. -/
theorem addEmailEvent_ok
    (h : ∀ row ∈ rows, row.currentStatus ≠ some .replied →
      (∃ e ∈ eventsOf env entries, e.currentEvent.isSome ∧
        env.uuid.parse e.emailId = some row.emailId) →
      ∃ e ∈ eventsOf env entries, e.currentEvent.isSome ∧
        e.emailId = env.uuid.text row.emailId) :
    ∃ w, addEmailEvent env rows entries = .ok w ∧
      w.analytics = (tallyOf (eventsOf env entries)).analytics ∧
      w.emailTracker = (trackedRows env (tallyOf (eventsOf env entries)) rows).map fun row =>
        (row, newStatus env (tallyOf (eventsOf env entries)) row) := by
  have htally : (entries.foldl (EmailState.treat env) {}).tally =
      tallyOf (eventsOf env entries) := tally_foldl_treat env entries {}
  have hkeys : ∀ row ∈ trackedRows env (tallyOf (eventsOf env entries)) rows,
      row.currentStatus ≠ some .replied →
      (tallyOf (eventsOf env entries)).emailStatus.get? (env.uuid.text row.emailId) ≠ none := by
    intro row hrow hcurrent
    obtain ⟨hrow, htracked⟩ := (mem_trackedRows env rows).mp hrow
    have hkey := (mem_emailStatus_keys _ _).mpr (h row hrow hcurrent htracked)
    obtain ⟨s, hs⟩ := (Dict.mem_keys_iff _ _).mp hkey
    exact Option.ne_none_iff_exists'.mpr ⟨s, hs⟩
  obtain ⟨contacts, hrows⟩ := updateRows_eq_ok env (tallyOf (eventsOf env entries)) hkeys
  unfold addEmailEvent
  dsimp only
  rw [htally, hrows]
  exact ⟨_, rfl, rfl, rfl⟩

/-- What a batch that got to its transaction has written. -/
theorem of_addEmailEvent_ok {w : EmailWrite υ} (h : addEmailEvent env rows entries = .ok w) :
    (∀ row ∈ rows, row.currentStatus ≠ some .replied →
      (∃ e ∈ eventsOf env entries, e.currentEvent.isSome ∧
        env.uuid.parse e.emailId = some row.emailId) →
      ∃ e ∈ eventsOf env entries, e.currentEvent.isSome ∧
        e.emailId = env.uuid.text row.emailId) ∧
    w.analytics = (tallyOf (eventsOf env entries)).analytics ∧
    w.emailTracker = (trackedRows env (tallyOf (eventsOf env entries)) rows).map fun row =>
      (row, newStatus env (tallyOf (eventsOf env entries)) row) := by
  have hspelled : ∀ row ∈ rows, row.currentStatus ≠ some .replied →
      (∃ e ∈ eventsOf env entries, e.currentEvent.isSome ∧
        env.uuid.parse e.emailId = some row.emailId) →
      ∃ e ∈ eventsOf env entries, e.currentEvent.isSome ∧
        e.emailId = env.uuid.text row.emailId := by
    intro row hrow hcurrent htracked
    by_contra hnone
    rw [← mem_emailStatus_keys, Dict.not_mem_keys_iff] at hnone
    obtain ⟨e, he⟩ := updateRows_error env (tallyOf (eventsOf env entries))
      ((mem_trackedRows env rows).mpr ⟨hrow, htracked⟩) hcurrent hnone
    have htally : (entries.foldl (EmailState.treat env) {}).tally =
        tallyOf (eventsOf env entries) := tally_foldl_treat env entries {}
    unfold addEmailEvent at h
    dsimp only at h
    rw [htally, he] at h
    cases h
  obtain ⟨w', hw', hwritten⟩ := addEmailEvent_ok env rows entries hspelled
  rw [h] at hw'
  cases hw'
  exact ⟨hspelled, hwritten⟩

/-- What is written of an email that has events. -/
theorem mem_emailTracker {w : EmailWrite υ} (h : addEmailEvent env rows entries = .ok w)
    {row : EmailRow υ} (hrow : row ∈ rows) (hevents : rowEvents env entries row ≠ [])
    (status : Option EmailStatus) :
    (row, status) ∈ w.emailTracker ↔ status = if row.currentStatus ≠ some .replied then
      statusNow (statusesOf (eventsOf env entries) (env.uuid.text row.emailId))
      else row.currentStatus := by
  obtain ⟨-, -, htracker⟩ := of_addEmailEvent_ok env rows entries h
  have htracked : row ∈ trackedRows env (tallyOf (eventsOf env entries)) rows := by
    obtain ⟨s, hs⟩ := List.exists_mem_of_ne_nil _ hevents
    obtain ⟨e, he, hx, hevent⟩ := (mem_statusesOf _).mp (List.reduceOption_mem_iff.mp hs)
    refine (mem_trackedRows env rows).mpr ⟨hrow, e, he, by rw [hevent]; rfl, ?_⟩
    rw [hx]
    exact env.uuid.parse_text row.emailId
  rw [htracker, List.mem_map, ← status_tallyOf]
  constructor
  · rintro ⟨row', -, heq⟩
    cases heq
    rfl
  · rintro rfl
    exact ⟨row, htracked, rfl⟩

/-- Only openings are counted otherwise than they should be. -/
theorem countsNow_eq {c : EmailCounter} (hc : c ≠ .opened) :
    EmailEvent.countsNow c = EmailEvent.counts c := by
  funext before e
  unfold EmailEvent.countsNow EmailEvent.counts
  cases c with
  | opened => exact absurd rfl hc
  | _ => rfl

/-- The openings that are counted too often. -/
theorem counterOf_opened (es : List EmailEvent) (provider : Option String) :
    counterOf (tallyOf es).analytics provider .opened =
      counterChange es provider .opened +
        signedSum EmailEvent.factor (fun e => e.espProvider = provider)
          (keepAlong repeatedOpening es) := by
  have hnow : keepAlong (EmailEvent.countsNow .opened) es =
      es.filter (EmailEvent.kind .opened) := by
    rw [← keepAlong_const]
    congr 1
    funext before e
    simp [EmailEvent.countsNow]
  rw [counterOf_tallyOf, hnow]
  refine signedSum_keepAlong_add _ _ (fun before e => ?_) (fun before e h => ?_) es
  · unfold EmailEvent.counts repeatedOpening
    cases e.kind .opened <;> cases seenBefore .opened before e <;> rfl
  · unfold EmailEvent.counts repeatedOpening at h
    cases hseen : seenBefore .opened before e <;> simp [hseen, EmailCounter.once] at h

end Exact

/-- An entry of the stream for an event of an email. -/
def emailEntry (ids emailId : String) (status : EmailStatus) : StreamEntry :=
  ⟨ids, .ofEntries [("email_id", emailId), ("current_event", status.value),
    ("esp_provider", "Gmail")]⟩

/-- UUIDs are texts, and all other fields are accepted. -/
def plainEmails : EmailEnv String := ⟨.plain, fun _ => true⟩

end Notifyr
