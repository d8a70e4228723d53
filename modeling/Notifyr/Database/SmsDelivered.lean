import Notifyr.Database.EmailDelivered

/-!
# Text messages that are taken as delivered

`set_sms_delivered` (`database/twilio.sql`), which runs every hour.

- `markSms`, `smsRunEvents`: the updates and the events; `markSms_eq`: what the updates come to.
- `setSmsDelivered`: one run; `SmsDone`: what it is to leave.
- `setDelivered_done`: every run, for emails and for text messages, leaves what it is to leave, or
  raises because a counter does not fit.
-/

namespace Notifyr.Delivered

open Theory LinkTable Analytics

variable {ι : Type}

/-! ## The tables -/

/-- The domain `SMSStatus`. -/
inductive SMSStatus
  | queued
  | sent
  | delivered
  | failed
  | replied
  | received
  | bounce
  | rejected
  deriving DecidableEq

/-- A row of `SMSTracking`. -/
structure SmsRow (ι : Type) where
  smsId : ι
  dateSent : Option ℤ
  smsCurrentStatus : Option SMSStatus

/-- A row of `SMSEvent`, but for its identifier and its date. -/
structure SmsEventRow (ι : Type) where
  smsId : ι
  currentEvent : SMSStatus
  description : String

/-- The condition of the three selections. -/
def smsDue (now : ℤ) (status : SMSStatus) (row : SmsRow ι) : Bool :=
  decide (row.smsCurrentStatus = some status) && old now row.dateSent

def SmsRow.setStatus (status : SMSStatus) (row : SmsRow ι) : SmsRow ι :=
  { row with smsCurrentStatus := some status }

def deliveredSms (smsId : ι) : SmsEventRow ι :=
  ⟨smsId, .delivered, "SMS marked as delivered after 1 hours"⟩

def failedSms (smsId : ι) : SmsEventRow ι := ⟨smsId, .failed, "SMS marked as failed after 1 hours"⟩

def bouncedSms (smsId : ι) : SmsEventRow ι := ⟨smsId, .bounce, "SMS marked as bounced after 1 hours"⟩

/-- The tables, with their keys. -/
@[ext] structure SmsTables (ι π : Type) where
  tracking : List (SmsRow ι)
  events : List (SmsEventRow ι)
  analytics : List (SmsKey × SmsCounts π)
  unique : (tracking.map SmsRow.smsId).Nodup
  onePerKey : OnePerKey analytics

/-- What becomes of a message. -/
def movedSms (now : ℤ) (row : SmsRow ι) : SmsRow ι :=
  if smsDue now .sent row then row.setStatus .bounce
  else if smsDue now .received row then row.setStatus .failed
  else if smsDue now .queued row then row.setStatus .delivered
  else row

section Sms

variable {π : Type} {now : ℤ} {status : SMSStatus} {row : SmsRow ι} {rows : List (SmsRow ι)}

theorem smsDue_iff :
    smsDue now status row = true ↔
      row.smsCurrentStatus = some status ∧ old now row.dateSent = true := by
  unfold smsDue
  rw [Bool.and_eq_true, decide_eq_true_iff]

theorem smsDue_setStatus {status' : SMSStatus} (hne : status' ≠ status) :
    smsDue now status (row.setStatus status') = false := by
  refine Bool.eq_false_iff.mpr fun hdue => hne ?_
  have hstatus : some status' = some status := (smsDue_iff.mp hdue).1
  exact Option.some.inj hstatus

/-- A message is due in one status at most. -/
theorem smsDue_unique {status' : SMSStatus} (h : smsDue now status row = true)
    (hne : status' ≠ status) : smsDue now status' row = false := by
  refine Bool.eq_false_iff.mpr fun hdue => hne ?_
  exact Option.some.inj ((smsDue_iff.mp hdue).1.symm.trans (smsDue_iff.mp h).1)

@[simp] theorem movedSms_smsId (now : ℤ) (row : SmsRow ι) : (movedSms now row).smsId = row.smsId := by
  unfold movedSms
  split
  · rfl
  · split
    · rfl
    · split <;> rfl

variable [DecidableEq ι]

/-- The three updates of `set_sms_delivered`. -/
def markSms (now : ℤ) (rows : List (SmsRow ι)) : List (SmsRow ι) :=
  let sentSmsIds := selectIds SmsRow.smsId (smsDue now .sent) rows
  let receivedSmsIds := selectIds SmsRow.smsId (smsDue now .received) rows
  let queuedSmsIds := selectIds SmsRow.smsId (smsDue now .queued) rows
  -- all three selections are made before the first update
  let tracking := markAs SmsRow.smsId (SmsRow.setStatus .delivered) queuedSmsIds rows
  let tracking := markAs SmsRow.smsId (SmsRow.setStatus .failed) receivedSmsIds tracking
  markAs SmsRow.smsId (SmsRow.setStatus .bounce) sentSmsIds tracking

theorem markSms_eq (hunique : (rows.map SmsRow.smsId).Nodup) :
    markSms now rows = rows.map (movedSms now) := by
  have hfirst : markAs SmsRow.smsId (SmsRow.setStatus .delivered)
      (selectIds SmsRow.smsId (smsDue now .queued) rows) rows =
        rows.map fun row => if smsDue now .queued row then row.setStatus .delivered else row := by
    have hmark : markAs SmsRow.smsId (SmsRow.setStatus .delivered)
        (selectIds SmsRow.smsId (smsDue now .queued) rows) (rows.map fun row => row) =
          rows.map fun row => if smsDue now .queued row then row.setStatus .delivered else row :=
      markAs_selectIds hunique fun row => rfl
    rw [List.map_id'] at hmark
    exact hmark
  unfold markSms
  dsimp only
  -- the later update wins, but no message is due in two of the statuses
  rw [hfirst, markAs_selectIds hunique (by intro row; split <;> rfl),
    markAs_selectIds hunique (by intro row; split <;> split <;> rfl)]
  refine List.map_congr_left fun row _ => ?_
  unfold movedSms
  by_cases hsent : smsDue now .sent row = true
  · rw [if_pos hsent, if_pos hsent, smsDue_unique hsent (by decide : SMSStatus.received ≠ .sent),
      smsDue_unique hsent (by decide : SMSStatus.queued ≠ .sent)]
    rfl
  · rw [if_neg hsent, if_neg hsent]
    by_cases hreceived : smsDue now .received row = true
    · rw [if_pos hreceived, if_pos hreceived,
        smsDue_unique hreceived (by decide : SMSStatus.queued ≠ .received)]
      rfl
    · rw [if_neg hreceived, if_neg hreceived]

/-- The events of `set_sms_delivered`. -/
def smsRunEvents (now : ℤ) (rows : List (SmsRow ι)) : List (SmsEventRow ι) :=
  (selectIds SmsRow.smsId (smsDue now .queued) rows).map deliveredSms ++
    (selectIds SmsRow.smsId (smsDue now .received) rows).map failedSms ++
    (selectIds SmsRow.smsId (smsDue now .sent) rows).map bouncedSms

variable [AddZeroClass π] {t t' : SmsTables ι π}

/-- The call of `bulk_upsert_sms_analytics`. -/
def smsRunInput (now : ℤ) (rows : List (SmsRow ι)) : SmsInput π where
  d := some .O
  receivedCount := 0
  sentCount := 0
  rejectedCount := 0
  deliveredCount := (selectIds SmsRow.smsId (smsDue now .queued) rows).length
  failedCount := (selectIds SmsRow.smsId (smsDue now .received) rows).length
  bouncedCount := (selectIds SmsRow.smsId (smsDue now .sent) rows).length
  totalPrice := 0

/-- `set_sms_delivered`. -/
def setSmsDelivered (now : ℤ) (t : SmsTables ι π) : Except String (SmsTables ι π) :=
  match h : bulkUpsertSmsAnalytics (dayOf now) t.analytics (smsRunInput now t.tracking) with
  | .error e => .error e
  | .ok analytics => .ok
    { tracking := markSms now t.tracking
      events := t.events ++ smsRunEvents now t.tracking
      analytics
      unique := by
        rw [markSms_eq t.unique, List.map_map]
        have hids : t.tracking.map (SmsRow.smsId ∘ movedSms now) = t.tracking.map SmsRow.smsId :=
          List.map_congr_left fun row _ => movedSms_smsId now row
        rw [hids]
        exact t.unique
      onePerKey := by
        refine UpsertRules.onePerKey_bulkUpsert ?_ h t.onePerKey
        intro record hrecord
        rw [List.mem_singleton.mp hrecord]
        rfl }

/-- `(week_start_date, 'O')`. -/
def smsKey (now : ℤ) : SmsKey := (weekStart (dayOf now), some .O)

/-- The counts that a run adds. -/
def smsMoved (now : ℤ) (t : SmsTables ι π) : SmsCounts π where
  smsReceived := 0
  smsSent := 0
  smsRejected := 0
  smsDelivered := (t.tracking.filter (smsDue now .queued)).length
  smsFailed := (t.tracking.filter (smsDue now .received)).length
  smsBounce := (t.tracking.filter (smsDue now .sent)).length
  totalPrice := 0

/-- No message is due. -/
def NoSmsDue (now : ℤ) (tracking : List (SmsRow ι)) : Prop :=
  ∀ row ∈ tracking, smsDue now .queued row = false ∧ smsDue now .received row = false ∧
    smsDue now .sent row = false

/-- What a run leaves, as for emails; all messages count as outbound. -/
structure SmsDone (now : ℤ) (t t' : SmsTables ι π) : Prop where
  tracking : t'.tracking = t.tracking.map (movedSms now)
  events : t'.events = t.events ++
    ((t.tracking.filter (smsDue now .queued)).map (deliveredSms ∘ SmsRow.smsId) ++
      (t.tracking.filter (smsDue now .received)).map (failedSms ∘ SmsRow.smsId) ++
      (t.tracking.filter (smsDue now .sent)).map (bouncedSms ∘ SmsRow.smsId))
  counted : valueAt t'.analytics (smsKey now) =
    some (plus (valueAt t.analytics (smsKey now)) (smsMoved now t))
  untouched : ∀ key, key ≠ smsKey now → valueAt t'.analytics key = valueAt t.analytics key
  noneDue : NoSmsDue now t'.tracking
  again : ∀ now', weekStart (dayOf now') = weekStart (dayOf now) → NoSmsDue now' t'.tracking →
    setSmsDelivered now' t' = .ok t'

/-- A run, which raises only if a counter leaves the range of its column. -/
def SmsRun (now : ℤ) (t : SmsTables ι π) : Except String (SmsTables ι π) → Prop
  | .ok t' => SmsDone now t t'
  | .error _ => smsRules.fits (plus (valueAt t.analytics (smsKey now)) (smsMoved now t)) = false

omit [DecidableEq ι] in
theorem smsRunInput_record (now : ℤ) (t : SmsTables ι π) :
    (smsRunInput now t.tracking).record (dayOf now) = (smsKey now, smsMoved now t) := by
  unfold smsRunInput
  rw [length_selectIds, length_selectIds, length_selectIds]
  rfl

omit [AddZeroClass π] in
theorem smsRecords_nodup (record : SmsKey × SmsCounts π) : ([record].map Prod.fst).Nodup :=
  List.nodup_singleton record.1

theorem setSmsDelivered_ok (h : setSmsDelivered now t = .ok t') :
    t'.tracking = t.tracking.map (movedSms now) ∧
      t'.events = t.events ++ smsRunEvents now t.tracking ∧
      smsRules.bulkUpsert t.analytics [(smsKey now, smsMoved now t)] = .ok t'.analytics := by
  unfold setSmsDelivered at h
  split at h
  · cases h
  · next analytics hbulk =>
    cases h
    unfold bulkUpsertSmsAnalytics at hbulk
    rw [smsRunInput_record] at hbulk
    exact ⟨markSms_eq t.unique, rfl, hbulk⟩

theorem setSmsDelivered_of_bulk {analytics : List (SmsKey × SmsCounts π)}
    (h : smsRules.bulkUpsert t.analytics [(smsKey now, smsMoved now t)] = .ok analytics) :
    ∃ t', setSmsDelivered now t = .ok t' ∧ t'.analytics = analytics := by
  unfold setSmsDelivered
  split
  · next e hbulk =>
    unfold bulkUpsertSmsAnalytics at hbulk
    rw [smsRunInput_record, h] at hbulk
    cases hbulk
  · next analytics' hbulk =>
    unfold bulkUpsertSmsAnalytics at hbulk
    rw [smsRunInput_record, h] at hbulk
    cases hbulk
    exact ⟨_, rfl, rfl⟩

theorem setSmsDelivered_error {e : String} (h : setSmsDelivered now t = .error e) :
    smsRules.fits (plus (valueAt t.analytics (smsKey now)) (smsMoved now t)) = false := by
  by_contra hfits
  have hmeets : RecordsMeet smsRules t.analytics [(smsKey now, smsMoved now t)] := by
    refine (recordsMeet_of_nodup (smsRecords_nodup _)).mpr fun record hrecord => ?_
    rw [List.mem_singleton.mp hrecord]
    exact ⟨rfl, fun _ => rfl, fun _ => rfl, Bool.not_eq_false _ ▸ hfits⟩
  obtain ⟨analytics, hbulk, -⟩ := hmeets.bulkUpsert smsRules_merge t.onePerKey
  obtain ⟨t', hok, -⟩ := setSmsDelivered_of_bulk hbulk
  rw [h] at hok
  cases hok

omit [DecidableEq ι] in
/-- After a run no message is due any more. -/
theorem noSmsDue_moved (now : ℤ) (rows : List (SmsRow ι)) :
    NoSmsDue now (rows.map (movedSms now)) := by
  intro moved hmoved
  obtain ⟨row, -, rfl⟩ := List.mem_map.mp hmoved
  unfold movedSms
  by_cases hsent : smsDue now .sent row = true
  · rw [if_pos hsent]
    exact ⟨smsDue_setStatus (by decide), smsDue_setStatus (by decide), smsDue_setStatus (by decide)⟩
  rw [if_neg hsent]
  by_cases hreceived : smsDue now .received row = true
  · rw [if_pos hreceived]
    exact ⟨smsDue_setStatus (by decide), smsDue_setStatus (by decide), smsDue_setStatus (by decide)⟩
  rw [if_neg hreceived]
  by_cases hqueued : smsDue now .queued row = true
  · rw [if_pos hqueued]
    exact ⟨smsDue_setStatus (by decide), smsDue_setStatus (by decide), smsDue_setStatus (by decide)⟩
  · rw [if_neg hqueued]
    exact ⟨Bool.eq_false_iff.mpr hqueued, Bool.eq_false_iff.mpr hreceived,
      Bool.eq_false_iff.mpr hsent⟩

/-- A run in which no message is due, of a week that has its row already, changes nothing. -/
theorem setSmsDelivered_again (hnone : NoSmsDue now t.tracking)
    (hrow : ∃ counts, valueAt t.analytics (smsKey now) = some counts ∧
      smsRules.fits counts = true) : setSmsDelivered now t = .ok t := by
  have hfilter : ∀ status, (∀ row ∈ t.tracking, smsDue now status row = false) →
      t.tracking.filter (smsDue now status) = [] := by
    intro status hstatus
    refine List.filter_eq_nil_iff.mpr fun row hrow hdue => ?_
    rw [hstatus row hrow] at hdue
    cases hdue
  have hqueued := hfilter .queued fun row hrow => (hnone row hrow).1
  have hreceived := hfilter .received fun row hrow => (hnone row hrow).2.1
  have hsent := hfilter .sent fun row hrow => (hnone row hrow).2.2
  have hbulk : smsRules.bulkUpsert t.analytics [(smsKey now, smsMoved now t)] =
      .ok t.analytics := by
    refine bulkUpsert_neutral smsRules_merge fun record hrecord => ?_
    rw [List.mem_singleton.mp hrecord]
    obtain ⟨⟨a, b, c, d, e, f, price⟩, hcounts, hfits⟩ := hrow
    refine ⟨rfl, rfl, _, hcounts, ?_, hfits⟩
    unfold smsMoved
    rw [hqueued, hreceived, hsent]
    show SmsCounts.mk (a + 0) (b + 0) (c + 0) (d + 0) (e + 0) (f + 0) (price + 0) = _
    simp only [add_zero]
  obtain ⟨t', hok, hanalytics⟩ := setSmsDelivered_of_bulk hbulk
  obtain ⟨htracking, hevents, -⟩ := setSmsDelivered_ok hok
  rw [hok]
  refine congrArg Except.ok (SmsTables.ext ?_ ?_ hanalytics)
  · rw [htracking]
    conv_rhs => rw [← List.map_id t.tracking]
    refine List.map_congr_left fun row hrow => ?_
    obtain ⟨hrow₁, hrow₂, hrow₃⟩ := hnone row hrow
    unfold movedSms
    rw [hrow₁, hrow₂, hrow₃, if_neg Bool.false_ne_true, if_neg Bool.false_ne_true,
      if_neg Bool.false_ne_true]
    rfl
  · rw [hevents]
    unfold smsRunEvents selectIds
    rw [hqueued, hreceived, hsent]
    exact List.append_nil t.events

theorem setSmsDelivered_done (now : ℤ) (t : SmsTables ι π) :
    SmsRun now t (setSmsDelivered now t) := by
  cases hrun : setSmsDelivered now t with
  | error e => exact setSmsDelivered_error hrun
  | ok t' =>
    obtain ⟨htracking, hevents, hbulk⟩ := setSmsDelivered_ok hrun
    have hvalues := valueAt_bulkUpsert smsRules_merge hbulk t'.onePerKey
    have hmeets := (recordsMeet_of_nodup (smsRecords_nodup _)).mp
      ((bulkUpsert_ok_iff smsRules_merge t.onePerKey).mp ⟨_, hbulk, t'.onePerKey⟩)
    have hcounted : valueAt t'.analytics (smsKey now) =
        some (plus (valueAt t.analytics (smsKey now)) (smsMoved now t)) := by
      rw [hvalues, valuesFor_cons_self]
      rfl
    refine ⟨htracking, ?_, hcounted, ?_, ?_, ?_⟩
    · rw [hevents]
      unfold smsRunEvents selectIds
      rw [List.map_map, List.map_map, List.map_map]
    · intro key hkey
      rw [hvalues, valuesFor_cons_ne (fun h => hkey h.symm)]
      rfl
    · rw [htracking]
      exact noSmsDue_moved now t.tracking
    · intro now' hweek hnone
      refine setSmsDelivered_again hnone ?_
      have hkey : smsKey now' = smsKey now := congrArg (·, some Direction.O) hweek
      rw [hkey]
      exact ⟨_, hcounted, (hmeets _ (List.mem_singleton_self _)).fits⟩

end Sms

/-! ## Both functions -/

/-- A run of either function does what it is to do, or raises because a counter does not fit. -/
theorem setDelivered_done {π : Type} [DecidableEq ι] [AddZeroClass π] (now : ℤ)
    (emails : EmailTables ι) (sms : SmsTables ι π) :
    EmailRun now emails (setEmailDelivered now emails) ∧ SmsRun now sms (setSmsDelivered now sms) :=
  ⟨setEmailDelivered_done now emails, setSmsDelivered_done now sms⟩

end Notifyr.Delivered
