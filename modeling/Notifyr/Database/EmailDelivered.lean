import Notifyr.Callback.EmailEvents
import Notifyr.Database.Analytics
import Notifyr.Theory.Marking

/-!
# Emails that are taken as delivered

`set_email_delivered` (`database/emails.sql`), which runs every hour.

- `emailPass`, `emailLoop`: the loop over the providers; `emailLoop_eq`: what it comes to.
- `setEmailDelivered`: one run; `EmailsDone`: what it is to leave.
- `setEmailDelivered_done`: every run leaves it, or raises because a counter does not fit.

An instant is a number of microseconds since the first of January 1970, in UTC.
-/

namespace Notifyr.Delivered

open Theory LinkTable Analytics

/-! ## The loop over the providers -/

/-- An hour. -/
def hour : ℤ := 3600 * 1000000

/-- `DATE_TRUNC('DAY', NOW())`. -/
def dayOf (now : ℤ) : ℤ := now / (24 * hour)

/-- `NOW() - date_sent >= INTERVAL '1 hours'`. -/
def old (now : ℤ) (dateSent : Option ℤ) : Bool :=
  match dateSent with
  | none => false
  | some dateSent => decide (hour ≤ now - dateSent)

/-- A row of `EmailTracking`. -/
structure EmailRow (ι : Type) where
  emailId : ι
  espProvider : Option String
  dateSent : Option ℤ
  emailCurrentStatus : Option EmailStatus

/-- A row of `TrackingEvent`, but for its identifier and its date. -/
structure EmailEventRow (ι : Type) where
  emailId : ι
  currentEvent : EmailStatus
  description : String

def espList : List String :=
  ["Google", "Microsoft", "Yahoo", "Apple", "ProtonMail", "Zoho", "AOL", "Untracked Provider"]

variable {ι : Type}

/-- The condition of the two selections for a provider. -/
def emailDue (now : ℤ) (status : EmailStatus) (esp : String) (row : EmailRow ι) : Bool :=
  decide (row.emailCurrentStatus = some status) && decide (row.espProvider = some esp) &&
    old now row.dateSent

def EmailRow.setStatus (status : EmailStatus) (row : EmailRow ι) : EmailRow ι :=
  { row with emailCurrentStatus := some status }

/-- The variables of the loop over the providers. -/
structure EmailLoop (ι : Type) where
  tracking : List (EmailRow ι)
  events : List (EmailEventRow ι)
  analytics : List EmailInput

/-- The input for the analytics of a provider. -/
def emailInput (esp : String) (delivered failed : ℕ) : EmailInput where
  esp := some esp
  receivedCount := 0
  sentCount := 0
  rejectedCount := 0
  deliveredCount := delivered
  openedCount := 0
  bouncedCount := 0
  complaintCount := 0
  repliedCount := 0
  failedCount := failed

def deliveredEmail (emailId : ι) : EmailEventRow ι :=
  ⟨emailId, .delivered, "Email marked as delivered after 1 hours"⟩

def failedEmail (emailId : ι) : EmailEventRow ι :=
  ⟨emailId, .failed, "Email marked as failed after 1 hours"⟩

/-- The body of the loop. -/
def emailPass [DecidableEq ι] (now : ℤ) (s : EmailLoop ι) (esp : String) : EmailLoop ι :=
  let sentEmailIds := selectIds EmailRow.emailId (emailDue now .sent esp) s.tracking
  let receivedEmailIds := selectIds EmailRow.emailId (emailDue now .received esp) s.tracking
  -- both selections are made before the first update
  let tracking := markAs EmailRow.emailId (EmailRow.setStatus .delivered) sentEmailIds s.tracking
  let tracking := markAs EmailRow.emailId (EmailRow.setStatus .failed) receivedEmailIds tracking
  { tracking
    events := s.events ++ sentEmailIds.map deliveredEmail ++ receivedEmailIds.map failedEmail
    analytics := s.analytics ++ [emailInput esp sentEmailIds.length receivedEmailIds.length] }

/-- The loop of `set_email_delivered`. -/
def emailLoop [DecidableEq ι] (now : ℤ) (tracking : List (EmailRow ι))
    (events : List (EmailEventRow ι)) : EmailLoop ι :=
  espList.foldl (emailPass now) ⟨tracking, events, []⟩

/-! ## What the loop does -/

/-- An email that was sent an hour ago, to one of some providers. -/
def dueTo (now : ℤ) (status : EmailStatus) (esps : List String) (row : EmailRow ι) : Bool :=
  esps.any fun esp => emailDue now status esp row

/-- What becomes of an email. -/
def movedEmail (now : ℤ) (esps : List String) (row : EmailRow ι) : EmailRow ι :=
  if dueTo now .received esps row then row.setStatus .failed
  else if dueTo now .sent esps row then row.setStatus .delivered
  else row

section Loop

variable {now : ℤ} {status : EmailStatus} {esp : String} {esps : List String} {row : EmailRow ι}
  {rows : List (EmailRow ι)} {events : List (EmailEventRow ι)}

theorem emailDue_iff :
    emailDue now status esp row = true ↔
      row.emailCurrentStatus = some status ∧ row.espProvider = some esp ∧
        old now row.dateSent = true := by
  unfold emailDue
  rw [Bool.and_eq_true, Bool.and_eq_true, decide_eq_true_iff, decide_eq_true_iff, and_assoc]

theorem dueTo_iff :
    dueTo now status esps row = true ↔
      row.emailCurrentStatus = some status ∧ (∃ esp ∈ esps, row.espProvider = some esp) ∧
        old now row.dateSent = true := by
  unfold dueTo
  rw [List.any_eq_true]
  constructor
  · rintro ⟨esp, hesp, hdue⟩
    obtain ⟨hstatus, hprovider, hold⟩ := emailDue_iff.mp hdue
    exact ⟨hstatus, ⟨esp, hesp, hprovider⟩, hold⟩
  · rintro ⟨hstatus, ⟨esp, hesp, hprovider⟩, hold⟩
    exact ⟨esp, hesp, emailDue_iff.mpr ⟨hstatus, hprovider, hold⟩⟩

/-- An email in another status is not due. -/
theorem dueTo_setStatus {status' : EmailStatus} (hne : status' ≠ status) :
    dueTo now status esps (row.setStatus status') = false := by
  refine Bool.eq_false_iff.mpr fun hdue => hne ?_
  have hstatus : some status' = some status := (dueTo_iff.mp hdue).1
  exact Option.some.inj hstatus

@[simp] theorem movedEmail_emailId (now : ℤ) (esps : List String) (row : EmailRow ι) :
    (movedEmail now esps row).emailId = row.emailId := by
  unfold movedEmail
  split
  · rfl
  · split <;> rfl

@[simp] theorem movedEmail_espProvider (now : ℤ) (esps : List String) (row : EmailRow ι) :
    (movedEmail now esps row).espProvider = row.espProvider := by
  unfold movedEmail
  split
  · rfl
  · split <;> rfl

/-- An email is due to its own provider only. -/
theorem dueTo_of_notMem (hprovider : row.espProvider = some esp) (hesp : esp ∉ esps)
    (status : EmailStatus) : dueTo now status esps row = false := by
  refine Bool.eq_false_iff.mpr fun hdue => ?_
  obtain ⟨-, ⟨esp', hmem, hesp'⟩, -⟩ := dueTo_iff.mp hdue
  rw [hprovider] at hesp'
  cases hesp'
  exact hesp hmem

/-- An email to another provider stays as it is. -/
theorem movedEmail_of_notMem (hprovider : row.espProvider = some esp) (hesp : esp ∉ esps) :
    movedEmail now esps row = row := by
  have hnot : ∀ status, ¬ dueTo now status esps row = true := fun status =>
    Bool.eq_false_iff.mp (dueTo_of_notMem hprovider hesp status)
  unfold movedEmail
  rw [if_neg (hnot .received), if_neg (hnot .sent)]

/-- The passes for other providers do not matter to a selection. -/
theorem emailDue_movedEmail (hesp : esp ∉ esps) (row : EmailRow ι) :
    emailDue now status esp (movedEmail now esps row) = emailDue now status esp row := by
  by_cases hprovider : row.espProvider = some esp
  · rw [movedEmail_of_notMem hprovider hesp]
  · have hno : ∀ row' : EmailRow ι, row'.espProvider = row.espProvider →
        emailDue now status esp row' = false := by
      intro row' hrow'
      refine Bool.eq_false_iff.mpr fun hdue => hprovider ?_
      rw [← hrow']
      exact (emailDue_iff.mp hdue).2.1
    rw [hno _ (movedEmail_espProvider now esps row), hno row rfl]

/-- The events of one pass. -/
def passEvents (now : ℤ) (rows : List (EmailRow ι)) (esp : String) : List (EmailEventRow ι) :=
  (selectIds EmailRow.emailId (emailDue now .sent esp) rows).map deliveredEmail ++
    (selectIds EmailRow.emailId (emailDue now .received esp) rows).map failedEmail

/-- The input for the analytics of one pass. -/
def passInput (now : ℤ) (rows : List (EmailRow ι)) (esp : String) : EmailInput :=
  emailInput esp (selectIds EmailRow.emailId (emailDue now .sent esp) rows).length
    (selectIds EmailRow.emailId (emailDue now .received esp) rows).length

/-- A provider more. -/
theorem movedEmail_append (hesp : esp ∉ esps) (row : EmailRow ι) :
    (if emailDue now .received esp row then
      (if emailDue now .sent esp row then (movedEmail now esps row).setStatus .delivered
        else movedEmail now esps row).setStatus .failed
      else if emailDue now .sent esp row then (movedEmail now esps row).setStatus .delivered
        else movedEmail now esps row) = movedEmail now (esps ++ [esp]) row := by
  have happend : ∀ status, dueTo now status (esps ++ [esp]) row =
      (dueTo now status esps row || emailDue now status esp row) := by
    intro status
    unfold dueTo
    rw [List.any_append, List.any_cons, List.any_nil, Bool.or_false]
  -- the email is of the new provider, and of no earlier one, or the pass does not see it
  by_cases hprovider : row.espProvider = some esp
  · have hnot : ∀ status, dueTo now status esps row = false :=
      dueTo_of_notMem hprovider hesp
    rw [movedEmail_of_notMem hprovider hesp]
    unfold movedEmail
    rw [happend, happend, hnot, hnot, Bool.false_or, Bool.false_or]
    by_cases hreceived : emailDue now .received esp row = true
    · rw [if_pos hreceived, if_pos hreceived]
      split <;> rfl
    · rw [if_neg hreceived, if_neg hreceived]
  · have hnot : ∀ status, emailDue now status esp row = false := by
      intro status
      exact Bool.eq_false_iff.mpr fun hdue => hprovider (emailDue_iff.mp hdue).2.1
    unfold movedEmail
    rw [happend, happend, hnot, hnot, Bool.or_false, Bool.or_false, if_neg Bool.false_ne_true,
      if_neg Bool.false_ne_true]

variable [DecidableEq ι]

/-- One pass, after passes for other providers. -/
theorem emailPass_moved (hunique : (rows.map EmailRow.emailId).Nodup) (hesp : esp ∉ esps)
    (analytics : List EmailInput) :
    emailPass now ⟨rows.map (movedEmail now esps), events, analytics⟩ esp =
      ⟨rows.map (movedEmail now (esps ++ [esp])), events ++ passEvents now rows esp,
        analytics ++ [passInput now rows esp]⟩ := by
  have hselect : ∀ status, selectIds EmailRow.emailId (emailDue now status esp)
      (rows.map (movedEmail now esps)) =
        selectIds EmailRow.emailId (emailDue now status esp) rows := fun status =>
    selectIds_map (movedEmail_emailId now esps) (emailDue_movedEmail hesp)
  unfold emailPass
  dsimp only
  rw [hselect, hselect, markAs_selectIds hunique (movedEmail_emailId now esps),
    markAs_selectIds hunique (by intro row; split <;> exact movedEmail_emailId _ _ _),
    List.append_assoc]
  congr 1
  exact List.map_congr_left fun row _ => movedEmail_append hesp row

theorem emailLoop_eq (hunique : (rows.map EmailRow.emailId).Nodup)
    (events : List (EmailEventRow ι)) :
    emailLoop now rows events =
      ⟨rows.map (movedEmail now espList), events ++ espList.flatMap (passEvents now rows),
        espList.map (passInput now rows)⟩ := by
  have hloop : ∀ (todo done : List String) (events : List (EmailEventRow ι))
      (analytics : List EmailInput), (done ++ todo).Nodup →
      todo.foldl (emailPass now) ⟨rows.map (movedEmail now done), events, analytics⟩ =
        ⟨rows.map (movedEmail now (done ++ todo)), events ++ todo.flatMap (passEvents now rows),
          analytics ++ todo.map (passInput now rows)⟩ := by
    intro todo
    -- the rows in the loop are those of the start, moved for the providers that are done
    induction todo with
    | nil =>
      intro done events analytics _
      rw [List.flatMap_nil, List.map_nil, List.append_nil, List.append_nil, List.append_nil]
      rfl
    | cons esp todo ih =>
      intro done events analytics hnodup
      have hesp : esp ∉ done := by
        intro hmem
        exact (List.nodup_append.mp hnodup).2.2 esp hmem esp List.mem_cons_self rfl
      rw [List.foldl_cons, emailPass_moved hunique hesp, ih, List.flatMap_cons, List.map_cons,
        List.append_assoc, List.append_assoc, List.append_assoc]
      · rfl
      · rw [List.append_assoc]
        exact hnodup
  have hstart : rows.map (movedEmail now []) = rows := by
    conv_rhs => rw [← List.map_id rows]
    exact List.map_congr_left fun row _ => rfl
  have hall := hloop espList [] events [] (by decide)
  rw [hstart] at hall
  exact hall

end Loop

/-! ## A run for emails -/

/-- The tables, with their keys. -/
@[ext] structure EmailTables (ι : Type) where
  tracking : List (EmailRow ι)
  events : List (EmailEventRow ι)
  analytics : List (EmailKey × EmailCounts)
  unique : (tracking.map EmailRow.emailId).Nodup
  onePerKey : OnePerKey analytics

section Emails

variable [DecidableEq ι] {now : ℤ} {t t' : EmailTables ι}

theorem emailLoop_unique (now : ℤ) (t : EmailTables ι) :
    ((emailLoop now t.tracking t.events).tracking.map EmailRow.emailId).Nodup := by
  rw [emailLoop_eq t.unique, List.map_map]
  have hids : t.tracking.map (EmailRow.emailId ∘ movedEmail now espList) =
      t.tracking.map EmailRow.emailId :=
    List.map_congr_left fun row _ => movedEmail_emailId now espList row
  rw [hids]
  exact t.unique

/-- The rows that the loop adds to the analytics. -/
theorem emailLoop_records (now : ℤ) (t : EmailTables ι) :
    (emailLoop now t.tracking t.events).analytics.map (EmailInput.record (dayOf now)) =
      espList.map fun esp => (passInput now t.tracking esp).record (dayOf now) := by
  rw [emailLoop_eq t.unique, List.map_map]
  rfl

omit [DecidableEq ι] in
theorem indexed_record (today : ℤ) (rows : List (EmailRow ι)) :
    ∀ record ∈ espList.map (fun esp => (passInput now rows esp).record today),
      emailRules.indexed record.1 = true := by
  intro record hrecord
  obtain ⟨esp, -, rfl⟩ := List.mem_map.mp hrecord
  rfl

/-- `set_email_delivered`. -/
def setEmailDelivered (now : ℤ) (t : EmailTables ι) : Except String (EmailTables ι) :=
  let loop := emailLoop now t.tracking t.events
  match h : bulkUpsertEmailAnalytics (dayOf now) t.analytics loop.analytics with
  | .error e => .error e
  | .ok analytics => .ok
    { tracking := loop.tracking
      events := loop.events
      analytics
      unique := emailLoop_unique now t
      onePerKey := by
        refine UpsertRules.onePerKey_bulkUpsert ?_ h t.onePerKey
        rw [emailLoop_records]
        exact indexed_record (dayOf now) t.tracking }

/-- The counts that a run adds for a provider. -/
def emailsMoved (now : ℤ) (t : EmailTables ι) (esp : String) : EmailCounts :=
  ((emailInput esp (t.tracking.filter (emailDue now .sent esp)).length
    (t.tracking.filter (emailDue now .received esp)).length).record (dayOf now)).2

/-- No email is due. -/
def NoneDue (now : ℤ) (tracking : List (EmailRow ι)) : Prop :=
  ∀ row ∈ tracking, dueTo now .sent espList row = false ∧ dueTo now .received espList row = false

/-- What a run leaves: each email that was due has moved, and no other; there is one event for each
of them; the counters of each provider have grown by its emails; and another run of the same day in
which none is due changes nothing. -/
structure EmailsDone (now : ℤ) (t t' : EmailTables ι) : Prop where
  tracking : t'.tracking = t.tracking.map (movedEmail now espList)
  events : ∃ fresh, t'.events = t.events ++ fresh ∧
    fresh.Perm ((t.tracking.filter (dueTo now .sent espList)).map (deliveredEmail ∘ EmailRow.emailId)
      ++ (t.tracking.filter (dueTo now .received espList)).map (failedEmail ∘ EmailRow.emailId))
  counted : ∀ esp ∈ espList, valueAt t'.analytics (dayOf now, some esp) =
    some (plus (valueAt t.analytics (dayOf now, some esp)) (emailsMoved now t esp))
  untouched : ∀ key, (∀ esp ∈ espList, key ≠ (dayOf now, some esp)) →
    valueAt t'.analytics key = valueAt t.analytics key
  noneDue : NoneDue now t'.tracking
  again : ∀ now', dayOf now' = dayOf now → NoneDue now' t'.tracking →
    setEmailDelivered now' t' = .ok t'

/-- A run, which raises only if a counter leaves the range of its column. -/
def EmailRun (now : ℤ) (t : EmailTables ι) : Except String (EmailTables ι) → Prop
  | .ok t' => EmailsDone now t t'
  | .error _ => ∃ esp ∈ espList, emailRules.fits
      (plus (valueAt t.analytics (dayOf now, some esp)) (emailsMoved now t esp)) = false

/-- The records of a run, one for each provider. -/
def runRecords (now : ℤ) (t : EmailTables ι) : List (EmailKey × EmailCounts) :=
  espList.map fun esp => ((dayOf now, some esp), emailsMoved now t esp)

theorem runRecords_eq (now : ℤ) (t : EmailTables ι) :
    (emailLoop now t.tracking t.events).analytics.map (EmailInput.record (dayOf now)) =
      runRecords now t := by
  rw [emailLoop_records]
  refine List.map_congr_left fun esp _ => ?_
  unfold passInput
  rw [length_selectIds, length_selectIds]
  rfl

omit [DecidableEq ι] in
theorem runRecords_nodup (now : ℤ) (t : EmailTables ι) :
    ((runRecords now t).map Prod.fst).Nodup := by
  unfold runRecords
  rw [List.map_map]
  refine List.Nodup.map ?_ (by decide : espList.Nodup)
  intro esp esp' hkey
  exact Option.some.inj (congrArg Prod.snd hkey)

omit [DecidableEq ι] in
theorem mem_runRecords {esp : String} (hesp : esp ∈ espList) (now : ℤ) (t : EmailTables ι) :
    ((dayOf now, some esp), emailsMoved now t esp) ∈ runRecords now t :=
  List.mem_map.mpr ⟨esp, hesp, rfl⟩

omit [DecidableEq ι] in
/-- The emails that are due to a provider of the list are due to one of them. -/
theorem due_disjoint (now : ℤ) (status : EmailStatus) :
    espList.Pairwise fun esp esp' => ∀ row : EmailRow ι,
      emailDue now status esp row = true → emailDue now status esp' row = false := by
  have hnodup : espList.Nodup := by decide
  refine hnodup.imp fun {esp esp'} hne row hdue => Bool.eq_false_iff.mpr fun hdue' => hne ?_
  have hsame := (emailDue_iff.mp hdue).2.1.symm.trans (emailDue_iff.mp hdue').2.1
  exact Option.some.inj hsame

omit [DecidableEq ι] in
theorem flatMap_selectIds_perm {β : Type} (now : ℤ) (status : EmailStatus) (f : ι → β)
    (rows : List (EmailRow ι)) :
    (espList.flatMap fun esp =>
      (selectIds EmailRow.emailId (emailDue now status esp) rows).map f).Perm
        ((rows.filter (dueTo now status espList)).map (f ∘ EmailRow.emailId)) := by
  have hperm := (flatMap_filter_perm (emailDue now status) (due_disjoint now status) rows).map
    (f ∘ EmailRow.emailId)
  rw [List.map_flatMap] at hperm
  have hselect : (fun esp => (selectIds EmailRow.emailId (emailDue now status esp) rows).map f) =
      fun esp => (rows.filter (emailDue now status esp)).map (f ∘ EmailRow.emailId) := by
    funext esp
    exact List.map_map
  rw [hselect]
  exact hperm

omit [DecidableEq ι] in
/-- The events of a run: one for each email that is due. -/
theorem passEvents_perm (now : ℤ) (rows : List (EmailRow ι)) :
    (espList.flatMap (passEvents now rows)).Perm
      ((rows.filter (dueTo now .sent espList)).map (deliveredEmail ∘ EmailRow.emailId) ++
        (rows.filter (dueTo now .received espList)).map (failedEmail ∘ EmailRow.emailId)) :=
  (List.flatMap_append_perm espList _ _).symm.trans
    ((flatMap_selectIds_perm now .sent deliveredEmail rows).append
      (flatMap_selectIds_perm now .received failedEmail rows))

omit [DecidableEq ι] in
/-- After a run no email is due any more. -/
theorem noneDue_moved (now : ℤ) (rows : List (EmailRow ι)) :
    NoneDue now (rows.map (movedEmail now espList)) := by
  intro moved hmoved
  obtain ⟨row, -, rfl⟩ := List.mem_map.mp hmoved
  by_cases hreceived : dueTo now .received espList row = true
  · have hrow : movedEmail now espList row = row.setStatus .failed := if_pos hreceived
    rw [hrow]
    exact ⟨dueTo_setStatus (by decide), dueTo_setStatus (by decide)⟩
  by_cases hsent : dueTo now .sent espList row = true
  · have hrow : movedEmail now espList row = row.setStatus .delivered :=
      (if_neg hreceived).trans (if_pos hsent)
    rw [hrow]
    exact ⟨dueTo_setStatus (by decide), dueTo_setStatus (by decide)⟩
  · have hrow : movedEmail now espList row = row :=
      (if_neg hreceived).trans (if_neg hsent)
    rw [hrow]
    exact ⟨Bool.eq_false_iff.mpr hsent, Bool.eq_false_iff.mpr hreceived⟩

/-- What a run that does not raise has made of the tables. -/
theorem setEmailDelivered_ok (h : setEmailDelivered now t = .ok t') :
    t'.tracking = t.tracking.map (movedEmail now espList) ∧
      t'.events = t.events ++ espList.flatMap (passEvents now t.tracking) ∧
      emailRules.bulkUpsert t.analytics (runRecords now t) = .ok t'.analytics := by
  unfold setEmailDelivered at h
  dsimp only at h
  split at h
  · cases h
  · next analytics hbulk =>
    have hloop : emailLoop now t.tracking t.events = _ := emailLoop_eq t.unique t.events
    unfold bulkUpsertEmailAnalytics at hbulk
    rw [runRecords_eq] at hbulk
    rw [← Except.ok.inj h]
    dsimp only
    rw [hloop]
    exact ⟨rfl, rfl, hbulk⟩

/-- A run in which the analytics are added. -/
theorem setEmailDelivered_of_bulk {analytics : List (EmailKey × EmailCounts)}
    (h : emailRules.bulkUpsert t.analytics (runRecords now t) = .ok analytics) :
    ∃ t', setEmailDelivered now t = .ok t' ∧ t'.analytics = analytics := by
  unfold setEmailDelivered
  dsimp only
  split
  · next e hbulk =>
    unfold bulkUpsertEmailAnalytics at hbulk
    rw [runRecords_eq, h] at hbulk
    cases hbulk
  · next analytics' hbulk =>
    unfold bulkUpsertEmailAnalytics at hbulk
    rw [runRecords_eq, h] at hbulk
    cases hbulk
    exact ⟨_, rfl, rfl⟩

omit [DecidableEq ι] in
theorem recordMeets_runRecords {record : EmailKey × EmailCounts} (h : record ∈ runRecords now t)
    (hfits : emailRules.fits (plus (valueAt t.analytics record.1) record.2) = true) :
    RecordMeets emailRules (valueAt t.analytics record.1) record := by
  obtain ⟨esp, -, rfl⟩ := List.mem_map.mp h
  exact ⟨rfl, fun _ => rfl, fun _ => rfl, hfits⟩

/-- A run raises only if a counter does not fit. -/
theorem setEmailDelivered_error {e : String} (h : setEmailDelivered now t = .error e) :
    ∃ esp ∈ espList, emailRules.fits
      (plus (valueAt t.analytics (dayOf now, some esp)) (emailsMoved now t esp)) = false := by
  by_contra hfits
  have hmeets : RecordsMeet emailRules t.analytics (runRecords now t) := by
    refine (recordsMeet_of_nodup (runRecords_nodup now t)).mpr fun record hrecord => ?_
    refine recordMeets_runRecords hrecord ?_
    obtain ⟨esp, hesp, rfl⟩ := List.mem_map.mp hrecord
    by_contra hbad
    exact hfits ⟨esp, hesp, Bool.eq_false_iff.mpr hbad⟩
  obtain ⟨analytics, hbulk, -⟩ := hmeets.bulkUpsert emailRules_merge t.onePerKey
  obtain ⟨t', hok, -⟩ := setEmailDelivered_of_bulk hbulk
  rw [h] at hok
  cases hok

/-- Counters to which nothing is added. -/
theorem add_emailsMoved_zero (counts : EmailCounts) (esp : String) (today : ℤ) :
    counts + ((emailInput esp 0 0).record today).2 = counts := by
  obtain ⟨a, b, c, d, e, f, g, h, i⟩ := counts
  show EmailCounts.mk (a + 0) (b + 0) (c + 0) (d + 0) (e + 0) (f + 0) (g + 0) (h + 0) (i + 0) = _
  simp only [Int.add_zero]

/-- A run in which no email is due, of a day that has its rows already, changes nothing. -/
theorem setEmailDelivered_again (hnone : NoneDue now t.tracking)
    (hrows : ∀ esp ∈ espList, ∃ counts, valueAt t.analytics (dayOf now, some esp) = some counts ∧
      emailRules.fits counts = true) :
    setEmailDelivered now t = .ok t := by
  have hfilter : ∀ esp ∈ espList, t.tracking.filter (emailDue now .sent esp) = [] ∧
      t.tracking.filter (emailDue now .received esp) = [] := by
    intro esp hesp
    have hno : ∀ status, (∀ row ∈ t.tracking, dueTo now status espList row = false) →
        t.tracking.filter (emailDue now status esp) = [] := by
      intro status hstatus
      refine List.filter_eq_nil_iff.mpr fun row hrow hdue => ?_
      have hsome : dueTo now status espList row = true := List.any_eq_true.mpr ⟨esp, hesp, hdue⟩
      rw [hstatus row hrow] at hsome
      cases hsome
    exact ⟨hno .sent fun row hrow => (hnone row hrow).1,
      hno .received fun row hrow => (hnone row hrow).2⟩
  have hbulk : emailRules.bulkUpsert t.analytics (runRecords now t) = .ok t.analytics := by
    refine bulkUpsert_neutral emailRules_merge fun record hrecord => ?_
    obtain ⟨esp, hesp, rfl⟩ := List.mem_map.mp hrecord
    obtain ⟨counts, hcounts, hfits⟩ := hrows esp hesp
    refine ⟨rfl, rfl, counts, hcounts, ?_, hfits⟩
    show counts + emailsMoved now t esp = counts
    unfold emailsMoved
    rw [(hfilter esp hesp).1, (hfilter esp hesp).2]
    exact add_emailsMoved_zero counts esp (dayOf now)
  -- the analytics are the same, and no row is moved and no event made
  obtain ⟨t', hok, hanalytics⟩ := setEmailDelivered_of_bulk hbulk
  obtain ⟨htracking, hevents, -⟩ := setEmailDelivered_ok hok
  rw [hok]
  refine congrArg Except.ok (EmailTables.ext ?_ ?_ hanalytics)
  · rw [htracking]
    conv_rhs => rw [← List.map_id t.tracking]
    refine List.map_congr_left fun row hrow => ?_
    unfold movedEmail
    rw [(hnone row hrow).1, (hnone row hrow).2, if_neg Bool.false_ne_true,
      if_neg Bool.false_ne_true]
    rfl
  · rw [hevents]
    have hnothing : espList.flatMap (passEvents now t.tracking) = [] := by
      refine List.flatMap_eq_nil_iff.mpr fun esp hesp => ?_
      unfold passEvents selectIds
      rw [(hfilter esp hesp).1, (hfilter esp hesp).2]
      rfl
    rw [hnothing, List.append_nil]

/-- Every run does what it is to do, or raises because a counter does not fit. -/
theorem setEmailDelivered_done (now : ℤ) (t : EmailTables ι) :
    EmailRun now t (setEmailDelivered now t) := by
  cases hrun : setEmailDelivered now t with
  | error e => exact setEmailDelivered_error hrun
  | ok t' =>
    obtain ⟨htracking, hevents, hbulk⟩ := setEmailDelivered_ok hrun
    have hvalues := valueAt_bulkUpsert emailRules_merge hbulk t'.onePerKey
    have hmeets := (recordsMeet_of_nodup (runRecords_nodup now t)).mp
      ((bulkUpsert_ok_iff emailRules_merge t.onePerKey).mp ⟨_, hbulk, t'.onePerKey⟩)
    have hcounted : ∀ esp ∈ espList, valueAt t'.analytics (dayOf now, some esp) =
        some (plus (valueAt t.analytics (dayOf now, some esp)) (emailsMoved now t esp)) := by
      intro esp hesp
      rw [hvalues, valuesFor_of_mem (runRecords_nodup now t) (mem_runRecords hesp now t)]
      rfl
    have hdue : NoneDue now t'.tracking := by
      rw [htracking]
      exact noneDue_moved now t.tracking
    refine ⟨htracking, ⟨_, hevents, passEvents_perm now t.tracking⟩, hcounted, ?_, hdue, ?_⟩
    · intro key hkey
      rw [hvalues, valuesFor_of_notMem]
      · rfl
      · intro hmem
        obtain ⟨record, hrecord, rfl⟩ := List.mem_map.mp hmem
        obtain ⟨esp, hesp, rfl⟩ := List.mem_map.mp hrecord
        exact hkey esp hesp rfl
    · intro now' hday hnone
      refine setEmailDelivered_again hnone fun esp hesp => ?_
      rw [hday]
      exact ⟨_, hcounted esp hesp, (hmeets _ (mem_runRecords hesp now t)).fits⟩

/-- An email that no provider has confirmed, an hour later. -/
def unconfirmed : EmailTables ℕ where
  tracking := [⟨0, some "Google", some 0, some .received⟩]
  events := []
  analytics := []
  unique := by decide
  onePerKey := by unfold OnePerKey; decide

/-- It is not delivered by a run, and fails. -/
theorem unconfirmed_fails :
    (unconfirmed.tracking.filter (dueTo hour .sent espList)) = [] ∧
      ∃ t', setEmailDelivered hour unconfirmed = .ok t' ∧
        t'.tracking.map EmailRow.emailCurrentStatus = [some .failed] := by
  refine ⟨by decide, ?_⟩
  obtain ⟨analytics, hbulk⟩ : ∃ analytics, emailRules.bulkUpsert unconfirmed.analytics
      (runRecords hour unconfirmed) = .ok analytics := ⟨_, rfl⟩
  obtain ⟨t', hok, -⟩ := setEmailDelivered_of_bulk hbulk
  refine ⟨t', hok, ?_⟩
  rw [(setEmailDelivered_ok hok).1]
  decide

end Emails

end Notifyr.Delivered
