import Mathlib.Algebra.Ring.Nat
import Notifyr.Database.Links
import Notifyr.Runtime.Python
import Notifyr.Theory.Upsert

/-!
# The tables of analytics

The functions that add counts to the tables of analytics (`database/emails.sql`,
`database/twilio.sql`, `database/links.sql`, `database/contacts.sql`).

- `emailRules`, `smsRules`, `linkAnalyticsRules`, `contactRules`: the columns and keys of each table.
- `exec`: a call of one of the functions, which adds all of its records or raises.
- `AnalyticsRight`: what a run of calls is to do; `analyticsRight_iff`: which runs do.

A day is counted from 1970-01-01, a Thursday.
-/

namespace Notifyr.Analytics

open Theory LinkTable

/-- `DATE_TRUNC('week', ...)`: the Monday of a day. -/
def weekStart (day : ℤ) : ℤ := day - (day + 3) % 7

def nullValue : String := "null value violates not-null constraint"

def integerOutOfRange : String := "integer out of range"

/-! ## Emails -/

/-- `emails.email_analytics_input`. -/
structure EmailInput where
  esp : Option String
  receivedCount : ℤ
  sentCount : ℤ
  rejectedCount : ℤ
  deliveredCount : ℤ
  openedCount : ℤ
  bouncedCount : ℤ
  complaintCount : ℤ
  repliedCount : ℤ
  failedCount : ℤ

/-- The counters of `EmailAnalytics`. -/
structure EmailCounts where
  emailsReceived : ℤ
  emailsSent : ℤ
  emailsRejected : ℤ
  emailsDelivered : ℤ
  emailsOpened : ℤ
  emailsBounced : ℤ
  emailsComplaint : ℤ
  emailsReplied : ℤ
  emailsFailed : ℤ

instance : Add EmailCounts where
  add a b :=
    ⟨a.emailsReceived + b.emailsReceived, a.emailsSent + b.emailsSent,
      a.emailsRejected + b.emailsRejected, a.emailsDelivered + b.emailsDelivered,
      a.emailsOpened + b.emailsOpened, a.emailsBounced + b.emailsBounced,
      a.emailsComplaint + b.emailsComplaint, a.emailsReplied + b.emailsReplied,
      a.emailsFailed + b.emailsFailed⟩

/-- `(day_start_date, esp_provider)`. -/
abbrev EmailKey : Type := ℤ × Option String

/-- `EmailAnalytics`, and what `DO UPDATE SET` makes of a row. -/
def emailRules : UpsertRules EmailKey EmailCounts where
  notNull key := if key.2 = none then .error nullValue else .ok ()
  indexed key := key.2.isSome
  references _ := .ok ()
  merge old excluded :=
    { emailsReceived := old.emailsReceived + excluded.emailsReceived
      emailsSent := old.emailsSent + excluded.emailsSent
      emailsRejected := old.emailsRejected + excluded.emailsRejected
      emailsDelivered := old.emailsDelivered + excluded.emailsDelivered
      emailsOpened := old.emailsOpened + excluded.emailsOpened
      emailsBounced := old.emailsBounced + excluded.emailsBounced
      emailsComplaint := old.emailsComplaint + excluded.emailsComplaint
      emailsReplied := old.emailsReplied + excluded.emailsReplied
      emailsFailed := old.emailsFailed + excluded.emailsFailed }
  fits counts :=
    decide (InInt4 counts.emailsReceived ∧ InInt4 counts.emailsSent ∧
      InInt4 counts.emailsRejected ∧ InInt4 counts.emailsDelivered ∧
      InInt4 counts.emailsOpened ∧ InInt4 counts.emailsBounced ∧
      InInt4 counts.emailsComplaint ∧ InInt4 counts.emailsReplied ∧ InInt4 counts.emailsFailed)
  outOfRange := integerOutOfRange

/-- The row that `VALUES` makes of an input. -/
def EmailInput.record (today : ℤ) (input : EmailInput) : EmailKey × EmailCounts :=
  ((today, input.esp),
    { emailsReceived := input.receivedCount
      emailsSent := input.sentCount
      emailsRejected := input.rejectedCount
      emailsDelivered := input.deliveredCount
      emailsOpened := input.openedCount
      emailsBounced := input.bouncedCount
      emailsComplaint := input.complaintCount
      emailsReplied := input.repliedCount
      emailsFailed := input.failedCount })

/-- `bulk_upsert_email_analytics`. -/
def bulkUpsertEmailAnalytics (today : ℤ) (rows : List (EmailKey × EmailCounts))
    (data : List EmailInput) : Except String (List (EmailKey × EmailCounts)) :=
  emailRules.bulkUpsert rows (data.map (EmailInput.record today))

/-! ## Text messages -/

/-- The domain `Direction`. -/
inductive Direction
  | I
  | O
  deriving DecidableEq

/-- The parameters of `bulk_upsert_sms_analytics`; a price is a `FLOAT`. -/
structure SmsInput (π : Type) where
  d : Option Direction
  receivedCount : ℤ
  sentCount : ℤ
  rejectedCount : ℤ
  deliveredCount : ℤ
  failedCount : ℤ
  bouncedCount : ℤ
  totalPrice : π

/-- The counters of `SMSAnalytics`. -/
structure SmsCounts (π : Type) where
  smsReceived : ℤ
  smsSent : ℤ
  smsRejected : ℤ
  smsDelivered : ℤ
  smsFailed : ℤ
  smsBounce : ℤ
  totalPrice : π

variable {π χ ι : Type}

instance [Add π] : Add (SmsCounts π) where
  add a b :=
    ⟨a.smsReceived + b.smsReceived, a.smsSent + b.smsSent, a.smsRejected + b.smsRejected,
      a.smsDelivered + b.smsDelivered, a.smsFailed + b.smsFailed, a.smsBounce + b.smsBounce,
      a.totalPrice + b.totalPrice⟩

/-- `(week_start_date, direction)`. -/
abbrev SmsKey : Type := ℤ × Option Direction

/-- `SMSAnalytics`. -/
def smsRules [Add π] : UpsertRules SmsKey (SmsCounts π) where
  notNull key := if key.2 = none then .error nullValue else .ok ()
  indexed key := key.2.isSome
  references _ := .ok ()
  merge old excluded :=
    { smsReceived := old.smsReceived + excluded.smsReceived
      smsSent := old.smsSent + excluded.smsSent
      smsRejected := old.smsRejected + excluded.smsRejected
      smsDelivered := old.smsDelivered + excluded.smsDelivered
      smsFailed := old.smsFailed + excluded.smsFailed
      smsBounce := old.smsBounce + excluded.smsBounce
      totalPrice := old.totalPrice + excluded.totalPrice }
  fits counts :=
    decide (InInt4 counts.smsReceived ∧ InInt4 counts.smsSent ∧ InInt4 counts.smsRejected ∧
      InInt4 counts.smsDelivered ∧ InInt4 counts.smsFailed ∧ InInt4 counts.smsBounce)
  outOfRange := integerOutOfRange

def SmsInput.record (today : ℤ) (input : SmsInput π) : SmsKey × SmsCounts π :=
  ((weekStart today, input.d),
    { smsReceived := input.receivedCount
      smsSent := input.sentCount
      smsRejected := input.rejectedCount
      smsDelivered := input.deliveredCount
      smsFailed := input.failedCount
      smsBounce := input.bouncedCount
      totalPrice := input.totalPrice })

/-- `bulk_upsert_sms_analytics`, one statement. -/
def bulkUpsertSmsAnalytics [Add π] (today : ℤ) (rows : List (SmsKey × SmsCounts π))
    (input : SmsInput π) : Except String (List (SmsKey × SmsCounts π)) :=
  smsRules.bulkUpsert rows [input.record today]

/-! ## Calls -/

/-- `bulk_upsert_call_analytics`. Its statement sets a column `average_price` that `CallAnalytics`
does not have, which is found out when the statement is first made. -/
def bulkUpsertCallAnalytics (data : List χ) : Except String Unit :=
  match data with
  | [] => .ok ()
  | _ :: _ => .error "column \"average_price\" of relation \"callanalytics\" does not exist"

/-! ## Links -/

/-- `links.analytics_input`. -/
structure LinkInput (ι : Type) where
  linkId : Option ι
  country : Option String
  region : Option String
  city : Option String
  device : Option String
  visitsCounts : ℤ

/-- `(link_id, day_start_date, country, region, city, device)`. -/
structure LinkKey (ι : Type) where
  linkId : Option ι
  dayStartDate : ℤ
  country : Option String
  region : Option String
  city : Option String
  device : Option String
  deriving DecidableEq

/-- No column of the key is null. -/
def LinkKey.full (key : LinkKey ι) : Bool :=
  key.linkId.isSome && key.country.isSome && key.region.isSome && key.city.isSome &&
    key.device.isSome

/-- `LinkAnalytics`; the columns of a primary key are never null. -/
def linkAnalyticsRules [DecidableEq ι] (links : List (Link ι)) : UpsertRules (LinkKey ι) ℤ where
  notNull key := if key.full then .ok () else .error nullValue
  indexed key := key.full
  references key :=
    if ∃ link ∈ links, key.linkId = some link.linkId then .ok ()
    else .error "insert or update violates foreign key constraint"
  merge old excluded := old + excluded
  fits visitsCounts := decide (InInt4 visitsCounts)
  outOfRange := integerOutOfRange

def LinkInput.record (today : ℤ) (input : LinkInput ι) : LinkKey ι × ℤ :=
  ({ linkId := input.linkId
     dayStartDate := today
     country := input.country
     region := input.region
     city := input.city
     device := input.device },
    input.visitsCounts)

/-- `bulk_upsert_analytics`. -/
def bulkUpsertLinkAnalytics [DecidableEq ι] (today : ℤ) (links : List (Link ι))
    (rows : List (LinkKey ι × ℤ)) (data : List (LinkInput ι)) :
    Except String (List (LinkKey ι × ℤ)) :=
  (linkAnalyticsRules links).bulkUpsert rows (data.map (LinkInput.record today))

/-- One record of `bulk_upsert_links_visits_counts`, whose identifier may be null. -/
def upsertVisitsInput [DecidableEq ι] (links : List (Link ι)) (record : Option ι × ℤ) :
    Except String (List (Link ι)) :=
  match record.1 with
  | some linkId => upsertVisits links (linkId, record.2)
  -- the trigger is fired before the columns are checked for nulls
  | none => if 9 ≤ publicCount links then .error "Public Links Limit Reached" else .error nullValue

/-- `bulk_upsert_links_visits_counts`. -/
def bulkUpsertVisits [DecidableEq ι] (links : List (Link ι)) (data : List (Option ι × ℤ)) :
    Except String (List (Link ι)) := data.foldlM upsertVisitsInput links

/-- The records of a batch, if no identifier is null. -/
def identified : List (Option ι × ℤ) → Option (List (ι × ℤ))
  | [] => some []
  | (none, _) :: _ => none
  | (some linkId, visits) :: data => (identified data).map ((linkId, visits) :: ·)

/-! ## Contacts -/

/-- `contacts.contact_analytics_input`. -/
structure ContactInput (ι : Type) where
  contentId : Option ι
  country : Option String
  region : Option String
  city : Option String
  subscriptions : ℤ
  unsubscriptions : ℤ

/-- `(week_start_date, content_id, country, region, city)`. -/
structure ContactKey (ι : Type) where
  weekStartDate : ℤ
  contentId : ι
  country : Option String
  region : Option String
  city : Option String
  deriving DecidableEq

/-- The counters of `ContactAnalytics`. -/
structure ContactCounts where
  subscriptionsCount : ℤ
  unsubscriptionsCount : ℤ

instance : Add ContactCounts where
  add a b :=
    ⟨a.subscriptionsCount + b.subscriptionsCount, a.unsubscriptionsCount + b.unsubscriptionsCount⟩

/-- `ContactAnalytics`; `contents` are the identifiers in `SubsContent`. The places may be null, and
then a row conflicts with none. -/
def contactRules [DecidableEq ι] (contents : List ι) : UpsertRules (ContactKey ι) ContactCounts where
  notNull _ := .ok ()
  indexed key := key.country.isSome && key.region.isSome && key.city.isSome
  references key :=
    if key.contentId ∈ contents then .ok ()
    else .error "insert or update violates foreign key constraint"
  merge old excluded :=
    { subscriptionsCount := old.subscriptionsCount + excluded.subscriptionsCount
      unsubscriptionsCount := old.unsubscriptionsCount + excluded.unsubscriptionsCount }
  fits counts := decide (InInt4 counts.subscriptionsCount ∧ InInt4 counts.unsubscriptionsCount)
  outOfRange := integerOutOfRange

/-- The row of an input; `0` is the identifier that stands for none. -/
def ContactInput.record [Zero ι] (today : ℤ) (input : ContactInput ι) :
    ContactKey ι × ContactCounts :=
  ({ weekStartDate := weekStart today
     contentId := input.contentId.getD 0
     country := input.country
     region := input.region
     city := input.city },
    { subscriptionsCount := input.subscriptions
      unsubscriptionsCount := input.unsubscriptions })

/-- `bulk_upsert_contact_analytics`. -/
def bulkUpsertContactAnalytics [DecidableEq ι] [Zero ι] (today : ℤ) (contents : List ι)
    (rows : List (ContactKey ι × ContactCounts)) (data : List (ContactInput ι)) :
    Except String (List (ContactKey ι × ContactCounts)) :=
  (contactRules contents).bulkUpsert rows (data.map (ContactInput.record today))

/-! ## The tables, and calls -/

/-- The tables. `CallAnalytics` is left out, which no call gets to. -/
structure AnalyticsDb (ι π : Type) where
  emails : List (EmailKey × EmailCounts)
  sms : List (SmsKey × SmsCounts π)
  links : List (Link ι)
  linkAnalytics : List (LinkKey ι × ℤ)
  contents : List ι
  contacts : List (ContactKey ι × ContactCounts)

/-- A call of one of the functions. -/
inductive AnalyticsCall (ι π χ : Type)
  | email (today : ℤ) (data : List EmailInput)
  | sms (today : ℤ) (input : SmsInput π)
  | call (data : List χ)
  | visits (data : List (Option ι × ℤ))
  | link (today : ℤ) (data : List (LinkInput ι))
  | contact (today : ℤ) (data : List (ContactInput ι))

variable [DecidableEq ι] [Zero ι] [Add π]

/-- A call: the tables after it, or the exception it raises. -/
def exec (db : AnalyticsDb ι π) : AnalyticsCall ι π χ → Except String (AnalyticsDb ι π)
  | .email today data => do
    let emails ← bulkUpsertEmailAnalytics today db.emails data
    return { db with emails }
  | .sms today input => do
    let sms ← bulkUpsertSmsAnalytics today db.sms input
    return { db with sms }
  | .call data => do
    bulkUpsertCallAnalytics data
    return db
  | .visits data => do
    let links ← bulkUpsertVisits db.links data
    return { db with links }
  | .link today data => do
    let linkAnalytics ← bulkUpsertLinkAnalytics today db.links db.linkAnalytics data
    return { db with linkAnalytics }
  | .contact today data => do
    let contacts ← bulkUpsertContactAnalytics today db.contents db.contacts data
    return { db with contacts }

/-- A call that raises changes nothing. -/
def analyticsStep (db : AnalyticsDb ι π) (call : AnalyticsCall ι π χ) : AnalyticsDb ι π :=
  match exec db call with
  | .ok db' => db'
  | .error _ => db

/-! ## What the functions are for -/

/-- Every key stands once in each table. -/
structure Tidy (db : AnalyticsDb ι π) : Prop where
  emails : OnePerKey db.emails
  sms : OnePerKey db.sms
  links : (ids db.links).Nodup
  linkAnalytics : OnePerKey db.linkAnalytics
  contacts : OnePerKey db.contacts

namespace AnalyticsCall

/-- What a call has for `EmailAnalytics`. -/
def emailRecords : AnalyticsCall ι π χ → List (EmailKey × EmailCounts)
  | email today data => data.map (EmailInput.record today)
  | sms _ _ | call _ | visits _ | link _ _ | contact _ _ => []

/-- What a call has for `SMSAnalytics`. -/
def smsRecords : AnalyticsCall ι π χ → List (SmsKey × SmsCounts π)
  | sms today input => [input.record today]
  | email _ _ | call _ | visits _ | link _ _ | contact _ _ => []

/-- What a call has for `Link`. -/
def visitRecords : AnalyticsCall ι π χ → List (ι × ℤ)
  | visits data => (identified data).getD []
  | email _ _ | sms _ _ | call _ | link _ _ | contact _ _ => []

/-- What a call has for `LinkAnalytics`. -/
def linkRecords : AnalyticsCall ι π χ → List (LinkKey ι × ℤ)
  | link today data => data.map (LinkInput.record today)
  | email _ _ | sms _ _ | call _ | visits _ | contact _ _ => []

/-- What a call has for `ContactAnalytics`. -/
def contactRecords : AnalyticsCall ι π χ → List (ContactKey ι × ContactCounts)
  | contact today data => data.map (ContactInput.record today)
  | email _ _ | sms _ _ | call _ | visits _ | link _ _ => []

end AnalyticsCall

/-- The counters after a run: what there was, and the inputs for each key. -/
structure Sums (db : AnalyticsDb ι π) (run : List (AnalyticsCall ι π χ)) (db' : AnalyticsDb ι π) :
    Prop where
  emails : ∀ key, valueAt db'.emails key =
    total (valueAt db.emails key) (valuesFor key (run.flatMap AnalyticsCall.emailRecords))
  sms : ∀ key, valueAt db'.sms key =
    total (valueAt db.sms key) (valuesFor key (run.flatMap AnalyticsCall.smsRecords))
  visits : ∀ linkId, visits db'.links linkId =
    visits db.links linkId + visitsIn linkId (run.flatMap AnalyticsCall.visitRecords)
  linkAnalytics : ∀ key, valueAt db'.linkAnalytics key =
    total (valueAt db.linkAnalytics key) (valuesFor key (run.flatMap AnalyticsCall.linkRecords))
  contacts : ∀ key, valueAt db'.contacts key =
    total (valueAt db.contacts key) (valuesFor key (run.flatMap AnalyticsCall.contactRecords))

/-- A batch in two calls of the same time. -/
inductive Divides : AnalyticsCall ι π χ → AnalyticsCall ι π χ → AnalyticsCall ι π χ → Prop
  | email (today : ℤ) (a b : List EmailInput) :
    Divides (.email today (a ++ b)) (.email today a) (.email today b)
  | call (a b : List χ) : Divides (.call (a ++ b)) (.call a) (.call b)
  | visits (a b : List (Option ι × ℤ)) : Divides (.visits (a ++ b)) (.visits a) (.visits b)
  | link (today : ℤ) (a b : List (LinkInput ι)) :
    Divides (.link today (a ++ b)) (.link today a) (.link today b)
  | contact (today : ℤ) (a b : List (ContactInput ι)) :
    Divides (.contact today (a ++ b)) (.contact today a) (.contact today b)

/-- A call adds its records, and leaves every key once. -/
def CallRight (db : AnalyticsDb ι π) (call : AnalyticsCall ι π χ) : Prop :=
  (∃ db', exec db call = .ok db') ∧ Tidy (analyticsStep db call)

/-- What a run of calls is to do: each of them succeeds, there is one row for each key at any time,
the counters are sums, and it does not matter how the records are divided into calls. -/
structure AnalyticsRight (db : AnalyticsDb ι π) (run : List (AnalyticsCall ι π χ)) : Prop where
  tidy : Tidy db
  calls : Always analyticsStep CallRight db run
  sums : Sums db run (runFrom analyticsStep db run)
  split : ∀ before call after first second, run = before ++ call :: after →
    Divides call first second →
      runFrom analyticsStep db (before ++ first :: second :: after) = runFrom analyticsStep db run
  merged : ∀ before call after first second, run = before ++ first :: second :: after →
    Divides call first second →
      runFrom analyticsStep db (before ++ call :: after) = runFrom analyticsStep db run

/-- What the tables ask of a call: of each record of a batch, that no column which must not be null
is null, that it has a place in the unique index if its key stands already, that what it refers to
exists, and that its sum fits; of a batch of visits, that there are fewer than nine public links
before each record; of a batch of calls, that it has no records. -/
def CallMeets (db : AnalyticsDb ι π) : AnalyticsCall ι π χ → Prop
  | .email today data => RecordsMeet emailRules db.emails (data.map (EmailInput.record today))
  | .sms today input => RecordsMeet smsRules db.sms [input.record today]
  | .call data => data = []
  | .visits data =>
    ∃ records, identified data = some records ∧ ¬ Blocked db.links records ∧
      CountsFit db.links records
  | .link today data =>
    RecordsMeet (linkAnalyticsRules db.links) db.linkAnalytics (data.map (LinkInput.record today))
  | .contact today data =>
    RecordsMeet (contactRules db.contents) db.contacts (data.map (ContactInput.record today))

/-! ## One call -/

theorem emailRules_merge (old value : EmailCounts) : emailRules.merge old value = old + value := rfl

theorem smsRules_merge {π : Type} [Add π] (old value : SmsCounts π) :
    smsRules.merge old value = old + value := rfl

theorem linkAnalyticsRules_merge {ι : Type} [DecidableEq ι] (links : List (Link ι))
    (old value : ℤ) : (linkAnalyticsRules links).merge old value = old + value := rfl

theorem contactRules_merge {ι : Type} [DecidableEq ι] (contents : List ι)
    (old value : ContactCounts) : (contactRules contents).merge old value = old + value := rfl

section Call

variable {db db' : AnalyticsDb ι π} {call : AnalyticsCall ι π χ}

omit [Zero ι] in
/-- A batch of visits is added where no identifier is null, and the records are added. -/
theorem bulkUpsertVisits_ok_iff {links links' : List (Link ι)} {data : List (Option ι × ℤ)} :
    bulkUpsertVisits links data = .ok links' ↔
      ∃ records, identified data = some records ∧
        bulkUpsertLinksVisitsCounts links records = .ok links' := by
  -- a null stops the batch where it stands, so the records before it have to be followed
  induction data generalizing links with
  | nil =>
    constructor
    · intro h
      exact ⟨[], rfl, h⟩
    · rintro ⟨records, hrecords, h⟩
      cases hrecords
      exact h
  | cons record data ih =>
    obtain ⟨_ | linkId, visits⟩ := record
    · refine iff_of_false ?_ ?_
      · intro h
        unfold bulkUpsertVisits at h
        rw [List.foldlM_cons] at h
        unfold upsertVisitsInput at h
        dsimp only at h
        split at h <;> cases h
      · rintro ⟨records, hrecords, -⟩
        cases hrecords
    · have hcons : bulkUpsertVisits links ((some linkId, visits) :: data) =
          upsertVisits links (linkId, visits) >>= fun links => bulkUpsertVisits links data :=
        List.foldlM_cons
      rw [hcons]
      cases hrow : upsertVisits links (linkId, visits) with
      | error e =>
        refine iff_of_false (fun h => by cases h) ?_
        rintro ⟨records, hrecords, h⟩
        obtain ⟨rest, -, rfl⟩ := Option.map_eq_some_iff.mp hrecords
        rw [bulk_cons, hrow] at h
        cases h
      | ok links'' =>
        constructor
        · intro h
          obtain ⟨rest, hrest, hbulk⟩ := ih.mp h
          refine ⟨(linkId, visits) :: rest, Option.map_eq_some_iff.mpr ⟨rest, hrest, rfl⟩, ?_⟩
          rw [bulk_cons, hrow]
          exact hbulk
        · rintro ⟨records, hrecords, h⟩
          obtain ⟨rest, hrest, rfl⟩ := Option.map_eq_some_iff.mp hrecords
          rw [bulk_cons, hrow] at h
          exact ih.mpr ⟨rest, hrest, h⟩

/-- A batch of visits that was added. -/
theorem exec_visits_ok {data : List (Option ι × ℤ)}
    (h : exec db (.visits data : AnalyticsCall ι π χ) = .ok db') :
    ∃ records links, identified data = some records ∧
      bulkUpsertLinksVisitsCounts db.links records = .ok links ∧ db' = { db with links } := by
  obtain ⟨links, hlinks, hdb⟩ := bind_ok h
  cases hdb
  obtain ⟨records, hrecords, hbulk⟩ := bulkUpsertVisits_ok_iff.mp hlinks
  exact ⟨records, links, hrecords, hbulk, rfl⟩

theorem analyticsStep_of_ok (h : exec db call = .ok db') : analyticsStep db call = db' := by
  unfold analyticsStep
  rw [h]

/-- A call that is a batch for one of the tables. -/
theorem callRight_iff_of_bulk {κ ν : Type} [DecidableEq κ] [Add ν] {rules : UpsertRules κ ν}
    (hmerge : ∀ old value, rules.merge old value = old + value) {rows records : List (κ × ν)}
    (hone : OnePerKey rows) (put : List (κ × ν) → AnalyticsDb ι π)
    (hexec : exec db call = rules.bulkUpsert rows records >>= fun rows => pure (put rows))
    (htidy : ∀ rows', Tidy (put rows') ↔ OnePerKey rows') :
    CallRight db call ↔ RecordsMeet rules rows records := by
  rw [← bulkUpsert_ok_iff hmerge hone]
  unfold CallRight
  cases hbulk : rules.bulkUpsert rows records with
  | error e =>
    have herror : exec db call = .error e := by
      rw [hexec, hbulk]
      rfl
    rw [herror]
    constructor
    · rintro ⟨⟨db', hok⟩, -⟩
      cases hok
    · rintro ⟨rows', hok, -⟩
      cases hok
  | ok rows' =>
    have hok : exec db call = .ok (put rows') := by
      rw [hexec, hbulk]
      rfl
    rw [analyticsStep_of_ok hok, htidy]
    constructor
    · rintro ⟨-, hone'⟩
      exact ⟨rows', rfl, hone'⟩
    · rintro ⟨rows'', hrows, hone'⟩
      cases hrows
      exact ⟨⟨_, hok⟩, hone'⟩

/-- A call is right exactly if the tables ask for no more of it. -/
theorem callRight_iff (htidy : Tidy db) (call : AnalyticsCall ι π χ) :
    CallRight db call ↔ CallMeets db call := by
  -- a call writes to one table, so the others stay as tidy as they were
  cases call with
  | email today data =>
    refine callRight_iff_of_bulk emailRules_merge htidy.emails
      (fun emails => { db with emails }) rfl fun rows' => ?_
    exact ⟨Tidy.emails, fun h => ⟨h, htidy.sms, htidy.links, htidy.linkAnalytics, htidy.contacts⟩⟩
  | sms today input =>
    refine callRight_iff_of_bulk smsRules_merge htidy.sms
      (fun sms => { db with sms }) rfl fun rows' => ?_
    exact ⟨Tidy.sms, fun h => ⟨htidy.emails, h, htidy.links, htidy.linkAnalytics, htidy.contacts⟩⟩
  | call data =>
    cases data with
    | nil => exact iff_of_true ⟨⟨db, rfl⟩, htidy⟩ rfl
    | cons input data =>
      refine iff_of_false ?_ (List.cons_ne_nil _ _)
      rintro ⟨⟨db', hok⟩, -⟩
      cases hok
  | visits data =>
    constructor
    · rintro ⟨⟨db', hok⟩, -⟩
      obtain ⟨records, links, hrecords, hbulk, -⟩ := exec_visits_ok hok
      exact ⟨records, hrecords, bulk_ok_iff.mp ⟨links, hbulk⟩⟩
    · rintro ⟨records, hrecords, hmeets⟩
      obtain ⟨links, hbulk⟩ := bulk_ok_iff.mpr hmeets
      have hok : exec db (.visits data : AnalyticsCall ι π χ) = .ok { db with links } := by
        show bulkUpsertVisits db.links data >>= _ = _
        rw [bulkUpsertVisits_ok_iff.mpr ⟨records, hrecords, hbulk⟩]
        rfl
      refine ⟨⟨_, hok⟩, ?_⟩
      rw [analyticsStep_of_ok hok]
      exact ⟨htidy.emails, htidy.sms, (bulkAdded_of_ok hbulk).nodup htidy.links,
        htidy.linkAnalytics, htidy.contacts⟩
  | link today data =>
    refine callRight_iff_of_bulk (linkAnalyticsRules_merge db.links) htidy.linkAnalytics
      (fun linkAnalytics => { db with linkAnalytics }) rfl fun rows' => ?_
    exact ⟨Tidy.linkAnalytics, fun h => ⟨htidy.emails, htidy.sms, htidy.links, h, htidy.contacts⟩⟩
  | contact today data =>
    refine callRight_iff_of_bulk (contactRules_merge db.contents) htidy.contacts
      (fun contacts => { db with contacts }) rfl fun rows' => ?_
    exact ⟨Tidy.contacts, fun h => ⟨htidy.emails, htidy.sms, htidy.links, htidy.linkAnalytics, h⟩⟩

/-- What a batch leaves of the counters. -/
theorem valueAt_of_exec {κ ν : Type} [DecidableEq κ] [Add ν] {rules : UpsertRules κ ν}
    (hmerge : ∀ old value, rules.merge old value = old + value) {rows records : List (κ × ν)}
    (put : List (κ × ν) → AnalyticsDb ι π)
    (hexec : exec db call = rules.bulkUpsert rows records >>= fun rows => pure (put rows))
    (hok : exec db call = .ok db') :
    ∃ rows', db' = put rows' ∧ (OnePerKey rows' →
      ∀ key, valueAt rows' key = total (valueAt rows key) (valuesFor key records)) := by
  rw [hexec] at hok
  cases hbulk : rules.bulkUpsert rows records with
  | error e =>
    rw [hbulk] at hok
    cases hok
  | ok rows' =>
    rw [hbulk] at hok
    cases hok
    exact ⟨rows', rfl, fun hone key => valueAt_bulkUpsert hmerge hbulk hone key⟩

/-- The counters after one call. -/
theorem sums_of_exec (hok : exec db call = .ok db') (htidy : Tidy db') : Sums db [call] db' := by
  cases call with
  | email today data =>
    obtain ⟨rows', rfl, hvalues⟩ := valueAt_of_exec emailRules_merge
      (fun emails => { db with emails }) rfl hok
    refine ⟨fun key => ?_, fun _ => rfl, fun _ => (Int.add_zero _).symm, fun _ => rfl, fun _ => rfl⟩
    rw [List.flatMap_singleton]
    exact hvalues htidy.emails key
  | sms today input =>
    obtain ⟨rows', rfl, hvalues⟩ := valueAt_of_exec smsRules_merge
      (fun sms => { db with sms }) rfl hok
    refine ⟨fun _ => rfl, fun key => ?_, fun _ => (Int.add_zero _).symm, fun _ => rfl, fun _ => rfl⟩
    rw [List.flatMap_singleton]
    exact hvalues htidy.sms key
  | call data =>
    cases data with
    | nil =>
      cases hok
      exact ⟨fun _ => rfl, fun _ => rfl, fun _ => (Int.add_zero _).symm, fun _ => rfl, fun _ => rfl⟩
    | cons input data => cases hok
  | visits data =>
    obtain ⟨records, links, hrecords, hbulk, rfl⟩ := exec_visits_ok hok
    refine ⟨fun _ => rfl, fun _ => rfl, fun linkId => ?_, fun _ => rfl, fun _ => rfl⟩
    rw [List.flatMap_singleton]
    show visits links linkId = visits db.links linkId + visitsIn linkId ((identified data).getD [])
    rw [hrecords]
    exact (bulkAdded_of_ok hbulk).visits linkId
  | link today data =>
    obtain ⟨rows', rfl, hvalues⟩ := valueAt_of_exec (linkAnalyticsRules_merge db.links)
      (fun linkAnalytics => { db with linkAnalytics }) rfl hok
    refine ⟨fun _ => rfl, fun _ => rfl, fun _ => (Int.add_zero _).symm, fun key => ?_, fun _ => rfl⟩
    rw [List.flatMap_singleton]
    exact hvalues htidy.linkAnalytics key
  | contact today data =>
    obtain ⟨rows', rfl, hvalues⟩ := valueAt_of_exec (contactRules_merge db.contents)
      (fun contacts => { db with contacts }) rfl hok
    refine ⟨fun _ => rfl, fun _ => rfl, fun _ => (Int.add_zero _).symm, fun _ => rfl, fun key => ?_⟩
    rw [List.flatMap_singleton]
    exact hvalues htidy.contacts key

end Call

/-! ## Runs -/

section Runs

variable {db db' db'' : AnalyticsDb ι π}

theorem Sums.refl (db : AnalyticsDb ι π) : Sums db ([] : List (AnalyticsCall ι π χ)) db :=
  ⟨fun _ => rfl, fun _ => rfl, fun _ => (Int.add_zero _).symm, fun _ => rfl, fun _ => rfl⟩

omit [Zero ι] in
theorem visitsIn_append (linkId : ι) (data data' : List (ι × ℤ)) :
    visitsIn linkId (data ++ data') = visitsIn linkId data + visitsIn linkId data' := by
  unfold visitsIn
  rw [List.map_append, List.sum_append]

/-- The counters after one run and another. -/
theorem Sums.trans {run run' : List (AnalyticsCall ι π χ)} (h : Sums db run db')
    (h' : Sums db' run' db'') : Sums db (run ++ run') db'' := by
  refine ⟨fun key => ?_, fun key => ?_, fun linkId => ?_, fun key => ?_, fun key => ?_⟩
  · rw [h'.emails, h.emails, List.flatMap_append, valuesFor_append, total_append]
  · rw [h'.sms, h.sms, List.flatMap_append, valuesFor_append, total_append]
  · rw [h'.visits, h.visits, List.flatMap_append, visitsIn_append, Int.add_assoc]
  · rw [h'.linkAnalytics, h.linkAnalytics, List.flatMap_append, valuesFor_append, total_append]
  · rw [h'.contacts, h.contacts, List.flatMap_append, valuesFor_append, total_append]

/-- The counters after a run whose calls are right. -/
theorem sums_of_calls {run : List (AnalyticsCall ι π χ)} (h : Always analyticsStep CallRight db run) :
    Sums db run (runFrom analyticsStep db run) := by
  -- the sums of the first call, and those of the rest from what it leaves
  induction run generalizing db with
  | nil => exact Sums.refl db
  | cons call run ih =>
    obtain ⟨⟨⟨db', hok⟩, htidy⟩, hrest⟩ := h
    have hstep := analyticsStep_of_ok hok
    rw [hstep] at htidy
    have hfirst := sums_of_exec hok htidy
    rw [← hstep] at hfirst
    exact hfirst.trans (ih hrest)

/-- A divided batch does what the whole one does. -/
theorem exec_divides {call first second : AnalyticsCall ι π χ} (h : Divides call first second) :
    exec db call = exec db first >>= fun db => exec db second := by
  cases h with
  | email today a b =>
    show emailRules.bulkUpsert db.emails ((a ++ b).map _) >>= _ = _
    rw [List.map_append, UpsertRules.bulkUpsert_append]
    show _ = (emailRules.bulkUpsert db.emails (a.map _) >>= _) >>= _
    cases emailRules.bulkUpsert db.emails (a.map (EmailInput.record today)) <;> rfl
  | call a b =>
    cases a with
    | nil => rfl
    | cons input a => rfl
  | visits a b =>
    show bulkUpsertVisits db.links (a ++ b) >>= _ = _
    have happend : bulkUpsertVisits db.links (a ++ b) =
        bulkUpsertVisits db.links a >>= fun links => bulkUpsertVisits links b := List.foldlM_append
    rw [happend]
    show _ = (bulkUpsertVisits db.links a >>= _) >>= _
    cases bulkUpsertVisits db.links a <;> rfl
  | link today a b =>
    show (linkAnalyticsRules db.links).bulkUpsert db.linkAnalytics ((a ++ b).map _) >>= _ = _
    rw [List.map_append, UpsertRules.bulkUpsert_append]
    show _ = ((linkAnalyticsRules db.links).bulkUpsert db.linkAnalytics (a.map _) >>= _) >>= _
    cases (linkAnalyticsRules db.links).bulkUpsert db.linkAnalytics
      (a.map (LinkInput.record today)) <;> rfl
  | contact today a b =>
    show (contactRules db.contents).bulkUpsert db.contacts ((a ++ b).map _) >>= _ = _
    rw [List.map_append, UpsertRules.bulkUpsert_append]
    show _ = ((contactRules db.contents).bulkUpsert db.contacts (a.map _) >>= _) >>= _
    cases (contactRules db.contents).bulkUpsert db.contacts
      (a.map (ContactInput.record today)) <;> rfl

/-- A divided call and the whole one: if one of them goes through, both do, to the same tables. -/
theorem step_divides {call first second : AnalyticsCall ι π χ} (h : Divides call first second)
    (hok : (∃ db', exec db call = .ok db') ∨
      ∃ db₁ db', exec db first = .ok db₁ ∧ exec db₁ second = .ok db') :
    analyticsStep (analyticsStep db first) second = analyticsStep db call := by
  have hexec : exec db call = exec db first >>= fun db => exec db second := exec_divides h
  have hboth : ∃ db₁ db', exec db first = .ok db₁ ∧ exec db₁ second = .ok db' := by
    rcases hok with ⟨db', hwhole⟩ | hparts
    · rw [hexec] at hwhole
      obtain ⟨db₁, hfirst, hsecond⟩ := bind_ok hwhole
      exact ⟨db₁, db', hfirst, hsecond⟩
    · exact hparts
  obtain ⟨db₁, db', hfirst, hsecond⟩ := hboth
  have hwhole : exec db call = .ok db' := by
    rw [hexec, hfirst]
    exact hsecond
  rw [analyticsStep_of_ok hfirst, analyticsStep_of_ok hsecond, analyticsStep_of_ok hwhole]

/-- The calls of a run are right exactly if the tables ask for no more of any of them. -/
theorem always_callRight_iff (htidy : Tidy db) (run : List (AnalyticsCall ι π χ)) :
    Always analyticsStep CallRight db run ↔ Always analyticsStep CallMeets db run :=
  always_congr_of_step (fun _ _ _ hright => hright.2)
    (fun _ call htidy => callRight_iff htidy call) htidy

/-- A run of calls does what it is to do exactly if the tables start with one row for each key, and
ask for no more of any call. -/
theorem analyticsRight_iff (db : AnalyticsDb ι π) (run : List (AnalyticsCall ι π χ)) :
    AnalyticsRight db run ↔ Tidy db ∧ Always analyticsStep CallMeets db run := by
  constructor
  · intro h
    exact ⟨h.tidy, (always_callRight_iff h.tidy run).mp h.calls⟩
  · rintro ⟨htidy, hmeets⟩
    have hcalls := (always_callRight_iff htidy run).mpr hmeets
    refine ⟨htidy, hcalls, sums_of_calls hcalls, ?_, ?_⟩
    · -- the whole call went through at this place of the run, and so its parts do
      rintro before call after first second rfl hdivides
      have hcall := (always_iff.mp hcalls before call after rfl).1
      rw [runFrom_append, runFrom_append, runFrom_cons, runFrom_cons, runFrom_cons,
        step_divides hdivides (Or.inl hcall)]
    · -- both parts went through, the second from what the first had left
      rintro before call after first second rfl hdivides
      obtain ⟨db₁, hfirst⟩ := (always_iff.mp hcalls before first (second :: after) rfl).1
      obtain ⟨db', hsecond⟩ := (always_iff.mp hcalls (before ++ [first]) second after
        (List.append_cons before first (second :: after))).1
      rw [runFrom_append, runFrom_cons, runFrom_nil, analyticsStep_of_ok hfirst] at hsecond
      rw [runFrom_append, runFrom_append, runFrom_cons, runFrom_cons, runFrom_cons,
        step_divides hdivides (Or.inr ⟨db₁, db', hfirst, hsecond⟩)]

/-- No rows, and one kind of content. -/
def emptyTables : AnalyticsDb ℕ ℕ := ⟨[], [], [], [], [0], []⟩

/-- A subscription from a country whose region and city are not known. -/
def unknownCity : ContactInput ℕ := ⟨none, some "CA", none, none, 1, 0⟩

/-- Two subscriptions from such a place leave two rows. -/
theorem unknownCity_twice :
    ¬ AnalyticsRight emptyTables [(.contact 0 [unknownCity, unknownCity] : AnalyticsCall ℕ ℕ ℕ)] := by
  intro h
  have hone := h.calls.1.2.contacts
  unfold OnePerKey at hone
  exact absurd hone (by decide)

end Runs

end Notifyr.Analytics
