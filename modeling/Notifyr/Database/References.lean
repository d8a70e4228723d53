import Mathlib.Data.Fintype.OfMap
import Notifyr.Theory.ForeignKeys
import Notifyr.Theory.Runs

/-!
# The tables that refer to contacts, emails and links

The foreign keys of `database/contacts.sql`, `database/emails.sql`, `database/twilio.sql` and
`database/links.sql`, the triggers that limit contacts and links, and the jobs that delete.

- `schema`: the foreign keys.
- `runJob`: the jobs; `exec`: what the service and the jobs send to the database.
- `database_runs`: what every run of statements keeps, and the two jobs that never delete anything.
- `delete_contact`: what the deletion of a contact comes to; an email that was sent refuses it.
- `delete_expired_links`: what the job for links comes to; `delete_expired_links_stuck`: where one
  link that has expired was visited, it deletes nothing again.

An instant is a number of microseconds. The key of a row is one value, also where the table's has
several columns.
-/

namespace Notifyr.References

open Theory

/-! ## The tables -/

inductive Table
  | contact | securityContact | subscriptionContact | contentTypeSubscription | subsContent
  | subscription | contactAnalytics
  | emailTracking | trackingEvent
  | smsTracking | callTracking | smsEvent | callEvent
  | link | linkEvent | linkSession | linkAnalytics
  deriving DecidableEq, Repr

/-- The foreign keys, each named by the column and the table that has it. -/
inductive ForeignKey
  | contactOfSecurity | contactOfChannels | contactOfTypes | contactOfSubscription
  | contentOfSubscription | contentOfAnalytics
  | contactOfEmail | emailOfEvent
  | contactOfSms | contactOfCall | smsOfEvent | callOfEvent
  | linkOfVisit | contactOfVisit | emailOfVisit | contactOfSession | linkOfSession | linkOfAnalytics
  deriving DecidableEq, Repr

instance : Fintype ForeignKey :=
  Fintype.ofList
    [.contactOfSecurity, .contactOfChannels, .contactOfTypes, .contactOfSubscription,
      .contentOfSubscription, .contentOfAnalytics, .contactOfEmail, .emailOfEvent, .contactOfSms,
      .contactOfCall, .smsOfEvent, .callOfEvent, .linkOfVisit, .contactOfVisit, .emailOfVisit,
      .contactOfSession, .linkOfSession, .linkOfAnalytics]
    (fun f => by cases f <;> decide)

/-- The table that has it, the one it refers to, `ON DELETE`, and whether it has to be given. -/
def ForeignKey.clause : ForeignKey → Table × Table × OnDelete × Bool
  | .contactOfSecurity => (.securityContact, .contact, .cascade, false)
  | .contactOfChannels => (.subscriptionContact, .contact, .cascade, false)
  | .contactOfTypes => (.contentTypeSubscription, .contact, .cascade, true)
  | .contactOfSubscription => (.subscription, .contact, .cascade, true)
  | .contentOfSubscription => (.subscription, .subsContent, .cascade, true)
  | .contentOfAnalytics => (.contactAnalytics, .subsContent, .noAction, false)
  | .contactOfEmail => (.emailTracking, .contact, .noAction, false)
  | .emailOfEvent => (.trackingEvent, .emailTracking, .cascade, true)
  | .contactOfSms => (.smsTracking, .contact, .setNull, false)
  | .contactOfCall => (.callTracking, .contact, .setNull, false)
  | .smsOfEvent => (.smsEvent, .smsTracking, .cascade, false)
  | .callOfEvent => (.callEvent, .callTracking, .cascade, false)
  | .linkOfVisit => (.linkEvent, .link, .cascade, false)
  | .contactOfVisit => (.linkEvent, .contact, .setNull, false)
  | .emailOfVisit => (.linkEvent, .emailTracking, .setNull, false)
  | .contactOfSession => (.linkSession, .contact, .setNull, false)
  | .linkOfSession => (.linkSession, .link, .cascade, true)
  | .linkOfAnalytics => (.linkAnalytics, .link, .noAction, true)

def schema : Schema Table ForeignKey where
  child f := f.clause.1
  parent f := f.clause.2.1
  onDelete f := f.clause.2.2.1
  notNull f := f.clause.2.2.2
  nullable := by decide
  flat := by decide

/-- The columns of `Link` that a trigger or a job reads. -/
structure LinkColumns where
  expiration : Option ℤ
  expirationVerification : Option ℤ
  isPublic : Option Bool

/-- The columns of each table that a trigger or a job reads: `ttl`, `expired_tracking_date`,
`expiring_date`. -/
def Columns : Table → Type
  | .subsContent | .emailTracking | .smsTracking | .callTracking | .linkEvent | .linkSession =>
    Option ℤ
  | .link => LinkColumns
  | _ => Unit

variable {κ : Type}

abbrev Row (κ : Type) := DbRow Table ForeignKey κ Columns

abbrev Database (κ : Type) := Db Table ForeignKey κ Columns

/-! ## Conditions -/

/-- What a condition comes to: true, false or, as `none`, unknown. -/
abbrev Truth := Option Bool

def sqlOr : Truth → Truth → Truth
  | some true, _ | _, some true => some true
  | some false, some false => some false
  | _, _ => none

def sqlAnd : Truth → Truth → Truth
  | some false, _ | _, some false => some false
  | some true, some true => some true
  | _, _ => none

/-- `<=`, `<`, `!=`. -/
def sqlLe (a b : Option ℤ) : Truth := do return decide ((← a) ≤ (← b))

def sqlLt (a b : Option ℤ) : Truth := do return decide ((← a) < (← b))

def sqlNe (a b : Option ℤ) : Truth := do return decide ((← a) ≠ (← b))

/-- `a NOT IN (...)`, of values that are not null. -/
def sqlNotIn [DecidableEq κ] (a : Option κ) (values : List κ) : Truth :=
  if values = [] then some true else a.map fun a => decide (a ∉ values)

/-- `WHERE` takes the rows for which a condition is true. -/
def isTrue (t : Truth) : Bool := t == some true

/-! ## The jobs -/

/-- `ttl != NULL and ttl < NOW()`. -/
def expiredContent (now : ℤ) : Row κ → Bool
  | ⟨.subsContent, _, _, ttl⟩ => isTrue (sqlAnd (sqlNe ttl none) (sqlLt ttl (some now)))
  | _ => false

/-- `expired_tracking_date <= NOW()`. -/
def expiredTracking (now : ℤ) : Row κ → Bool
  | ⟨.emailTracking, _, _, date⟩ | ⟨.smsTracking, _, _, date⟩ | ⟨.callTracking, _, _, date⟩ =>
    isTrue (sqlLe date (some now))
  | _ => false

/-- `expiring_date <= NOW()`. -/
def expiredVisit (now : ℤ) : Row κ → Bool
  | ⟨.linkEvent, _, _, date⟩ | ⟨.linkSession, _, _, date⟩ => isTrue (sqlLe date (some now))
  | _ => false

/-- `expiration <= NOW() OR expiration_verification <= NOW ()`. -/
def LinkColumns.expired (now : ℤ) (columns : LinkColumns) : Bool :=
  isTrue (sqlOr (sqlLe columns.expiration (some now))
    (sqlLe columns.expirationVerification (some now)))

def expiredLink (now : ℤ) : Row κ → Bool
  | ⟨.link, _, _, columns⟩ => columns.expired now
  | _ => false

/-- `SELECT e.email_id FROM EmailTracking e`. -/
def emailIds (db : Database κ) : List κ :=
  (db.filter fun r => r.table = .emailTracking).map fun r => r.id

variable [DecidableEq κ]

/-- `te.email_id NOT IN (...) OR te.email_id IS NULL`. -/
def nonMapped (db : Database κ) (r : Row κ) : Bool :=
  isTrue (sqlOr (sqlNotIn (r.refs .emailOfEvent) (emailIds db))
    (some (r.refs .emailOfEvent).isNone))

inductive Job
  | deleteExpiredSubscontent
  | deleteExpiredEmailTracking
  | deleteNonMappedEmailEvent
  | deleteExpiredTracking
  | deleteExpiredLinks
  | deleteLinkEventSession
  deriving DecidableEq, Repr

/-- A run of a job: one transaction. -/
def runJob (db : Database κ) (now : ℤ) : Job → Except KeyViolation (Database κ)
  | .deleteExpiredSubscontent => delete schema .subsContent (expiredContent now) db
  | .deleteExpiredEmailTracking => delete schema .emailTracking (expiredTracking now) db
  | .deleteNonMappedEmailEvent => delete schema .trackingEvent (nonMapped db) db
  | .deleteExpiredTracking => do
    let db ← delete schema .smsTracking (expiredTracking now) db
    delete schema .callTracking (expiredTracking now) db
  | .deleteExpiredLinks => delete schema .link (expiredLink now) db
  | .deleteLinkEventSession => do
    let db ← delete schema .linkEvent (expiredVisit now) db
    delete schema .linkSession (expiredVisit now) db

/-! ## Statements -/

def contactCount (db : Database κ) : ℕ := db.countP fun r => r.table = .contact

/-- `SELECT COUNT(*) ... FROM Link WHERE public = True`. -/
def publicCount (db : Database κ) : ℕ := db.countP fun
  | ⟨.link, _, _, columns⟩ => columns.isPublic = some true
  | _ => false

inductive StatementError
  | refused (e : KeyViolation)
  | raised (message : String)
  deriving DecidableEq, Repr

/-- `compute_limit` of `contacts.sql` and of `links.sql`, before a row is inserted. -/
def computeLimit (db : Database κ) : Table → Except StatementError Unit
  | .contact => if 2 ≤ contactCount db then .error (.raised "Contact Limit Reached") else .ok ()
  | .link => if 9 ≤ publicCount db then .error (.raised "Public Links Limit Reached") else .ok ()
  | _ => .ok ()

/-- What the service and the jobs send. An update is of columns that are no keys. -/
inductive Statement (κ : Type)
  | insert (r : Row κ)
  | update (t : Table) (cond : Row κ → Bool) (set : ∀ t, Columns t → Columns t)
  | deleteFrom (t : Table) (cond : Row κ → Bool)
  | job (j : Job) (now : ℤ)

def exec (db : Database κ) : Statement κ → Except StatementError (Database κ)
  | .insert r => do
    computeLimit db r.table
    (insertRow schema r db).mapError .refused
  | .update t cond set => .ok (update t cond set db)
  | .deleteFrom t cond => (delete schema t cond db).mapError .refused
  | .job j now => (runJob db now j).mapError .refused

/-- A statement that is refused changes nothing. -/
def step (db : Database κ) (s : Statement κ) : Database κ :=
  match exec db s with
  | .ok db' => db'
  | .error _ => db

variable {db db' : Database κ} {now : ℤ} {s : Statement κ}

theorem schema_apart : schema.Apart := ⟨by decide, by decide⟩

/-! ## What every statement keeps -/

/-- What deletions keep, but for those from the table of analytics, every job keeps. -/
theorem runJob_of_delete {P : Database κ → Prop}
    (hdelete : ∀ t cond db db', t ≠ .linkAnalytics → P db →
      delete schema t cond db = .ok db' → P db')
    {j : Job} (hdb : P db) (hok : runJob db now j = .ok db') : P db' := by
  have htwice : ∀ t t' cond cond', t ≠ .linkAnalytics → t' ≠ .linkAnalytics →
      (do let db ← delete schema t cond db; delete schema t' cond' db) = .ok db' → P db' := by
    intro t t' cond cond' ht ht' h
    cases hfirst : delete schema t cond db with
    | error e =>
      rw [hfirst] at h
      cases h
    | ok mid =>
      rw [hfirst] at h
      exact hdelete t' cond' mid db' ht' (hdelete t cond db mid ht hdb hfirst) h
  cases j with
  | deleteExpiredSubscontent => exact hdelete _ _ db db' (by decide) hdb hok
  | deleteExpiredEmailTracking => exact hdelete _ _ db db' (by decide) hdb hok
  | deleteNonMappedEmailEvent => exact hdelete _ _ db db' (by decide) hdb hok
  | deleteExpiredTracking => exact htwice _ _ _ _ (by decide) (by decide) hok
  | deleteExpiredLinks => exact hdelete _ _ db db' (by decide) hdb hok
  | deleteLinkEventSession => exact htwice _ _ _ _ (by decide) (by decide) hok

omit [DecidableEq κ] in
theorem mapError_ok {α : Type} {x : Except KeyViolation α} {a : α}
    (h : x.mapError StatementError.refused = .ok a) : x = .ok a := by
  cases x with
  | error e => cases h
  | ok b => exact congrArg Except.ok (Except.ok.inj h)

/-- **What a statement can do**, where it is not refused. -/
theorem exec_cases (h : exec db s = .ok db') :
    (∃ r, s = .insert r ∧ computeLimit db r.table = .ok () ∧ insertRow schema r db = .ok db') ∨
    (∃ t cond set, s = .update t cond set ∧ db' = update t cond set db) ∨
    (∃ t cond, s = .deleteFrom t cond ∧ delete schema t cond db = .ok db') ∨
    (∃ j now, s = .job j now ∧ runJob db now j = .ok db') := by
  cases s with
  | insert r =>
    have h' : (computeLimit db r.table).bind
        (fun _ => (insertRow schema r db).mapError .refused) = .ok db' := h
    cases hlimit : computeLimit db r.table with
    | error e =>
      rw [hlimit] at h'
      cases h'
    | ok u =>
      rw [hlimit] at h'
      exact Or.inl ⟨r, rfl, hlimit, mapError_ok h'⟩
  | update t cond set => exact Or.inr (Or.inl ⟨t, cond, set, rfl, (Except.ok.inj h).symm⟩)
  | deleteFrom t cond => exact Or.inr (Or.inr (Or.inl ⟨t, cond, rfl, mapError_ok h⟩))
  | job j now => exact Or.inr (Or.inr (Or.inr ⟨j, now, rfl, mapError_ok h⟩))

/-- A statement leads where it is not refused, and nowhere else. -/
theorem step_cases (db : Database κ) (s : Statement κ) :
    exec db s = .ok (step db s) ∨ step db s = db := by
  unfold step
  cases h : exec db s with
  | error e => exact Or.inr rfl
  | ok db' => exact Or.inl rfl

/-- Every statement keeps integrity. -/
theorem exec_integrity (hdb : Integrity schema db) (h : exec db s = .ok db') :
    Integrity schema db' := by
  obtain ⟨r, -, -, hinsert⟩ | ⟨t, cond, set, -, rfl⟩ | ⟨t, cond, -, hdelete⟩ | ⟨j, now, -, hjob⟩ :=
    exec_cases h
  · exact hdb.insertRow hinsert
  · exact hdb.update
  · exact hdb.delete hdelete
  · exact runJob_of_delete (fun _ _ _ _ _ hmid hok => hmid.delete hok) hdb hjob

/-- No statement adds a third contact. -/
theorem exec_contacts (hdb : contactCount db ≤ 2) (h : exec db s = .ok db') :
    contactCount db' ≤ 2 := by
  obtain ⟨r, -, hlimit, hinsert⟩ | ⟨t, cond, set, -, rfl⟩ | ⟨t, cond, -, hdelete⟩ |
    ⟨j, now, -, hjob⟩ := exec_cases h
  · obtain ⟨-, -, rfl⟩ := insertRow_eq_ok_iff.mp hinsert
    have hcount : contactCount (db ++ [r]) =
        contactCount db + if r.table = .contact then 1 else 0 := by
      simp [contactCount, List.countP_append, List.countP_singleton]
    rw [hcount]
    split_ifs with htable
    -- the trigger has counted the contacts before
    · rw [htable] at hlimit
      have hlt : ¬ 2 ≤ contactCount db := by
        intro hle
        rw [computeLimit, if_pos hle] at hlimit
        cases hlimit
      omega
    · exact hdb
  · exact (update_count Table.contact).trans_le hdb
  · exact (delete_count_le hdelete Table.contact).trans hdb
  · exact runJob_of_delete (P := fun db => contactCount db ≤ 2)
      (fun _ _ _ _ _ hmid hok => (delete_count_le hok Table.contact).trans hmid) hdb hjob

/-- The rule of induction over a run. -/
theorem run_of_exec {P : Database κ → Prop} {run : List (Statement κ)}
    (hexec : ∀ s ∈ run, ∀ db db', P db → exec db s = .ok db' → P db') (hdb : P db) :
    P (runFrom step db run) := by
  induction run generalizing db with
  | nil => exact hdb
  | cons s run ih =>
    refine ih (fun s hs => hexec s (List.mem_cons_of_mem _ hs)) ?_
    rcases step_cases db s with hok | hsame
    · exact hexec s List.mem_cons_self db _ hdb hok
    · rw [hsame]
      exact hdb

/-- The databases that a run of statements leads to. -/
theorem run_integrity (run : List (Statement κ)) : Integrity schema (runFrom step [] run) :=
  run_of_exec (fun _ _ _ _ => exec_integrity) Integrity.nil

/-! ## The jobs that never delete -/

omit [DecidableEq κ] in
/-- `ttl != NULL` is unknown of every row. -/
theorem expiredContent_eq (r : Row κ) : expiredContent now r = false := by
  obtain ⟨t, id, refs, columns⟩ := r
  cases t with
  | subsContent =>
    have hne : sqlNe columns none = none := by cases columns <;> rfl
    show isTrue (sqlAnd (sqlNe columns none) (sqlLt columns (some now))) = false
    rw [hne]
    rcases sqlLt columns (some now) with - | (_ | _) <;> rfl
  | _ => rfl

/-- No event is without its email: a foreign key sees to that. -/
theorem nonMapped_eq (hdb : Integrity schema db) {r : Row κ} (hr : r ∈ db)
    (htable : r.table = .trackingEvent) : nonMapped db r = false := by
  have href := hdb.refs r hr .emailOfEvent
  unfold nonMapped
  cases hk : r.refs .emailOfEvent with
  | none =>
    -- the column is `NOT NULL`
    rw [hk] at href
    exact absurd (href htable.symm) (by decide)
  | some k =>
    rw [hk] at href
    obtain ⟨-, p, hp, hemail, rfl⟩ := href
    have hmem : p.id ∈ emailIds db :=
      List.mem_map_of_mem (List.mem_filter.mpr ⟨hp, decide_eq_true hemail⟩)
    have hnotIn : sqlNotIn (some p.id) (emailIds db) = some false := by
      unfold sqlNotIn
      rw [if_neg (List.ne_nil_of_mem hmem)]
      simp [hmem]
    rw [hnotIn]
    rfl

/-- **Every run of statements** keeps what the tables refer to, leaves two contacts at most, and
leaves nothing to delete for two of the jobs. -/
theorem database_runs (run : List (Statement κ)) (now : ℤ) :
    Integrity schema (runFrom step [] run) ∧ contactCount (runFrom step [] run) ≤ 2 ∧
    runJob (runFrom step [] run) now .deleteExpiredSubscontent = .ok (runFrom step [] run) ∧
    runJob (runFrom step [] run) now .deleteNonMappedEmailEvent = .ok (runFrom step [] run) := by
  have hdb := run_integrity run
  refine ⟨hdb, ?_, ?_, ?_⟩
  · exact run_of_exec (fun _ _ _ _ => exec_contacts) (Nat.zero_le 2)
  · exact delete_none fun r _ _ => expiredContent_eq r
  · exact delete_none fun r hr htable => nonMapped_eq hdb hr htable

/-! ## The deletion of a contact -/

/-- An email to the contact is tracked. -/
def EmailTracked (c : κ) (db : Database κ) : Prop := ∃ r ∈ db, r.refs .contactOfEmail = some c

instance (c : κ) (db : Database κ) : Decidable (EmailTracked c db) :=
  inferInstanceAs (Decidable (∃ r ∈ db, r.refs .contactOfEmail = _))

/-- What goes with a contact. -/
def OfContact (c : κ) (r : Row κ) : Prop :=
  (r.table = .contact ∧ r.id = c) ∨ r.refs .contactOfSecurity = some c ∨
  r.refs .contactOfChannels = some c ∨ r.refs .contactOfTypes = some c ∨
  r.refs .contactOfSubscription = some c

instance (c : κ) (r : Row κ) : Decidable (OfContact c r) := inferInstanceAs (Decidable (_ ∨ _))

/-- What is left without its contact. -/
def forgetContact (c : κ) (r : Row κ) : Row κ :=
  { r with
    refs := fun f =>
      if f ∈ [.contactOfSms, .contactOfCall, .contactOfVisit, .contactOfSession] ∧
        r.refs f = some c then none else r.refs f }

theorem holds_contact : ∀ f, schema.onDelete f = .noAction → schema.parent f = .contact →
    f = .contactOfEmail := by decide

theorem cascades_contact : ∀ f, schema.onDelete f = .cascade ∧ schema.parent f = .contact ↔
    f ∈ [.contactOfSecurity, .contactOfChannels, .contactOfTypes, .contactOfSubscription] := by
  decide

theorem nulls_contact : ∀ f, schema.onDelete f = .setNull ∧ schema.parent f = .contact ↔
    f ∈ [.contactOfSms, .contactOfCall, .contactOfVisit, .contactOfSession] := by
  decide

section Contact

variable (hdb : Integrity schema db) (c : κ)
include hdb

theorem contact_refers {r : Row κ} (hr : r ∈ db) (f : ForeignKey) :
    Refers schema db (goneOf .contact fun r => decide (r.id = c)) r f ↔
      schema.parent f = .contact ∧ r.refs f = some c :=
  refers_key_iff hdb.refs hr

theorem contact_held :
    Held schema db (goneOf .contact fun r => decide (r.id = c)) ↔ EmailTracked c db := by
  rw [held_iff schema_apart hdb.refs]
  constructor
  · rintro ⟨r, hr, f, hf, h⟩
    obtain ⟨hparent, hc⟩ := (contact_refers hdb c hr f).mp h
    obtain rfl := holds_contact f hf hparent
    exact ⟨r, hr, hc⟩
  · rintro ⟨r, hr, hc⟩
    exact ⟨r, hr, .contactOfEmail, rfl, (contact_refers hdb c hr _).mpr ⟨rfl, hc⟩⟩

theorem contact_kept : kept schema db (goneOf .contact fun r => decide (r.id = c)) =
    db.filter fun r => ¬ OfContact c r := by
  refine List.filter_congr fun r hr => decide_eq_decide.mpr ?_
  have hcascades : Cascades schema db (goneOf .contact fun r => decide (r.id = c)) r ↔
      ∃ f ∈ [.contactOfSecurity, .contactOfChannels, .contactOfTypes, .contactOfSubscription],
        r.refs f = some c := by
    refine exists_congr fun f => ?_
    rw [contact_refers hdb c hr f, ← and_assoc, cascades_contact f]
  rw [hcascades, ← Bool.not_eq_true, goneOf_iff, ← not_or]
  simp [OfContact]

theorem contact_nulled {r : Row κ} (hr : r ∈ db) :
    nulled schema db (goneOf .contact fun r => decide (r.id = c)) r = forgetContact c r := by
  unfold nulled forgetContact
  congr 1
  funext f
  refine if_congr ?_ rfl rfl
  rw [contact_refers hdb c hr f, ← and_assoc, nulls_contact f]

end Contact

/-- A link that has expired was visited, so that a row of `LinkAnalytics` refers to it. -/
def ExpiredVisited (now : ℤ) (db : Database κ) : Prop :=
  ∃ l ∈ db, expiredLink now l = true ∧ ∃ a ∈ db, a.refs .linkOfAnalytics = some l.id

instance (now : ℤ) (db : Database κ) : Decidable (ExpiredVisited now db) :=
  inferInstanceAs (Decidable (∃ l ∈ db, expiredLink now l = true ∧
    ∃ a ∈ db, a.refs .linkOfAnalytics = _))

/-- What goes with the links that have expired. -/
def OfExpired (now : ℤ) (db : Database κ) (r : Row κ) : Prop :=
  expiredLink now r = true ∨ ∃ l ∈ db, expiredLink now l = true ∧
    (r.refs .linkOfVisit = some l.id ∨ r.refs .linkOfSession = some l.id)

instance (now : ℤ) (db : Database κ) (r : Row κ) : Decidable (OfExpired now db r) :=
  inferInstanceAs (Decidable (_ ∨ ∃ l ∈ db, expiredLink now l = true ∧ (_ = some l.id ∨ _)))

omit [DecidableEq κ] in
theorem expiredLink_table {r : Row κ} (h : expiredLink now r = true) : r.table = .link := by
  obtain ⟨t, id, refs, columns⟩ := r
  cases t <;> first | rfl | cases h

omit [DecidableEq κ] in
theorem goneOf_expiredLink {r : Row κ} :
    goneOf .link (expiredLink now) r = true ↔ expiredLink now r = true := by
  rw [goneOf_iff]
  exact ⟨And.right, fun h => ⟨expiredLink_table h, h⟩⟩

omit [DecidableEq κ] in
theorem link_refers {r : Row κ} {f : ForeignKey} :
    Refers schema db (goneOf .link (expiredLink now)) r f ↔ schema.parent f = .link ∧
      ∃ l ∈ db, expiredLink now l = true ∧ r.refs f = some l.id := by
  constructor
  · rintro ⟨l, hl, hgone, htable, hk⟩
    have hexpired := goneOf_expiredLink.mp hgone
    exact ⟨htable.symm.trans (expiredLink_table hexpired), l, hl, hexpired, hk⟩
  · rintro ⟨hparent, l, hl, hexpired, hk⟩
    exact ⟨l, hl, goneOf_expiredLink.mpr hexpired, (expiredLink_table hexpired).trans hparent.symm,
      hk⟩

theorem holds_link : ∀ f, schema.onDelete f = .noAction → schema.parent f = .link →
    f = .linkOfAnalytics := by decide

theorem cascades_link : ∀ f, schema.onDelete f = .cascade ∧ schema.parent f = .link ↔
    f ∈ [.linkOfVisit, .linkOfSession] := by decide

theorem nulls_link : ∀ f, schema.onDelete f = .setNull → schema.parent f ≠ .link := by decide

theorem link_held (hdb : Integrity schema db) :
    Held schema db (goneOf .link (expiredLink now)) ↔ ExpiredVisited now db := by
  rw [held_iff schema_apart hdb.refs]
  constructor
  · rintro ⟨a, ha, f, hf, h⟩
    obtain ⟨hparent, l, hl, hexpired, hk⟩ := link_refers.mp h
    obtain rfl := holds_link f hf hparent
    exact ⟨l, hl, hexpired, a, ha, hk⟩
  · rintro ⟨l, hl, hexpired, a, ha, hk⟩
    exact ⟨a, ha, .linkOfAnalytics, rfl, link_refers.mpr ⟨rfl, l, hl, hexpired, hk⟩⟩

theorem link_kept : kept schema db (goneOf .link (expiredLink now)) =
    db.filter fun r => ¬ OfExpired now db r := by
  refine List.filter_congr fun r _ => decide_eq_decide.mpr ?_
  have hcascades : Cascades schema db (goneOf .link (expiredLink now)) r ↔
      ∃ f ∈ [.linkOfVisit, .linkOfSession],
        ∃ l ∈ db, expiredLink now l = true ∧ r.refs f = some l.id := by
    refine exists_congr fun f => ?_
    rw [link_refers, ← and_assoc, cascades_link f]
  rw [hcascades, ← Bool.not_eq_true, goneOf_expiredLink, ← not_or]
  refine not_congr (or_congr Iff.rfl ?_)
  constructor
  · rintro ⟨f, hf, l, hl, hexpired, hk⟩
    rcases List.mem_pair.mp hf with rfl | rfl
    · exact ⟨l, hl, hexpired, Or.inl hk⟩
    · exact ⟨l, hl, hexpired, Or.inr hk⟩
  · rintro ⟨l, hl, hexpired, hk | hk⟩
    · exact ⟨.linkOfVisit, by decide, l, hl, hexpired, hk⟩
    · exact ⟨.linkOfSession, by decide, l, hl, hexpired, hk⟩

theorem link_nulled (r : Row κ) : nulled schema db (goneOf .link (expiredLink now)) r = r := by
  have hrefs : ∀ f, ¬ (schema.onDelete f = .setNull ∧
      Refers schema db (goneOf .link (expiredLink now)) r f) :=
    fun f ⟨hset, h⟩ => nulls_link f hset (link_refers.mp h).1
  unfold nulled
  simp [hrefs]

theorem deleteExpiredLinks_eq (hdb : Integrity schema db) :
    exec db (.job .deleteExpiredLinks now) =
      if ExpiredVisited now db then .error (.refused .stillReferenced)
      else .ok (db.filter fun r => ¬ OfExpired now db r) := by
  show (delete schema .link (expiredLink now) db).mapError StatementError.refused = _
  split_ifs with hvisited
  · rw [delete_of_held ((link_held hdb).mpr hvisited)]
    rfl
  · have hheld := mt (link_held hdb).mp hvisited
    rw [delete_eq_ok_iff.mpr ⟨hheld, rfl⟩, link_kept, List.map_congr_left fun r _ => link_nulled r,
      List.map_id']
    rfl

/-- **The job that deletes links**, in every run: all that have expired, with what was recorded of
their visits, or none, if one of them is in the table of analytics. -/
theorem delete_expired_links (run : List (Statement κ)) (now : ℤ) :
    exec (runFrom step [] run) (.job .deleteExpiredLinks now) =
      if ExpiredVisited now (runFrom step [] run) then .error (.refused .stillReferenced)
      else .ok ((runFrom step [] run).filter fun r => ¬ OfExpired now (runFrom step [] run) r) :=
  deleteExpiredLinks_eq (run_integrity run)

/-! ## The job for links, in a run -/

/-- A statement deletes no analytics, and gives no link that has expired by `now` a later date. -/
def Quiet (now : ℤ) : Statement κ → Prop
  | .deleteFrom t _ => t ≠ .linkAnalytics
  | .update t _ set => t = .link → ∀ columns : LinkColumns, columns.expired now = true →
    LinkColumns.expired now (set .link columns) = true
  | _ => True

theorem no_cascade : ∀ f, schema.onDelete f = .cascade →
    schema.child f ≠ .link ∧ schema.child f ≠ .linkAnalytics := by decide

omit [DecidableEq κ] in
theorem not_cascades {gone : Row κ → Bool} (hdb : Integrity schema db) {r : Row κ} (hr : r ∈ db)
    (htable : r.table = .link ∨ r.table = .linkAnalytics) : ¬ Cascades schema db gone r := by
  rintro ⟨f, hf, d, -, -, -, hk⟩
  have hchild := (hdb.refs r hr).child_eq hk
  rcases htable with htable | htable
  · exact (no_cascade f hf).1 (hchild.trans htable)
  · exact (no_cascade f hf).2 (hchild.trans htable)

omit [DecidableEq κ] in
theorem expiredLink_refs {r : Row κ} (refs : ForeignKey → Option κ) :
    expiredLink now { r with refs := refs } = expiredLink now r := by
  obtain ⟨t, id, _, columns⟩ := r
  cases t <;> rfl

/-- Other deletions leave a link that has expired, and its analytics. -/
theorem delete_visited {t : Table} {cond : Row κ → Bool} (ht : t ≠ .linkAnalytics)
    (hdb : Integrity schema db) (hvisited : ExpiredVisited now db)
    (hok : delete schema t cond db = .ok db') : ExpiredVisited now db' := by
  obtain ⟨l, hl, hexpired, a, ha, hk⟩ := hvisited
  obtain ⟨hheld, rfl⟩ := delete_eq_ok_iff.mp hok
  -- no cascade reaches the table of analytics
  have hatable : a.table = .linkAnalytics := ((hdb.refs a ha).child_eq hk).symm
  have hakept : a ∈ kept schema db (goneOf t cond) := by
    refine mem_kept_iff.mpr ⟨ha, ?_, not_cascades hdb ha (Or.inr hatable)⟩
    rw [← Bool.not_eq_true, goneOf_iff]
    exact fun h => ht (h.1.symm.trans hatable)
  -- the analytics stay, so that the link has to
  have hltable := expiredLink_table hexpired
  have hlkept : l ∈ kept schema db (goneOf t cond) := by
    refine mem_kept_iff.mpr ⟨hl, ?_, not_cascades hdb hl (Or.inl hltable)⟩
    by_contra hgone
    rw [Bool.not_eq_false] at hgone
    exact hheld ⟨a, hakept, .linkOfAnalytics, rfl, l, hl, hgone, hltable, hk⟩
  refine ⟨_, List.mem_map_of_mem hlkept, (expiredLink_refs _).trans hexpired, _,
    List.mem_map_of_mem hakept, ?_⟩
  exact (nulled_refs (by decide)).trans hk

/-- **A quiet statement leaves them too.** -/
theorem exec_visited (hquiet : Quiet now s) (hdb : Integrity schema db)
    (hvisited : ExpiredVisited now db) (h : exec db s = .ok db') : ExpiredVisited now db' := by
  obtain ⟨r, -, -, hinsert⟩ | ⟨t, cond, set, rfl, rfl⟩ | ⟨t, cond, rfl, hdelete⟩ |
    ⟨j, _, -, hjob⟩ := exec_cases h
  · obtain ⟨l, hl, hexpired, a, ha, hk⟩ := hvisited
    obtain ⟨-, -, rfl⟩ := insertRow_eq_ok_iff.mp hinsert
    exact ⟨l, List.mem_append_left _ hl, hexpired, a, List.mem_append_left _ ha, hk⟩
  · obtain ⟨l, hl, hexpired, a, ha, hk⟩ := hvisited
    refine ⟨_, List.mem_map_of_mem hl, ?_, _, List.mem_map_of_mem ha, ?_⟩
    -- an update leaves the keys, and a quiet one the date
    · split_ifs with hl'
      · obtain ⟨lt, id, refs, columns⟩ := l
        obtain rfl : lt = .link := expiredLink_table hexpired
        exact hquiet hl'.1.symm columns hexpired
      · exact hexpired
    · split_ifs <;> exact hk
  · exact delete_visited hquiet hdb hvisited hdelete
  · exact (runJob_of_delete (P := fun db => Integrity schema db ∧ ExpiredVisited now db)
      (fun _ _ _ _ ht hmid hok => ⟨hmid.1.delete hok, delete_visited ht hmid.1 hmid.2 hok⟩)
      ⟨hdb, hvisited⟩ hjob).2

theorem sqlLe_mono {a : Option ℤ} {now₀ : ℤ} (hnow : now₀ ≤ now)
    (h : sqlLe a (some now₀) = some true) : sqlLe a (some now) = some true := by
  cases a with
  | none => cases h
  | some a =>
    have hle : a ≤ now₀ := of_decide_eq_true (Option.some.inj h)
    exact congrArg some (decide_eq_true (hle.trans hnow))

theorem isTrue_sqlOr {a b : Truth} :
    isTrue (sqlOr a b) = true ↔ a = some true ∨ b = some true := by
  rcases a with - | (_ | _) <;> rcases b with - | (_ | _) <;> decide

/-- What has expired stays so. -/
theorem LinkColumns.expired_mono {columns : LinkColumns} {now₀ : ℤ} (hnow : now₀ ≤ now)
    (h : columns.expired now₀ = true) : columns.expired now = true := by
  rcases isTrue_sqlOr.mp h with h | h
  · exact isTrue_sqlOr.mpr (Or.inl (sqlLe_mono hnow h))
  · exact isTrue_sqlOr.mpr (Or.inr (sqlLe_mono hnow h))

omit [DecidableEq κ] in
theorem expiredLink_mono {r : Row κ} {now₀ : ℤ} (hnow : now₀ ≤ now)
    (h : expiredLink now₀ r = true) : expiredLink now r = true := by
  obtain ⟨t, id, refs, columns⟩ := r
  obtain rfl : t = .link := expiredLink_table h
  exact LinkColumns.expired_mono hnow h

/-- **One visit stops the job for good.** Once a link that was visited has expired, no later run of
the job deletes a link, whatever is done in between, as long as analytics stay and nothing gives
such a link a later date. -/
theorem delete_expired_links_stuck {before after : List (Statement κ)} {now₀ : ℤ}
    (hvisited : ExpiredVisited now₀ (runFrom step [] before)) (hquiet : ∀ s ∈ after, Quiet now₀ s)
    (hnow : now₀ ≤ now) :
    exec (runFrom step [] (before ++ after)) (.job .deleteExpiredLinks now) =
      .error (.refused .stillReferenced) := by
  have hend : Integrity schema (runFrom step (runFrom step [] before) after) ∧
      ExpiredVisited now₀ (runFrom step (runFrom step [] before) after) :=
    run_of_exec (P := fun db => Integrity schema db ∧ ExpiredVisited now₀ db)
      (fun s hs _ _ hmid hok =>
        ⟨exec_integrity hmid.1 hok, exec_visited (hquiet s hs) hmid.1 hmid.2 hok⟩)
      ⟨run_integrity before, hvisited⟩
  rw [← runFrom_append] at hend
  obtain ⟨hintegrity, l, hl, hexpired, ha⟩ := hend
  rw [deleteExpiredLinks_eq hintegrity, if_pos ⟨l, hl, expiredLink_mono hnow hexpired, ha⟩]

def visitedLink : Row ℕ := ⟨.link, 1, fun _ => none, (⟨some 0, none, some true⟩ : LinkColumns)⟩

def visitedAnalytics : Row ℕ :=
  ⟨.linkAnalytics, 2, fun f => if f = .linkOfAnalytics then some 1 else none, ()⟩

/-- The link is deleted by hand, the job runs, and both are refused. -/
theorem delete_expired_links_stuck_visited :
    exec (runFrom step [] ([.insert visitedLink, .insert visitedAnalytics] ++
      [.deleteFrom .link fun _ => true, .job .deleteExpiredLinks 5])) (.job .deleteExpiredLinks 9) =
      .error (.refused .stillReferenced) := by
  have hvisited : ExpiredVisited 5
      (runFrom step [] [.insert visitedLink, .insert visitedAnalytics]) := by decide
  refine delete_expired_links_stuck hvisited (List.forall_mem_cons.mpr ⟨?_, ?_⟩) (by decide)
  · exact (by decide : Table.link ≠ .linkAnalytics)
  · exact List.forall_mem_singleton.mpr trivial

end Notifyr.References
