import Mathlib.Data.List.Basic
import Mathlib.Data.List.ProdSigma
import Notifyr.Services.ContactsService

/-!
# The subscriptions of a contact

`delete_subscriptions_by_contact` (`database/contacts.sql`) on the tables `Subscription` and
`SubsContent`, and the function of `app/models/contacts_model.py` that calls it.

- `SubscriptionTables`: the two tables with their keys.
- `naturalJoin`: the columns that both tables have are `content_id`, `created_at`, `updated_at`.
- `deleteSubscriptions`: the statement, under each setting of `plpgsql.variable_conflict`.
- `deleteRight_iff`: when it deletes the rows that it should and answers with their number.
- `deleteSubscriptionsByContact_run`: the statement among the operations of the service.
-/

namespace Notifyr

namespace Contacts

/-- The domain `ContentType`. -/
inductive ContentType
  | newsletter | event | notification | promotion | update | other
  deriving DecidableEq, Repr

/-- A row of `SubsContent`; what is nullable is optional. -/
structure SubsContentRow where
  contentId : String
  contentName : Option String
  contentType : Option ContentType
  createdAt : Option Int
  updatedAt : Option Int
  deriving DecidableEq

/-- A row of `Subscription`. -/
structure SubscriptionRow where
  contactId : String
  contentId : String
  subsStatus : Option String
  preferredMethod : String
  createdAt : Option Int
  updatedAt : Option Int
  deriving DecidableEq

/-- The two tables. -/
structure SubscriptionTables where
  contents : List SubsContentRow
  subscriptions : List SubscriptionRow
  contents_key : (contents.map (·.contentId)).Nodup
  subscriptions_key : (subscriptions.map fun s => (s.contactId, s.contentId)).Nodup
  content_exists : ∀ s ∈ subscriptions, ∃ c ∈ contents, c.contentId = s.contentId

/-- `=` on nullable columns, where it is true. -/
def sqlEq (a b : Option Int) : Bool := a.isSome && a == b

/-- `C.content_type='notification' OR C.content_type='update'`. -/
def SubsContentRow.standing (c : SubsContentRow) : Bool :=
  c.contentType == some .notification || c.contentType == some .update

namespace SubscriptionTables

/-- `Subscription AS T NATURAL JOIN SubsContent C`. -/
def naturalJoin (db : SubscriptionTables) : List (SubscriptionRow × SubsContentRow) :=
  (db.subscriptions ×ˢ db.contents).filter fun p =>
    p.1.contentId == p.2.contentId && sqlEq p.1.createdAt p.2.createdAt &&
      sqlEq p.1.updatedAt p.2.updatedAt

/-- `SELECT T.content_id FROM … WHERE …`. -/
def keptContents (db : SubscriptionTables) : List String :=
  (db.naturalJoin.filter (·.2.standing)).map (·.1.contentId)

/-- `DELETE FROM Subscription`. -/
def delete (db : SubscriptionTables) (p : SubscriptionRow → Bool) : SubscriptionTables where
  contents := db.contents
  subscriptions := db.subscriptions.filter fun s => !p s
  contents_key := db.contents_key
  subscriptions_key := (List.filter_sublist.map _).nodup db.subscriptions_key
  content_exists := fun s hs => db.content_exists s (List.mem_of_mem_filter hs)

/-- The condition of the statement, where `name` is what `contact_id` stands for. -/
def selects (db : SubscriptionTables) (name : SubscriptionRow → String) (s : SubscriptionRow) :
    Bool :=
  s.contactId == name s && !db.keptContents.contains s.contentId

end SubscriptionTables

/-- What `contact_id` stands for beside `S.contact_id`: it names the parameter and the column. -/
def contactIdName (setting : VariableConflict) (contactId : String) :
    Except ContactErr (SubscriptionRow → String) :=
  match setting with
  | .error => .error .ambiguousColumn
  | .useVariable => .ok fun _ => contactId
  | .useColumn => .ok fun s => s.contactId

/-- `delete_subscriptions_by_contact` of the database, which returns nothing. -/
def deleteSubscriptions (setting : VariableConflict) (contactId : String)
    (db : SubscriptionTables) : Except ContactErr SubscriptionTables := do
  let name ← contactIdName setting contactId
  return db.delete (db.selects name)

/-- `delete_subscriptions_by_contact` of the models: the number of rows of `SELECT f(…)`. -/
def deleteSubscriptionsCall (setting : VariableConflict) (contactId : String)
    (db : SubscriptionTables) : Except ContactErr (Nat × SubscriptionTables) := do
  let db ← deleteSubscriptions setting contactId db
  let rows := [()]
  return (rows.length, db)

/-! ## What is to be deleted -/

/-- The subscription is one of the contact, and its content is no notification and no update. -/
def SubscriptionTables.Due (db : SubscriptionTables) (contactId : String) (s : SubscriptionRow) :
    Prop :=
  s.contactId = contactId ∧ ∀ c ∈ db.contents, c.contentId = s.contentId →
    c.contentType ≠ some .notification ∧ c.contentType ≠ some .update

instance (db : SubscriptionTables) (contactId : String) (s : SubscriptionRow) :
    Decidable (db.Due contactId s) := by
  unfold SubscriptionTables.Due
  infer_instance

/-- The call deletes what is due and answers with its number. -/
def DeleteRight (setting : VariableConflict) (contactId : String) (db : SubscriptionTables) :
    Prop :=
  ∃ n db', deleteSubscriptionsCall setting contactId db = .ok (n, db') ∧
    (∀ s, s ∈ db'.subscriptions ↔ s ∈ db.subscriptions ∧ ¬ db.Due contactId s) ∧
    db'.contents = db.contents ∧
    n = db.subscriptions.countP fun s => decide (db.Due contactId s)

/-- A standing content has a subscription, of whatever contact, that was created and updated at
the very times of the content. -/
def SubscriptionTables.Stamped (db : SubscriptionTables) (s : SubscriptionRow) : Prop :=
  ∃ c ∈ db.contents, c.contentId = s.contentId ∧ c.standing = true ∧
    ∃ t ∈ db.subscriptions, t.contentId = s.contentId ∧
      t.createdAt.isSome ∧ t.createdAt = c.createdAt ∧
      t.updatedAt.isSome ∧ t.updatedAt = c.updatedAt

/-- When the call is right. -/
structure DeleteGuard (setting : VariableConflict) (contactId : String)
    (db : SubscriptionTables) : Prop where
  readable : setting ≠ .error
  stamped : ∀ s ∈ db.subscriptions, setting = .useColumn ∨ s.contactId = contactId →
    db.Due contactId s ∨ db.Stamped s
  one : (db.subscriptions.countP fun s => decide (db.Due contactId s)) = 1

/-! ## The statement -/

namespace SubscriptionTables

variable {db : SubscriptionTables} {s : SubscriptionRow}

theorem mem_keptContents : s.contentId ∈ db.keptContents ↔ db.Stamped s := by
  unfold keptContents naturalJoin Stamped sqlEq
  simp only [List.mem_map, List.mem_filter, List.mem_product, Prod.exists, Bool.and_eq_true,
    beq_iff_eq]
  constructor
  · rintro ⟨t, c, ⟨⟨⟨ht, hc⟩, ⟨hcontent, hcreated⟩, hupdated⟩, hstanding⟩, hid⟩
    exact ⟨c, hc, hcontent ▸ hid, hstanding, t, ht, hid, hcreated.1, hcreated.2, hupdated.1,
      hupdated.2⟩
  · rintro ⟨c, hc, hcontent, hstanding, t, ht, hid, hcreated, hcreated', hupdated, hupdated'⟩
    exact ⟨t, c, ⟨⟨⟨ht, hc⟩, ⟨hid.trans hcontent.symm, hcreated, hcreated'⟩, hupdated, hupdated'⟩,
      hstanding⟩, hid⟩

theorem selects_iff (name : SubscriptionRow → String) :
    db.selects name s = true ↔ s.contactId = name s ∧ ¬ db.Stamped s := by
  rw [← mem_keptContents]
  simp [selects]

/-- The content of a row that is due has no such subscription. -/
theorem Due.not_stamped {contactId : String} (h : db.Due contactId s) : ¬ db.Stamped s := by
  rintro ⟨c, hc, hcontent, hstanding, -⟩
  obtain ⟨hnotification, hupdate⟩ := h.2 c hc hcontent
  simp [SubsContentRow.standing, hnotification, hupdate] at hstanding

/-- The rows that are left are the ones not due, if no other is selected. -/
theorem delete_right_iff {contactId : String} {name : SubscriptionRow → String}
    (hname : ∀ s, s.contactId = contactId → s.contactId = name s) :
    (∀ s, s ∈ (db.delete (db.selects name)).subscriptions ↔
      s ∈ db.subscriptions ∧ ¬ db.Due contactId s) ↔
      ∀ s ∈ db.subscriptions, s.contactId = name s → db.Due contactId s ∨ db.Stamped s := by
  have hmem (s : SubscriptionRow) : s ∈ (db.delete (db.selects name)).subscriptions ↔
      s ∈ db.subscriptions ∧ ¬ (s.contactId = name s ∧ ¬ db.Stamped s) := by
    rw [← selects_iff]
    simp [delete]
  constructor
  · intro hright s hs hcontact
    by_contra hnot
    obtain ⟨hdue, hstamped⟩ := not_or.1 hnot
    exact ((hmem s).1 ((hright s).2 ⟨hs, hdue⟩)).2 ⟨hcontact, hstamped⟩
  · intro hall s
    rw [hmem]
    refine and_congr_right fun hs => not_congr ⟨fun ⟨hcontact, hstamped⟩ => ?_, fun hdue => ?_⟩
    · exact (hall s hs hcontact).resolve_right hstamped
    · exact ⟨hname s hdue.1, hdue.not_stamped⟩

end SubscriptionTables

/-- **The call is right** exactly if the setting lets the name be read, each row under it that is
not due is kept by a row of its content with the content's own times, and one row is due. -/
theorem deleteRight_iff (setting : VariableConflict) (contactId : String)
    (db : SubscriptionTables) :
    DeleteRight setting contactId db ↔ DeleteGuard setting contactId db := by
  have hcall {name : SubscriptionRow → String} (hname : contactIdName setting contactId = .ok name)
      (hself : ∀ s, s.contactId = contactId → s.contactId = name s) :
      DeleteRight setting contactId db ↔
        (∀ s ∈ db.subscriptions, s.contactId = name s → db.Due contactId s ∨ db.Stamped s) ∧
          (db.subscriptions.countP fun s => decide (db.Due contactId s)) = 1 := by
    have hrun : deleteSubscriptionsCall setting contactId db =
        .ok (1, db.delete (db.selects name)) := by
      simp [deleteSubscriptionsCall, deleteSubscriptions, hname, bind, Except.bind, pure,
        Except.pure]
    unfold DeleteRight
    rw [hrun, ← SubscriptionTables.delete_right_iff hself]
    constructor
    · rintro ⟨n, db', heq, hrows, -, hn⟩
      cases heq
      exact ⟨hrows, hn.symm⟩
    · rintro ⟨hrows, hn⟩
      exact ⟨1, _, rfl, hrows, rfl, hn.symm⟩
  cases setting with
  | error =>
    refine iff_of_false ?_ fun hguard => hguard.readable rfl
    rintro ⟨n, db', heq, -⟩
    cases heq
  | useVariable =>
    rw [hcall rfl fun _ h => h]
    exact ⟨fun ⟨hall, hone⟩ => ⟨by simp, fun s hs h => hall s hs (by simpa using h), hone⟩,
      fun hguard => ⟨fun s hs h => hguard.stamped s hs (.inr h), hguard.one⟩⟩
  | useColumn =>
    rw [hcall rfl fun _ _ => rfl]
    exact ⟨fun ⟨hall, hone⟩ => ⟨by simp, fun s hs _ => hall s hs rfl, hone⟩,
      fun hguard => ⟨fun s hs _ => hguard.stamped s hs (.inl rfl), hguard.one⟩⟩

/-- A contact that has subscribed to the notifications of a content, after it was made. -/
def notified : SubscriptionTables where
  contents := [⟨"n", some "alerts", some .notification, some 0, some 0⟩]
  subscriptions := [⟨"c", "n", some "Active", "email", some 1, some 1⟩]
  contents_key := by decide
  subscriptions_key := by decide
  content_exists := by decide

/-- By default the call raises; where the name is the parameter's, the notifications are deleted. -/
theorem not_deleteRight_notified :
    ¬ DeleteRight .error "c" notified ∧ ¬ DeleteRight .useVariable "c" notified := by
  constructor
  · rintro ⟨n, db', hcall, -⟩
    cases hcall
  · rintro ⟨n, db', hcall, hrows, -⟩
    obtain ⟨-, rfl⟩ := Prod.mk.inj (Except.ok.inj hcall)
    have hkept := (hrows ⟨"c", "n", some "Active", "email", some 1, some 1⟩).2
      ⟨by decide, by decide⟩
    exact absurd hkept (by decide)

/-- Among the operations of the service, the rows of the contact that the statement selects are
deleted. -/
theorem deleteSubscriptionsByContact_run {contactId : String} {db : SubscriptionTables}
    {env : ContactEnv SubscriptionRow} {name : SubscriptionRow → String}
    (hname : contactIdName env.variableConflict contactId = .ok name)
    (hkept : ∀ s, env.kept s = !db.selects name s) {fails : Faults}
    (hfails : fails .deleteSubscriptions = false) {rows : Db SubscriptionRow}
    (hrows : rows.subscriptions = db.subscriptions.filter (·.contactId = contactId)) :
    deleteSubscriptionsByContact env fails rows =
      (.ok (), { rows with subscriptions :=
        (db.delete (db.selects name)).subscriptions.filter (·.contactId = contactId) }) := by
  have hconflict : env.variableConflict ≠ .error := by
    rintro h
    rw [h] at hname
    cases hname
  have hkept' : env.kept = fun s => !db.selects name s := funext hkept
  unfold deleteSubscriptionsByContact
  rw [if_neg hconflict, write_run, if_neg (by simp [hfails]), if_pos rfl, hrows, hkept',
    List.filter_comm]
  rfl

end Contacts

end Notifyr
