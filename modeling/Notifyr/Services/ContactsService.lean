import Notifyr.Theory.Runs
import Notifyr.Theory.Transaction

/-!
# The life of a contact

`activate_contact`, `unsubscribe_contact` and `toggle_content_type_subs_flag` of
`app/services/contacts_service.py`, `resubscribe_contact` and `activate_contact` of
`app/ressources/contacts_ressources.py`, and the tables of `contacts.sql` they write to. No
transaction surrounds the statements of an operation, and each of them may fail.

- `Db`: the rows of one contact; `Faults`: the statements that fail in an operation.
- `Op.run`: the operations.
- `World`: the rows, whether the contact was activated since it was last set to `Pending`, and
  how often its opt-in code was used.
- `RunRight`: what a run is to keep; `Clean`: the operations that keep it.
- `runRight_iff`: a run is right when all of its operations are clean.

An activation that fails after its first write leaves rows behind. `unsubscribe_contact` returns
`row_affected`, which is set for `Pending` only, after it has saved the contact; for `Pending` it
deletes two rows before it calls `delete_subscriptions_by_contact`, in which the name of the
parameter is that of a column. The route that activates leaves out an argument.
-/

namespace Notifyr

open Theory

namespace Contacts

/-! ## The rows of a contact -/

/-- `Status`. -/
inductive Status
  | Active | Pending | Blacklist | Inactive
  deriving DecidableEq, Repr

/-- The columns of `Contact` that the operations read or write. -/
structure ContactRow where
  status : Status
  optInCode : Option Nat
  actionCode : Option String
  deriving DecidableEq, Repr

/-- `SubscriptionStatusModel`. Only the later of its two validators is kept, as both have one
name. -/
structure SubscriptionStatusModel where
  emailStatus : Option String
  smsStatus : Option String
  deriving DecidableEq, Repr

/-- The flags of a row of `ContentTypeSubscription`, with the defaults of the model. -/
structure ContentFlags where
  event : Bool := false
  newsletter : Bool := false
  promotion : Bool := false
  other : Bool := true
  deriving DecidableEq, Repr

/-- The flags of `ContentTypeSubsModel`. -/
structure ContentTypeSubsModel where
  event : Option Bool := none
  newsletter : Option Bool := none
  promotion : Option Bool := none
  other : Option Bool := none
  deriving DecidableEq, Repr

/-- The rows of one contact: in `Contact`, in `SubscriptionContact` and in
`ContentTypeSubscription`, of which each contact has one at most, and in `Subscription`. -/
structure Db (σ : Type) where
  contact : ContactRow
  subs : Option (String × String)
  content : Option ContentFlags
  subscriptions : List σ

/-- The statements of the operations, and what they store in the caches. -/
inductive Stmt
  | selectContact | saveContact
  | createSubs | selectSubs | deleteSubs
  | createContent | selectContent | deleteContent | saveContent
  | deleteSubscriptions
  | storeContact | storeSummary
  deriving DecidableEq, Repr

/-- The statements that fail in one operation, which makes each of its statements once. -/
abbrev Faults := Stmt → Bool

/-- The exceptions of an operation. -/
inductive ContactErr
  /-- A statement that fails. -/
  | fault
  | typeError
  | attributeError
  | unboundLocalError
  /-- A row that the table or its model refuses. -/
  | integrityError
  /-- `column reference is ambiguous`, of PL/pgSQL. -/
  | ambiguousColumn
  | contactDoubleOptInAlreadySet
  | contactOptInCodeNotMatch
  deriving DecidableEq, Repr

/-- `plpgsql.variable_conflict`; `error` is the default. -/
inductive VariableConflict
  | error | useVariable | useColumn
  deriving DecidableEq, Repr

/-- The setting of the server, and which subscriptions `delete_subscriptions_by_contact` keeps. -/
structure ContactEnv (σ : Type) where
  variableConflict : VariableConflict
  kept : σ → Bool

variable {σ α : Type}

/-- An operation on the rows. -/
abbrev ContactM (σ α : Type) := Txn ContactErr (Db σ) α

def raise (e : ContactErr) : ContactM σ α := Txn.lift (.error e)

/-- A statement that reads. -/
def read (fails : Faults) (s : Stmt) (g : Db σ → α) : ContactM σ α :=
  Txn.updateGet fun db => if fails s then .error .fault else .ok (g db, db)

/-- A statement that writes, under the constraints of its table. -/
def write (fails : Faults) (s : Stmt) (allowed : Db σ → Bool) (g : Db σ → Db σ) :
    ContactM σ Unit :=
  Txn.update fun db =>
    if fails s then .error .fault
    else if allowed db then .ok (g db) else .error .integrityError

/-- `contact.save()`. -/
def saveContact (fails : Faults) (contact : ContactRow) : ContactM σ Unit :=
  write fails .saveContact (fun _ => true) fun db => { db with contact }

/-! ## The operations -/

/-- A value of the domain `SubscriptionStatus`. -/
def validStatus (s : Option String) : Bool := s = some "Active" || s = some "Inactive"

/-- `activate_contact`; `actionCode` is what is drawn, encoded. -/
def activateContact (fails : Faults) (opt : Nat) (model : SubscriptionStatusModel)
    (actionCode : String) : ContactM σ Unit := do
  let contact ← read fails .selectContact Db.contact
  if contact.optInCode = none then raise .contactDoubleOptInAlreadySet
  else if contact.optInCode ≠ some opt then raise .contactOptInCodeNotMatch
  else
    write fails .createSubs
      (fun db => validStatus model.emailStatus && validStatus model.smsStatus && db.subs.isNone)
      fun db => { db with subs := some (model.emailStatus.getD "", model.smsStatus.getD "") }
    -- the opt-in code stays as it is
    let contact := { contact with status := .Active, actionCode := some actionCode }
    write fails .createContent (fun db => db.content.isNone)
      fun db => { db with content := some {} }
    saveContact fails contact

/-- The route `activate_contact`: it calls the service without `subscription_status`. -/
def activateContactRoute (fails : Faults) (_opt : Nat) : ContactM σ Unit := do
  let _ ← read fails .selectContact Db.contact
  raise .typeError

/-- `delete_subscriptions_by_contact`: in `S.contact_id = contact_id`, the second name is that of
the parameter and that of a column. -/
def deleteSubscriptionsByContact (env : ContactEnv σ) (fails : Faults) : ContactM σ Unit := do
  if env.variableConflict = .error then raise .ambiguousColumn
  else
    write fails .deleteSubscriptions (fun _ => true)
      fun db => { db with subscriptions := db.subscriptions.filter env.kept }

/-- A status that a contact can be unsubscribed to: `ContactStatusPipe` takes out `Active`. -/
structure NextStatus where
  status : Status
  ne_active : status ≠ .Active

/-- The part of `unsubscribe_contact` for `Pending`. -/
def resetContact (env : ContactEnv σ) (fails : Faults) : ContactM σ Unit := do
  let subs ← read fails .selectSubs Db.subs
  if subs = none then raise .attributeError
  else
    write fails .deleteSubs (fun _ => true) fun db => { db with subs := none }
    let content ← read fails .selectContent Db.content
    if content = none then raise .attributeError
    else
      write fails .deleteContent (fun _ => true) fun db => { db with content := none }
      deleteSubscriptionsByContact env fails

/-- `unsubscribe_contact`; `newCode` is what is drawn for an opt-in code. -/
def unsubscribeContact (env : ContactEnv σ) (fails : Faults) (next : NextStatus)
    (newCode : Nat) : ContactM σ Unit := do
  let contact ← read fails .selectContact Db.contact
  let contact := { contact with status := next.status }
  if next.status = .Pending then
    -- the contact is saved last, after the rows that belong to it are gone
    resetContact env fails
    saveContact fails { contact with optInCode := some newCode, actionCode := none }
  else
    saveContact fails contact
    -- `row_affected` was not set
    raise .unboundLocalError

/-- `resubscribe_contact`. -/
def resubscribeContact (fails : Faults) : ContactM σ Unit := do
  let contact ← read fails .selectContact Db.contact
  if contact.status = .Inactive ∨ contact.status = .Blacklist then
    saveContact fails { contact with status := .Active }
    read fails .storeContact fun _ => ()
    read fails .storeSummary fun _ => ()
  else pure ()

/-- `setattr(record, key, item)` for each flag that is set. -/
def ContentTypeSubsModel.apply (flags : ContentTypeSubsModel) (record : ContentFlags) :
    ContentFlags where
  event := flags.event.getD record.event
  newsletter := flags.newsletter.getD record.newsletter
  promotion := flags.promotion.getD record.promotion
  other := flags.other.getD record.other

/-- `toggle_content_type_subs_flag`. -/
def toggleContentTypeSubsFlag (fails : Faults) (flags : ContentTypeSubsModel) :
    ContactM σ Unit := do
  let _ ← read fails .selectContact Db.contact
  let record ← read fails .selectContent Db.content
  match record with
  | none => raise .attributeError
  | some record =>
    write fails .saveContent (fun _ => true)
      fun db => { db with content := some (flags.apply record) }

/-- An operation on a contact. -/
inductive Op
  | activate (opt : Nat) (model : SubscriptionStatusModel) (actionCode : String)
  | activateRoute (opt : Nat)
  | unsubscribe (next : NextStatus) (newCode : Nat)
  | resubscribe
  | toggle (flags : ContentTypeSubsModel)

variable (env : ContactEnv σ)

def Op.run (fails : Faults) : Op → ContactM σ Unit
  | .activate opt model actionCode => activateContact fails opt model actionCode
  | .activateRoute opt => activateContactRoute fails opt
  | .unsubscribe next newCode => unsubscribeContact env fails next newCode
  | .resubscribe => resubscribeContact fails
  | .toggle flags => toggleContentTypeSubsFlag fails flags

/-! ## What a run is to keep -/

/-- The rows of a contact, and what happened to it. -/
structure World (σ : Type) where
  db : Db σ
  /-- It was activated since it was last set to `Pending`. -/
  activated : Bool
  /-- The activations with its opt-in code, since the code was set. -/
  uses : Nat

/-- An operation activates the contact. -/
def Op.activates : Op → Bool
  | .activate _ _ _ => true
  | _ => false

/-- An operation sets the contact to `Pending`. -/
def Op.resets : Op → Bool
  | .unsubscribe next _ => next.status = .Pending
  | _ => false

/-- The world after an operation. -/
def step (w : World σ) (a : Op × Faults) : World σ :=
  match a.1.run env a.2 w.db with
  | (.error _, db) => { w with db }
  | (.ok _, db) =>
    if a.1.activates then { db, activated := true, uses := w.uses + 1 }
    else if a.1.resets then { db, activated := false, uses := 0 }
    else { w with db }

/-- An opt-in code was used once at most, and the contact has its rows exactly when it was
activated. -/
structure WorldRight (w : World σ) : Prop where
  once : w.uses ≤ 1
  subs : w.db.subs.isSome = w.activated
  content : w.db.content.isSome = w.activated

/-- The statements of `unsubscribe_contact`. -/
def unsubscribeStmts (next : NextStatus) : List Stmt :=
  if next.status = .Pending then
    [.selectContact, .selectSubs, .deleteSubs, .selectContent, .deleteContent,
      .deleteSubscriptions, .saveContact]
  else [.selectContact, .saveContact]

/-- An operation that raises leaves the rows as they were, unsubscribing returns when none of its
statements fails, and the world is right afterwards. -/
structure StepRight (w : World σ) (a : Op × Faults) : Prop where
  unchanged : ∀ e, (a.1.run env a.2 w.db).1 = .error e → (a.1.run env a.2 w.db).2 = w.db
  returns : ∀ next newCode, a.1 = .unsubscribe next newCode →
    (∀ s ∈ unsubscribeStmts next, a.2 s = false) → (a.1.run env a.2 w.db).1 = .ok ()
  world : WorldRight (step env w a)

/-- A contact that was created and not activated yet. -/
def start (contact : ContactRow) (subscriptions : List σ) : World σ where
  db := { contact, subs := none, content := none, subscriptions }
  activated := false
  uses := 0

/-- Every operation of a run is right. -/
def RunRight (contact : ContactRow) (subscriptions : List σ) (run : List (Op × Faults)) : Prop :=
  Always (step env) (StepRight env) (start contact subscriptions) run

/-! ## The condition -/

/-- An activation comes to its first write, and makes it. -/
def Begins (db : Db σ) (fails : Faults) (opt : Nat) (model : SubscriptionStatusModel) : Prop :=
  fails .selectContact = false ∧ db.contact.optInCode = some opt ∧ fails .createSubs = false ∧
    validStatus model.emailStatus = true ∧ validStatus model.smsStatus = true ∧ db.subs = none

/-- Setting a contact to `Pending` fails before its first write, or comes to its end. -/
def PendingClean (w : World σ) (next : NextStatus) (fails : Faults) : Prop :=
  fails .selectContact = true ∨ fails .selectSubs = true ∨
  (w.db.subs = none ∧ ∃ s ∈ unsubscribeStmts next, fails s = true) ∨
  (w.db.subs ≠ none ∧ fails .deleteSubs = true) ∨
  (w.db.subs ≠ none ∧ env.variableConflict ≠ .error ∧
    ∀ s ∈ unsubscribeStmts next, fails s = false)

/-- An operation whose statements after its first write do not fail, if it is made. -/
def Clean (w : World σ) : Op × Faults → Prop
  | (.activate opt model _, fails) =>
    Begins w.db fails opt model → fails .createContent = false ∧ fails .saveContact = false
  | (.unsubscribe next _, fails) =>
    if next.status = .Pending then PendingClean env w next fails
    else fails .selectContact = true ∨ fails .saveContact = true
  | (.resubscribe, fails) =>
    (w.db.contact.status = .Inactive ∨ w.db.contact.status = .Blacklist) →
      fails .selectContact = false → fails .saveContact = false →
        fails .storeContact = false ∧ fails .storeSummary = false
  | (.activateRoute _, _) => True
  | (.toggle _, _) => True

/-! ## Statements -/

theorem read_bind (fails : Faults) (s : Stmt) {β : Type} (g : Db σ → β) (k : β → ContactM σ α)
    (db : Db σ) :
    (read fails s g >>= k) db =
      if fails s = true then (.error .fault, db) else k (g db) db := by
  show Txn.bind (read fails s g) k db = _
  unfold Txn.bind read Txn.updateGet
  cases fails s with
  | true => rfl
  | false => rfl

theorem write_run (fails : Faults) (s : Stmt) (allowed : Db σ → Bool) (g : Db σ → Db σ)
    (db : Db σ) :
    write fails s allowed g db =
      if fails s = true then (.error .fault, db)
      else if allowed db = true then (.ok (), g db) else (.error .integrityError, db) := by
  unfold write Txn.update
  dsimp only
  cases fails s with
  | true => rfl
  | false =>
    cases allowed db with
    | true => rfl
    | false => rfl

theorem write_bind (fails : Faults) (s : Stmt) (allowed : Db σ → Bool) (g : Db σ → Db σ)
    (k : Unit → ContactM σ α) (db : Db σ) :
    (write fails s allowed g >>= k) db =
      if fails s = true then (.error .fault, db)
      else if allowed db = true then k () (g db) else (.error .integrityError, db) := by
  show Txn.bind (write fails s allowed g) k db = _
  unfold Txn.bind
  rw [write_run]
  cases fails s with
  | true => rfl
  | false =>
    cases allowed db with
    | true => rfl
    | false => rfl

theorem saveContact_run (fails : Faults) (contact : ContactRow) (db : Db σ) :
    saveContact fails contact db =
      if fails .saveContact = true then (.error .fault, db)
      else (.ok (), { db with contact }) := write_run fails .saveContact _ _ db

theorem saveContact_bind (fails : Faults) (contact : ContactRow) (k : Unit → ContactM σ α)
    (db : Db σ) :
    (saveContact fails contact >>= k) db =
      if fails .saveContact = true then (.error .fault, db)
      else k () { db with contact } := write_bind fails .saveContact _ _ k db

/-! ## How an operation ends -/

variable {env} {w : World σ} {op : Op} {fails : Faults}

theorem step_of_error {e : ContactErr} {db : Db σ}
    (hrun : op.run env fails w.db = (.error e, db)) : step env w (op, fails) = { w with db } := by
  unfold step
  dsimp only
  rw [hrun]

theorem step_of_ok {db : Db σ} (hrun : op.run env fails w.db = (.ok (), db)) :
    step env w (op, fails) =
      if op.activates = true then ⟨db, true, w.uses + 1⟩
      else if op.resets = true then ⟨db, false, 0⟩ else { w with db } := by
  unfold step
  dsimp only
  rw [hrun]

/-- An operation that raises and leaves the rows as they were is right, for unsubscribing when one
of its statements failed. -/
theorem stepRight_of_unchanged {e : ContactErr} (hw : WorldRight w)
    (hrun : op.run env fails w.db = (.error e, w.db))
    (hret : ∀ next newCode, op = .unsubscribe next newCode →
      ∃ s ∈ unsubscribeStmts next, fails s = true) : StepRight env w (op, fails) := by
  refine ⟨?_, ?_, ?_⟩
  · intro _ _
    show (op.run env fails w.db).2 = w.db
    rw [hrun]
  · intro next newCode hop hnone
    obtain ⟨s, hs, hfails⟩ := hret next newCode hop
    cases (hnone s hs).symm.trans hfails
  · rw [step_of_error hrun]
    exact hw

/-- An operation that raises and changed the rows is not. -/
theorem not_stepRight_of_changed {e : ContactErr} {db : Db σ}
    (hrun : op.run env fails w.db = (.error e, db)) (hne : db ≠ w.db) :
    ¬ StepRight env w (op, fails) := by
  intro h
  have hsame : (op.run env fails w.db).2 = w.db := h.unchanged e (by
    show (op.run env fails w.db).1 = _
    rw [hrun])
  rw [hrun] at hsame
  exact hne hsame

/-- Unsubscribing that raises though no statement fails is not. -/
theorem not_stepRight_of_raises {next : NextStatus} {newCode : Nat} {e : ContactErr} {db : Db σ}
    (hrun : (Op.unsubscribe next newCode).run env fails w.db = (.error e, db))
    (hnone : ∀ s ∈ unsubscribeStmts next, fails s = false) :
    ¬ StepRight env w (.unsubscribe next newCode, fails) := by
  intro h
  have hok := h.returns next newCode rfl hnone
  rw [hrun] at hok
  cases hok

/-- An operation that returns is right when the world is right afterwards. -/
theorem stepRight_of_ok {db : Db σ} (hrun : op.run env fails w.db = (.ok (), db))
    (hworld : WorldRight (if op.activates = true then (⟨db, true, w.uses + 1⟩ : World σ)
      else if op.resets = true then ⟨db, false, 0⟩ else { w with db })) :
    StepRight env w (op, fails) := by
  refine ⟨?_, ?_, ?_⟩
  · intro e he
    have : (op.run env fails w.db).1 = .error e := he
    rw [hrun] at this
    cases this
  · intro _ _ _ _
    show (op.run env fails w.db).1 = _
    rw [hrun]
  · rw [step_of_ok hrun]
    exact hworld

/-! ## Activating -/

/-- The row that `activate_contact` makes in `SubscriptionContact`. -/
def subsRow (model : SubscriptionStatusModel) : String × String :=
  (model.emailStatus.getD "", model.smsStatus.getD "")

/-- An activation that does not come to its first write, or is refused it, raises. -/
theorem activate_stops {db : Db σ} {opt : Nat} {model : SubscriptionStatusModel}
    (actionCode : String) (h : ¬ Begins db fails opt model) :
    ∃ e, activateContact fails opt model actionCode db = (.error e, db) := by
  unfold activateContact
  rw [read_bind]
  by_cases hselect : fails .selectContact = true
  · rw [if_pos hselect]
    exact ⟨_, rfl⟩
  rw [if_neg hselect]
  by_cases hnone : db.contact.optInCode = none
  · rw [if_pos hnone]
    exact ⟨_, rfl⟩
  rw [if_neg hnone]
  by_cases hopt : db.contact.optInCode = some opt
  · rw [if_neg (not_not.2 hopt), write_bind]
    by_cases hcreate : fails .createSubs = true
    · rw [if_pos hcreate]
      exact ⟨_, rfl⟩
    rw [if_neg hcreate, if_neg]
    · exact ⟨_, rfl⟩
    · intro hallowed
      rw [Bool.and_eq_true, Bool.and_eq_true, Option.isNone_iff_eq_none] at hallowed
      exact h ⟨eq_false_of_ne_true hselect, hopt, eq_false_of_ne_true hcreate,
        hallowed.1.1, hallowed.1.2, hallowed.2⟩
  · rw [if_pos hopt]
    exact ⟨_, rfl⟩

/-- An activation after its first write. -/
theorem activate_begins {db : Db σ} {opt : Nat} {model : SubscriptionStatusModel}
    (actionCode : String) (h : Begins db fails opt model) (hcontent : db.content = none) :
    activateContact fails opt model actionCode db =
      if fails .createContent = true then
        (.error .fault, { db with subs := some (subsRow model) })
      else if fails .saveContact = true then
        (.error .fault, { db with subs := some (subsRow model), content := some {} })
      else
        (.ok (), { db with
          contact := { db.contact with status := .Active, actionCode := some actionCode }
          subs := some (subsRow model), content := some {} }) := by
  obtain ⟨hselect, hopt, hcreate, hemail, hsms, hsubs⟩ := h
  have hsome : db.contact.optInCode ≠ none := by
    rw [hopt]
    exact Option.some_ne_none opt
  have hallowed : (validStatus model.emailStatus && validStatus model.smsStatus &&
      db.subs.isNone) = true := by
    rw [hemail, hsms, hsubs]
    rfl
  unfold activateContact
  rw [read_bind, if_neg (Bool.eq_false_iff.1 hselect), if_neg hsome, if_neg (not_not.2 hopt),
    write_bind, if_neg (Bool.eq_false_iff.1 hcreate), if_pos hallowed, write_bind]
  by_cases hfail : fails .createContent = true
  · rw [if_pos hfail, if_pos hfail]
    rfl
  rw [if_neg hfail, if_neg hfail, if_pos (by rw [hcontent]; rfl), saveContact_run]
  rfl

/-- What holds of the world in a run that was right so far: the code was used as often as the
contact was activated since it was set. -/
structure Inv (w : World σ) : Prop extends WorldRight w where
  counted : w.uses = if w.activated = true then 1 else 0

theorem stepRight_activate_iff (hw : Inv w) (opt : Nat) (model : SubscriptionStatusModel)
    (actionCode : String) :
    StepRight env w (.activate opt model actionCode, fails) ↔
      Clean env w (.activate opt model actionCode, fails) := by
  show _ ↔ (Begins w.db fails opt model → fails .createContent = false ∧ fails .saveContact = false)
  by_cases hbegins : Begins w.db fails opt model
  · have hactivated : w.activated = false := by
      rw [← hw.subs, hbegins.2.2.2.2.2]
      rfl
    have hcontent : w.db.content = none := by
      rw [← Option.isNone_iff_eq_none, ← Option.not_isSome, hw.content, hactivated]
      rfl
    have hrun := activate_begins actionCode hbegins hcontent
    have hne : ∀ db : Db σ, db.subs = some (subsRow model) → db ≠ w.db := by
      rintro db hdb rfl
      rw [hbegins.2.2.2.2.2] at hdb
      cases hdb
    by_cases hcreate : fails .createContent = true
    · rw [if_pos hcreate] at hrun
      refine iff_of_false (not_stepRight_of_changed hrun (hne _ rfl)) ?_
      intro h
      cases (h hbegins).1.symm.trans hcreate
    by_cases hsave : fails .saveContact = true
    · rw [if_neg hcreate, if_pos hsave] at hrun
      refine iff_of_false (not_stepRight_of_changed hrun (hne _ rfl)) ?_
      intro h
      cases (h hbegins).2.symm.trans hsave
    · rw [if_neg hcreate, if_neg hsave] at hrun
      refine iff_of_true (stepRight_of_ok hrun ?_) fun _ =>
        ⟨eq_false_of_ne_true hcreate, eq_false_of_ne_true hsave⟩
      -- a contact with no rows was not activated since its code was set
      have huses : w.uses = 0 := by
        rw [hw.counted, hactivated]
        rfl
      show WorldRight (World.mk _ true (w.uses + 1))
      refine ⟨?_, rfl, rfl⟩
      show w.uses + 1 ≤ 1
      omega
  · obtain ⟨e, hrun⟩ := activate_stops actionCode hbegins
    refine iff_of_true (stepRight_of_unchanged hw.toWorldRight hrun ?_) fun h => absurd h hbegins
    intro next newCode h
    cases h

theorem stepRight_activateRoute (hw : Inv w) (opt : Nat) :
    StepRight env w (.activateRoute opt, fails) := by
  have hrun : ∃ e, (Op.activateRoute opt).run env fails w.db = (.error e, w.db) := by
    show ∃ e, activateContactRoute fails opt w.db = _
    unfold activateContactRoute
    rw [read_bind]
    split
    · exact ⟨_, rfl⟩
    · exact ⟨_, rfl⟩
  obtain ⟨e, hrun⟩ := hrun
  refine stepRight_of_unchanged hw.toWorldRight hrun ?_
  intro next newCode h
  cases h

/-! ## Unsubscribing -/

/-- Unsubscribing for good: the contact is saved, and then the name `row_affected` is missing. -/
theorem unsubscribe_run {next : NextStatus} (hnext : next.status ≠ .Pending) (newCode : Nat)
    (db : Db σ) :
    unsubscribeContact env fails next newCode db =
      if fails .selectContact = true then (.error .fault, db)
      else if fails .saveContact = true then (.error .fault, db)
      else (.error .unboundLocalError,
        { db with contact := { db.contact with status := next.status } }) := by
  unfold unsubscribeContact
  rw [read_bind]
  by_cases hselect : fails .selectContact = true
  · rw [if_pos hselect, if_pos hselect]
  rw [if_neg hselect, if_neg hselect, if_neg hnext, saveContact_bind]
  rfl

theorem stepRight_unsubscribe_iff (hw : Inv w) {next : NextStatus} (hnext : next.status ≠ .Pending)
    (newCode : Nat) :
    StepRight env w (.unsubscribe next newCode, fails) ↔
      fails .selectContact = true ∨ fails .saveContact = true := by
  have hstmts : unsubscribeStmts next = [.selectContact, .saveContact] := if_neg hnext
  have hrun := @unsubscribe_run _ env fails _ hnext newCode w.db
  have hret : ∀ s : Stmt, s = .selectContact ∨ s = .saveContact → fails s = true →
      ∀ next' newCode', Op.unsubscribe next newCode = .unsubscribe next' newCode' →
        ∃ s ∈ unsubscribeStmts next', fails s = true := by
    intro s hs hfails next' newCode' hop
    cases hop
    refine ⟨s, ?_, hfails⟩
    rw [hstmts]
    rcases hs with rfl | rfl
    · exact List.mem_cons_self
    · exact List.mem_cons_of_mem _ List.mem_cons_self
  by_cases hselect : fails .selectContact = true
  · rw [if_pos hselect] at hrun
    exact iff_of_true (stepRight_of_unchanged hw.toWorldRight hrun (hret _ (.inl rfl) hselect))
      (.inl hselect)
  by_cases hsave : fails .saveContact = true
  · rw [if_neg hselect, if_pos hsave] at hrun
    exact iff_of_true (stepRight_of_unchanged hw.toWorldRight hrun (hret _ (.inr rfl) hsave))
      (.inr hsave)
  · rw [if_neg hselect, if_neg hsave] at hrun
    refine iff_of_false (not_stepRight_of_raises hrun ?_) (not_or.2 ⟨hselect, hsave⟩)
    intro s hs
    rw [hstmts, List.mem_cons, List.mem_singleton] at hs
    rcases hs with rfl | rfl
    · exact eq_false_of_ne_true hselect
    · exact eq_false_of_ne_true hsave

/-- The rows after `resetContact`. -/
def resetDb (env : ContactEnv σ) (db : Db σ) : Db σ :=
  { db with subs := none, content := none, subscriptions := db.subscriptions.filter env.kept }

/-- The row in `SubscriptionContact` is not there, or cannot be deleted. -/
theorem reset_stops {db : Db σ}
    (h : fails .selectSubs = true ∨ db.subs = none ∨ fails .deleteSubs = true) :
    ∃ e, resetContact env fails db = (.error e, db) := by
  unfold resetContact
  rw [read_bind]
  by_cases hselect : fails .selectSubs = true
  · rw [if_pos hselect]
    exact ⟨_, rfl⟩
  rw [if_neg hselect]
  by_cases hsubs : db.subs = none
  · rw [if_pos hsubs]
    exact ⟨_, rfl⟩
  have hdelete : fails .deleteSubs = true := (h.resolve_left hselect).resolve_left hsubs
  rw [if_neg hsubs, write_bind, if_pos hdelete]
  exact ⟨_, rfl⟩

/-- What comes after the deletion of that row does not fail. -/
def RestGoes (env : ContactEnv σ) (fails : Faults) : Prop :=
  fails .selectContent = false ∧ fails .deleteContent = false ∧
    env.variableConflict ≠ .error ∧ fails .deleteSubscriptions = false

/-- After that deletion, the row is gone however the rest ends. -/
theorem reset_goes {db : Db σ} (hselect : fails .selectSubs ≠ true) (hsubs : db.subs ≠ none)
    (hdelete : fails .deleteSubs ≠ true) (hcontent : db.content ≠ none) :
    (RestGoes env fails → resetContact env fails db = (.ok (), resetDb env db)) ∧
    (¬ RestGoes env fails →
      ∃ e db', resetContact env fails db = (.error e, db') ∧ db'.subs = none) := by
  unfold resetContact
  rw [read_bind, if_neg hselect, if_neg hsubs, write_bind, if_neg hdelete, if_pos rfl, read_bind]
  by_cases hread : fails .selectContent = true
  · rw [if_pos hread]
    refine ⟨fun h => ?_, fun _ => ⟨_, _, rfl, rfl⟩⟩
    cases h.1.symm.trans hread
  rw [if_neg hread, if_neg (show ({ db with subs := none } : Db σ).content ≠ none from hcontent),
    write_bind]
  by_cases hwrite : fails .deleteContent = true
  · rw [if_pos hwrite]
    refine ⟨fun h => ?_, fun _ => ⟨_, _, rfl, rfl⟩⟩
    cases h.2.1.symm.trans hwrite
  rw [if_neg hwrite, if_pos rfl]
  unfold deleteSubscriptionsByContact
  by_cases hconflict : env.variableConflict = .error
  · rw [if_pos hconflict]
    exact ⟨fun h => absurd hconflict h.2.2.1, fun _ => ⟨_, _, rfl, rfl⟩⟩
  rw [if_neg hconflict, write_run]
  by_cases hlast : fails .deleteSubscriptions = true
  · rw [if_pos hlast]
    refine ⟨fun h => ?_, fun _ => ⟨_, _, rfl, rfl⟩⟩
    cases h.2.2.2.symm.trans hlast
  · rw [if_neg hlast, if_pos rfl]
    refine ⟨fun _ => rfl, fun h => absurd ⟨?_, ?_, hconflict, ?_⟩ h⟩
    · exact eq_false_of_ne_true hread
    · exact eq_false_of_ne_true hwrite
    · exact eq_false_of_ne_true hlast

/-- Setting a contact to `Pending`, once the contact was read. -/
theorem unsubscribe_pending {next : NextStatus} (hnext : next.status = .Pending) (newCode : Nat)
    {db : Db σ} (hselect : fails .selectContact ≠ true) :
    unsubscribeContact env fails next newCode db = (resetContact env fails >>= fun _ =>
      saveContact fails ⟨.Pending, some newCode, none⟩) db := by
  unfold unsubscribeContact
  rw [read_bind, if_neg hselect, if_pos hnext]
  dsimp only
  rw [hnext]

theorem forall_unsubscribeStmts_iff {next : NextStatus} (hnext : next.status = .Pending) :
    (∀ s ∈ unsubscribeStmts next, fails s = false) ↔
      fails .selectContact = false ∧ fails .selectSubs = false ∧ fails .deleteSubs = false ∧
      fails .selectContent = false ∧ fails .deleteContent = false ∧
      fails .deleteSubscriptions = false ∧ fails .saveContact = false := by
  rw [unsubscribeStmts, if_pos hnext]
  simp only [List.forall_mem_cons, List.not_mem_nil, false_implies, implies_true, and_true]

/-- Where the row in `SubscriptionContact` is not there or cannot be deleted, the condition is that
some statement fails. -/
theorem pendingClean_iff_fault {next : NextStatus} (hnext : next.status = .Pending)
    (hstop : fails .selectSubs = true ∨ w.db.subs = none ∨ fails .deleteSubs = true) :
    PendingClean env w next fails ↔ ∃ s ∈ unsubscribeStmts next, fails s = true := by
  have hall := @forall_unsubscribeStmts_iff fails next hnext
  constructor
  · intro hclean
    by_contra hnone
    -- if no statement fails the row has to be there, and it is not
    have hgoes : ∀ s ∈ unsubscribeStmts next, fails s = false := by
      intro s hs
      exact eq_false_of_ne_true fun h => hnone ⟨s, hs, h⟩
    obtain ⟨hselect, hread, hdelete, -⟩ := hall.1 hgoes
    have hsubs : w.db.subs = none := by
      rcases hstop with h | h | h
      · cases h.symm.trans hread
      · exact h
      · cases h.symm.trans hdelete
    rcases hclean with h | h | ⟨-, h⟩ | ⟨h, -⟩ | ⟨h, -⟩
    · cases h.symm.trans hselect
    · cases h.symm.trans hread
    · exact hnone h
    · exact h hsubs
    · exact h hsubs
  · intro hfault
    rcases hstop with h | h | h
    · exact .inr (.inl h)
    · exact .inr (.inr (.inl ⟨h, hfault⟩))
    · by_cases hsubs : w.db.subs = none
      · exact .inr (.inr (.inl ⟨hsubs, hfault⟩))
      · exact .inr (.inr (.inr (.inl ⟨hsubs, h⟩)))

/-- Where that row is deleted, the condition is that the rest goes, and the contact is saved. -/
theorem pendingClean_iff_restGoes {next : NextStatus} (hnext : next.status = .Pending)
    (hselect : fails .selectContact ≠ true) (hread : fails .selectSubs ≠ true)
    (hsubs : w.db.subs ≠ none) (hdelete : fails .deleteSubs ≠ true) :
    PendingClean env w next fails ↔ RestGoes env fails ∧ fails .saveContact = false := by
  unfold PendingClean
  rw [forall_unsubscribeStmts_iff hnext]
  constructor
  · rintro (h | h | ⟨h, -⟩ | ⟨-, h⟩ | ⟨-, hconflict, -, -, -, hcontent, hwrite, hlast, hsave⟩)
    · exact absurd h hselect
    · exact absurd h hread
    · exact absurd h hsubs
    · exact absurd h hdelete
    · exact ⟨⟨hcontent, hwrite, hconflict, hlast⟩, hsave⟩
  · rintro ⟨⟨hcontent, hwrite, hconflict, hlast⟩, hsave⟩
    refine .inr (.inr (.inr (.inr
      ⟨hsubs, hconflict, ?_, ?_, ?_, hcontent, hwrite, hlast, hsave⟩)))
    · exact eq_false_of_ne_true hselect
    · exact eq_false_of_ne_true hread
    · exact eq_false_of_ne_true hdelete

/-- Setting a contact to `Pending` that raises and leaves the rows as they were. -/
theorem stepRight_pending_of_unchanged (hw : Inv w) {next : NextStatus} {newCode : Nat}
    {e : ContactErr}
    (hrun : (Op.unsubscribe next newCode).run env fails w.db = (.error e, w.db)) :
    StepRight env w (.unsubscribe next newCode, fails) ↔
      ∃ s ∈ unsubscribeStmts next, fails s = true := by
  constructor
  · intro h
    by_contra hnone
    refine not_stepRight_of_raises hrun ?_ h
    intro s hs
    exact eq_false_of_ne_true fun hfails => hnone ⟨s, hs, hfails⟩
  · intro hfault
    refine stepRight_of_unchanged hw.toWorldRight hrun ?_
    intro next' newCode' hop
    cases hop
    exact hfault

theorem stepRight_pending_iff (hw : Inv w) {next : NextStatus} (hnext : next.status = .Pending)
    (newCode : Nat) :
    StepRight env w (.unsubscribe next newCode, fails) ↔ PendingClean env w next fails := by
  have hrun : (Op.unsubscribe next newCode).run env fails w.db =
      unsubscribeContact env fails next newCode w.db := rfl
  by_cases hselect : fails .selectContact = true
  · rw [unsubscribeContact, read_bind, if_pos hselect] at hrun
    refine iff_of_true ((stepRight_pending_of_unchanged hw hrun).2 ⟨_, ?_, hselect⟩) (.inl hselect)
    rw [unsubscribeStmts, if_pos hnext]
    exact List.mem_cons_self
  rw [unsubscribe_pending hnext newCode hselect] at hrun
  by_cases hstop : fails .selectSubs = true ∨ w.db.subs = none ∨ fails .deleteSubs = true
  · obtain ⟨e, he⟩ : ∃ e, resetContact env fails w.db = (.error e, w.db) := reset_stops hstop
    rw [Txn.run_bind_error he] at hrun
    rw [stepRight_pending_of_unchanged hw hrun, pendingClean_iff_fault hnext hstop]
  · rw [not_or, not_or] at hstop
    obtain ⟨hread, hsubs, hdelete⟩ := hstop
    rw [pendingClean_iff_restGoes hnext hselect hread hsubs hdelete]
    have hactivated : w.activated = true := by
      rw [← hw.subs, Option.isSome_iff_ne_none]
      exact hsubs
    have hcontent : w.db.content ≠ none := by
      rw [← Option.isSome_iff_ne_none, hw.content, hactivated]
    obtain ⟨hgo, hno⟩ := @reset_goes _ env fails _ hread hsubs hdelete hcontent
    -- from the first deletion on the row is gone, so what raises has changed the rows
    have hne : ∀ db : Db σ, db.subs = none → db ≠ w.db := by
      rintro db hdb rfl
      exact hsubs hdb
    by_cases hrest : RestGoes env fails
    · rw [Txn.run_bind_ok (hgo hrest), saveContact_run] at hrun
      by_cases hsave : fails .saveContact = true
      · rw [if_pos hsave] at hrun
        refine iff_of_false (not_stepRight_of_changed hrun (hne _ rfl)) ?_
        rintro ⟨-, h⟩
        cases h.symm.trans hsave
      · rw [if_neg hsave] at hrun
        refine iff_of_true (stepRight_of_ok hrun ?_) ⟨hrest, eq_false_of_ne_true hsave⟩
        have hresets : (Op.unsubscribe next newCode).resets = true := decide_eq_true hnext
        rw [if_neg (by intro h; cases h), if_pos hresets]
        exact ⟨Nat.zero_le 1, rfl, rfl⟩
    · obtain ⟨e, db', he, hdb'⟩ := hno hrest
      rw [Txn.run_bind_error he] at hrun
      exact iff_of_false (not_stepRight_of_changed hrun (hne _ hdb')) fun h => hrest h.1

/-! ## Resubscribing and preferences -/

theorem stepRight_resubscribe_iff (hw : Inv w) :
    StepRight env w (.resubscribe, fails) ↔ Clean env w (.resubscribe, fails) := by
  show _ ↔ ((w.db.contact.status = .Inactive ∨ w.db.contact.status = .Blacklist) →
    fails .selectContact = false → fails .saveContact = false →
      fails .storeContact = false ∧ fails .storeSummary = false)
  have hrun : Op.resubscribe.run env fails w.db = resubscribeContact fails w.db := rfl
  have hret : ∀ next newCode, Op.resubscribe = .unsubscribe next newCode →
      ∃ s ∈ unsubscribeStmts next, fails s = true := by
    intro next newCode h
    cases h
  unfold resubscribeContact at hrun
  rw [read_bind] at hrun
  by_cases hselect : fails .selectContact = true
  · rw [if_pos hselect] at hrun
    refine iff_of_true (stepRight_of_unchanged hw.toWorldRight hrun hret) ?_
    intro _ h
    cases h.symm.trans hselect
  rw [if_neg hselect] at hrun
  by_cases hstatus : w.db.contact.status = .Inactive ∨ w.db.contact.status = .Blacklist
  · rw [if_pos hstatus, saveContact_bind] at hrun
    by_cases hsave : fails .saveContact = true
    · rw [if_pos hsave] at hrun
      refine iff_of_true (stepRight_of_unchanged hw.toWorldRight hrun hret) ?_
      intro _ _ h
      cases h.symm.trans hsave
    -- the contact is active now, and it was not
    have hne : ∀ db : Db σ, db.contact.status = .Active → db ≠ w.db := by
      rintro db hdb rfl
      rw [hdb] at hstatus
      rcases hstatus with h | h
      · cases h
      · cases h
    rw [if_neg hsave, read_bind] at hrun
    by_cases hstore : fails .storeContact = true
    · rw [if_pos hstore] at hrun
      refine iff_of_false (not_stepRight_of_changed hrun (hne _ rfl)) ?_
      intro h
      cases (h hstatus (eq_false_of_ne_true hselect)
        (eq_false_of_ne_true hsave)).1.symm.trans hstore
    rw [if_neg hstore] at hrun
    unfold read Txn.updateGet at hrun
    by_cases hsummary : fails .storeSummary = true
    · rw [hsummary] at hrun
      refine iff_of_false (not_stepRight_of_changed hrun (hne _ rfl)) ?_
      intro h
      cases (h hstatus (eq_false_of_ne_true hselect)
        (eq_false_of_ne_true hsave)).2.symm.trans hsummary
    · rw [eq_false_of_ne_true hsummary] at hrun
      refine iff_of_true (stepRight_of_ok hrun ?_) fun _ _ _ =>
        ⟨eq_false_of_ne_true hstore, eq_false_of_ne_true hsummary⟩
      exact ⟨hw.once, hw.subs, hw.content⟩
  · rw [if_neg hstatus] at hrun
    refine iff_of_true (stepRight_of_ok hrun ?_) fun h => absurd h hstatus
    exact ⟨hw.once, hw.subs, hw.content⟩

theorem stepRight_toggle (hw : Inv w) (flags : ContentTypeSubsModel) :
    StepRight env w (.toggle flags, fails) := by
  have hrun : (Op.toggle flags).run env fails w.db =
      toggleContentTypeSubsFlag fails flags w.db := rfl
  have hret : ∀ next newCode, Op.toggle flags = .unsubscribe next newCode →
      ∃ s ∈ unsubscribeStmts next, fails s = true := by
    intro next newCode h
    cases h
  unfold toggleContentTypeSubsFlag at hrun
  rw [read_bind] at hrun
  by_cases hselect : fails .selectContact = true
  · rw [if_pos hselect] at hrun
    exact stepRight_of_unchanged hw.toWorldRight hrun hret
  rw [if_neg hselect, read_bind] at hrun
  by_cases hread : fails .selectContent = true
  · rw [if_pos hread] at hrun
    exact stepRight_of_unchanged hw.toWorldRight hrun hret
  rw [if_neg hread] at hrun
  cases hcontent : w.db.content with
  | none =>
    rw [hcontent] at hrun
    exact stepRight_of_unchanged hw.toWorldRight hrun hret
  | some record =>
    rw [hcontent] at hrun
    dsimp only at hrun
    rw [write_run] at hrun
    by_cases hsave : fails .saveContent = true
    · rw [if_pos hsave] at hrun
      exact stepRight_of_unchanged hw.toWorldRight hrun hret
    · rw [if_neg hsave, if_pos rfl] at hrun
      refine stepRight_of_ok hrun ⟨hw.once, hw.subs, ?_⟩
      rw [← hw.content, hcontent]
      rfl

/-! ## The main result -/

/-- In a run that was right so far, an operation is right when it is clean. -/
theorem stepRight_iff_clean (hw : Inv w) (a : Op × Faults) :
    StepRight env w a ↔ Clean env w a := by
  obtain ⟨op, fails⟩ := a
  cases op with
  | activate opt model actionCode => exact stepRight_activate_iff hw opt model actionCode
  | activateRoute opt => exact iff_of_true (stepRight_activateRoute hw opt) trivial
  | unsubscribe next newCode =>
    show _ ↔ (if next.status = .Pending then _ else _)
    by_cases hnext : next.status = .Pending
    · rw [if_pos hnext]
      exact stepRight_pending_iff hw hnext newCode
    · rw [if_neg hnext]
      exact stepRight_unsubscribe_iff hw hnext newCode
  | resubscribe => exact stepRight_resubscribe_iff hw
  | toggle flags => exact iff_of_true (stepRight_toggle hw flags) trivial

/-- What holds of the world of a right run holds after a right operation. -/
theorem Inv.step (hw : Inv w) {a : Op × Faults} (h : StepRight env w a) :
    Inv (Contacts.step env w a) := by
  refine ⟨h.world, ?_⟩
  have honce := h.world.once
  obtain ⟨op, fails⟩ := a
  rcases hrun : op.run env fails w.db with ⟨e | u, db⟩
  · rw [step_of_error hrun]
    exact hw.counted
  · rw [step_of_ok hrun] at honce ⊢
    split
    · rename_i hactivates
      rw [if_pos hactivates] at honce
      show w.uses + 1 = 1
      have : w.uses + 1 ≤ 1 := honce
      omega
    · split
      · rfl
      · exact hw.counted

theorem inv_start (contact : ContactRow) (subscriptions : List σ) :
    Inv (start contact subscriptions) := ⟨⟨Nat.zero_le 1, rfl, rfl⟩, rfl⟩

/-- A run is right exactly when each of its operations is clean in the state it is made in. -/
theorem runRight_iff (env : ContactEnv σ) (contact : ContactRow) (subscriptions : List σ)
    (run : List (Op × Faults)) :
    RunRight env contact subscriptions run ↔
      Always (Contacts.step env) (Clean env) (start contact subscriptions) run :=
  always_congr_of_step (fun _ _ hw h => hw.step h) (fun _ a hw => stepRight_iff_clean hw a)
    (inv_start contact subscriptions)

/-- A contact is set to `Inactive`: it is, and the operation raises. -/
theorem inactive_raises : ¬ RunRight ⟨.error, fun _ : Unit => true⟩ ⟨.Active, some 123456789, none⟩
    [] [(.unsubscribe ⟨.Inactive, by decide⟩ 123456780, fun _ => false)] := by
  rintro ⟨h, -⟩
  have hok := h.returns _ _ rfl (fun _ _ => rfl)
  cases hok

end Contacts

end Notifyr
