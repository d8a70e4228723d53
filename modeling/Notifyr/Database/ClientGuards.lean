import Notifyr.Auth.Security
import Notifyr.Theory.Runs
import Notifyr.Theory.Triggers

/-!
# The guards of the client table

The triggers of `Client` (`database/security.sql`): `guard_admin_creation` and `limit_client` before
an insertion, `guard_admin_deletion` before an update or a deletion.

- `ClientTuple`, `clientRules`: the columns that triggers and constraints read, and the rules.
- `AdminsRight`: what a statement that is accepted owes the admin, and a deletion the other rows.
- `exec_update`, `exec_delete`, `exec_insert`: what each kind of statement does.
- `clientRunRight_iff`: the runs in which the guards keep what they promise.
-/

namespace Notifyr

open Theory

/-- A row of `Client`. -/
structure ClientTuple where
  clientId : String
  clientName : Option String := none
  clientUsername : Option String := none
  issuedFor : Option String := none
  groupId : Option String := none
  clientType : Option ClientType := some .User
  authType : Option AuthType := some .ACCESS_TOKEN
  deriving DecidableEq

/-- `client_type = 'Admin'`; a null is not equal to it. -/
def isAdmin (row : ClientTuple) : Bool := row.clientType == some .Admin

/-- `guard_admin_creation`. -/
def guardAdminCreation (table : List ClientTuple) (new : ClientTuple) : RowVerdict ClientTuple :=
  if isAdmin new then
    if table.countP isAdmin > 0 then .raise "Admin already exists" else .ofRow (some new)
  else .ofRow (some new)

/-- `compute_limit_client`. -/
def computeLimitClient (table : List ClientTuple) (new : ClientTuple) : RowVerdict ClientTuple :=
  if table.length ≥ 11 then .raise "Client limit reached" else .ofRow (some new)

/-- `guard_admin_deletion`; before a deletion `NEW` is null. -/
def ClientTuple.guardAdminDeletion (old : ClientTuple) (new : Option ClientTuple) :
    RowVerdict ClientTuple :=
  if isAdmin old then .raise "Admin cannot be deleted or updated" else .ofRow new

/-- `UNIQUE`, for a column: nulls are all different. -/
def uniqueColumn (column : ClientTuple → Option String) (others : List ClientTuple)
    (row : ClientTuple) : Bool :=
  others.all fun other => (column other).isNone || decide (column other ≠ column row)

/-- The constraints of `Client`; `groups` are the rows of `GroupClient`. -/
def checkClient (groups : List String) (others : List ClientTuple) (row : ClientTuple) :
    Except String Unit :=
  if (others.all fun other => decide (other.clientId ≠ row.clientId)) &&
      uniqueColumn ClientTuple.clientName others row &&
      uniqueColumn ClientTuple.clientUsername others row &&
      uniqueColumn ClientTuple.issuedFor others row then
    if row.groupId.all groups.contains then .ok ()
    else .error "insert or update on table \"client\" violates foreign key constraint"
  else .error "duplicate key value violates unique constraint"

/-- The triggers of an event are fired in the order of their names. -/
def clientRules (groups : List String) : TableRules ClientTuple where
  beforeInsert table new := (guardAdminCreation table new).andThen (computeLimitClient table)
  beforeUpdate _ old new := ClientTuple.guardAdminDeletion old (some new)
  beforeDelete _ old := ClientTuple.guardAdminDeletion old none
  check := checkClient groups

/-! ## The property and the condition -/

/-- What an accepted statement owes. -/
structure AdminsRight (table : List ClientTuple) (stmt : Statement ClientTuple)
    (table' : List ClientTuple) : Prop where
  /-- There is at most one admin. -/
  one : table'.countP isAdmin ≤ 1
  /-- An admin is neither deleted nor changed. -/
  kept : ∀ row ∈ table, isAdmin row = true → row ∈ table'
  /-- No row is promoted beside an admin. -/
  promoted : ∀ cond set, stmt = .update cond set → ∀ row ∈ table, cond row = true →
    isAdmin row = false → isAdmin (set row) = true → ∀ other ∈ table, isAdmin other = false
  /-- Other rows are really deleted. -/
  removed : ∀ cond, stmt = .delete cond → ∀ row ∈ table, cond row = true →
    isAdmin row = false → row ∉ table'

/-- A run of statements from the empty table, those that are refused among them: every state that it
reaches has at most one admin, and every accepted statement does what it owes. -/
def ClientRunRight (groups : List String) (stmts : List (Statement ClientTuple)) : Prop :=
  (∀ before after, stmts = before ++ after →
    (runFrom (clientRules groups).step [] before).countP isAdmin ≤ 1) ∧
  Always (clientRules groups).step (fun table stmt => ∀ table',
    (clientRules groups).exec table stmt = .ok table' → AdminsRight table stmt table') [] stmts

/-- How many rows an update promotes, if the admin is not among those that it changes. -/
def promotions (cond : ClientTuple → Bool) (set : ClientTuple → ClientTuple)
    (table : List ClientTuple) : ℕ :=
  table.countP fun row => cond row && isAdmin (set row)

/-- The condition on a statement, where it is accepted: a deletion finds nothing to delete, and an
update promotes no row, or one where there is no admin. -/
def ClientGuard (groups : List String) (table : List ClientTuple) (stmt : Statement ClientTuple) :
    Prop :=
  (∃ table', (clientRules groups).exec table stmt = .ok table') →
    match stmt with
    | .insert _ => True
    | .update cond set => promotions cond set table = 0 ∨
        promotions cond set table = 1 ∧ ∀ row ∈ table, isAdmin row = false
    | .delete cond => ∀ row ∈ table, cond row = false

/-! ## What a statement does -/

section Exec

variable {groups : List String} {table table' : List ClientTuple}
  {cond : ClientTuple → Bool} {set : ClientTuple → ClientTuple}

/-- The guard lets a row through only if it is no admin's, and then as it is. -/
theorem guardAdminDeletion_proceed {old row : ClientTuple} {new : Option ClientTuple}
    (h : ClientTuple.guardAdminDeletion old new = .proceed row) :
    isAdmin old = false ∧ new = some row := by
  unfold ClientTuple.guardAdminDeletion at h
  split_ifs at h with hadmin
  cases new with
  | none => cases h
  | some row' =>
    cases h
    exact ⟨Bool.eq_false_iff.mpr hadmin, rfl⟩

/-- It skips a row only if there is no new one. -/
theorem guardAdminDeletion_skip {old : ClientTuple} {new : Option ClientTuple}
    (h : ClientTuple.guardAdminDeletion old new = .skip) : isAdmin old = false ∧ new = none := by
  unfold ClientTuple.guardAdminDeletion at h
  split_ifs at h with hadmin
  cases new with
  | none => exact ⟨Bool.eq_false_iff.mpr hadmin, rfl⟩
  | some row' => cases h

/-- An update that is accepted finds no admin, and does what it says. -/
theorem exec_update (h : (clientRules groups).exec table (.update cond set) = .ok table') :
    table' = table.map (fun row => if cond row then set row else row) ∧
      ∀ row ∈ table, cond row = true → isAdmin row = false := by
  rw [List.map_eq_flatMap]
  have hsweep : sweep _ [] table = .ok table' := h
  refine sweep_ok (fun before row after new hact => ?_) hsweep
  rcases TableRules.updateRow_ok hact with ⟨hcond, rfl⟩ | ⟨hcond, hguard⟩
  · rw [hcond]
    exact ⟨rfl, fun hc => absurd hc Bool.false_ne_true⟩
  rw [hcond]
  rcases hguard with ⟨hskip, -⟩ | ⟨row', hproceed, rfl⟩
  · cases (guardAdminDeletion_skip hskip).2
  · obtain ⟨hadmin, hnew⟩ := guardAdminDeletion_proceed hproceed
    cases hnew
    exact ⟨rfl, fun _ => hadmin⟩

/-- A deletion that is accepted finds no admin, and deletes nothing. -/
theorem exec_delete (h : (clientRules groups).exec table (.delete cond) = .ok table') :
    table' = table ∧ ∀ row ∈ table, cond row = true → isAdmin row = false := by
  have hsweep : sweep _ [] table = .ok table' := h
  have hrows := sweep_ok (f := fun row => [row])
    (P := fun row => cond row = true → isAdmin row = false)
    (fun before row after new hact => ?_) hsweep
  · rwa [List.flatMap_singleton', List.nil_append] at hrows
  rcases TableRules.deleteRow_ok hact with ⟨hcond, rfl⟩ | ⟨-, ⟨hskip, rfl⟩ | ⟨row', hproceed, -⟩⟩
  · rw [hcond]
    exact ⟨rfl, fun hc => absurd hc Bool.false_ne_true⟩
  · exact ⟨rfl, fun _ => (guardAdminDeletion_skip hskip).1⟩
  · -- `RETURN NEW` is null here
    cases (guardAdminDeletion_proceed hproceed).2

/-- A row goes on to be inserted only if it is no admin's, or there is no admin. -/
theorem guardAdminCreation_cases (table : List ClientTuple) (new : ClientTuple) :
    (guardAdminCreation table new = .proceed new ∧
        (isAdmin new = true → table.countP isAdmin = 0)) ∨
      ∃ message, guardAdminCreation table new = .raise message := by
  unfold guardAdminCreation
  split_ifs with hadmin hcount
  · exact .inr ⟨_, rfl⟩
  · exact .inl ⟨rfl, fun _ => by omega⟩
  · exact .inl ⟨rfl, fun hc => absurd hc hadmin⟩

theorem computeLimitClient_cases (table : List ClientTuple) (new : ClientTuple) :
    computeLimitClient table new = .proceed new ∨
      ∃ message, computeLimitClient table new = .raise message := by
  unfold computeLimitClient
  split_ifs
  · exact .inr ⟨_, rfl⟩
  · exact .inl rfl

/-- A row that is inserted comes after the others, and is an admin only if none of them is. -/
theorem insertRow_client {row : ClientTuple}
    (h : (clientRules groups).insertRow table row = .ok table') :
    table' = table ++ [row] ∧ (isAdmin row = true → table.countP isAdmin = 0) := by
  have hrow := TableRules.insertRow_ok h
  change ((guardAdminCreation table row).andThen (computeLimitClient table) = _ ∧ _) ∨
    ∃ row', (guardAdminCreation table row).andThen (computeLimitClient table) = _ ∧ _ at hrow
  rcases guardAdminCreation_cases table row with ⟨hcreate, hadmin⟩ | ⟨message, hraise⟩
  · rw [hcreate] at hrow
    change (computeLimitClient table row = _ ∧ _) ∨
      ∃ row', computeLimitClient table row = _ ∧ _ at hrow
    rcases computeLimitClient_cases table row with hlimit | ⟨message, hraise⟩
    · rw [hlimit] at hrow
      rcases hrow with ⟨hskip, -⟩ | ⟨row', hproceed, rfl⟩
      · cases hskip
      · cases hproceed
        exact ⟨rfl, hadmin⟩
    · rw [hraise] at hrow
      rcases hrow with ⟨hskip, -⟩ | ⟨row', hproceed, -⟩
      · cases hskip
      · cases hproceed
  · rw [hraise] at hrow
    rcases hrow with ⟨hskip, -⟩ | ⟨row', hproceed, -⟩
    · cases hskip
    · cases hproceed

/-- An insertion keeps the rows there are, and at most one admin. -/
theorem exec_insert {rows : List ClientTuple} (hone : table.countP isAdmin ≤ 1)
    (h : (clientRules groups).exec table (.insert rows) = .ok table') :
    (∀ row ∈ table, row ∈ table') ∧ table'.countP isAdmin ≤ 1 := by
  refine TableRules.exec_insert_inv (I := fun t => (∀ row ∈ table, row ∈ t) ∧ t.countP isAdmin ≤ 1)
    (fun t row t' hI hinsert => ?_) ⟨fun _ hmem => hmem, hone⟩ h
  obtain ⟨rfl, hadmin⟩ := insertRow_client hinsert
  refine ⟨fun other hother => List.mem_append_left _ (hI.1 other hother), ?_⟩
  rw [List.countP_append, List.countP_singleton]
  split_ifs with hrow
  · rw [hadmin hrow]
  · exact hI.2

/-- The admins after an update that changes none: those there were, and the promoted rows. -/
theorem countP_update (h : ∀ row ∈ table, cond row = true → isAdmin row = false) :
    (table.map fun row => if cond row then set row else row).countP isAdmin =
      promotions cond set table + table.countP isAdmin := by
  unfold promotions
  induction table with
  | nil => rfl
  | cons row rows ih =>
    have hrows := ih fun other hother => h other (List.mem_cons_of_mem _ hother)
    have hrow := h row List.mem_cons_self
    rw [List.map_cons, List.countP_cons, List.countP_cons, List.countP_cons, hrows]
    by_cases hcond : cond row = true
    · rw [hrow hcond, hcond]
      simp only [if_true, Bool.true_and, Bool.false_eq_true, if_false]
      omega
    · rw [Bool.eq_false_iff.mpr hcond]
      simp only [Bool.false_and, Bool.false_eq_true, if_false]
      omega

end Exec

/-! ## Statements and runs -/

section Runs

variable {groups : List String} {table table' : List ClientTuple} {stmt : Statement ClientTuple}

/-- Where no row is promoted beside an admin or with another, and no deletion finds a row, an
accepted statement does what it owes. -/
theorem adminsRight_of_guard (hone : table.countP isAdmin ≤ 1)
    (h : (clientRules groups).exec table stmt = .ok table')
    (hguard : ClientGuard groups table stmt) : AdminsRight table stmt table' := by
  have hallowed := hguard ⟨table', h⟩
  cases stmt with
  | insert rows =>
    obtain ⟨hkept, hcount⟩ := exec_insert hone h
    exact ⟨hcount, fun row hrow _ => hkept row hrow, (fun _ _ hstmt => nomatch hstmt),
      fun _ hstmt => nomatch hstmt⟩
  | update cond set =>
    obtain ⟨rfl, hmatched⟩ := exec_update h
    refine ⟨?_, fun row hrow hadmin => ?_, ?_, fun _ hstmt => nomatch hstmt⟩
    · rw [countP_update hmatched]
      rcases hallowed with hzero | ⟨hpromoted, hnone⟩
      · omega
      · have : table.countP isAdmin = 0 := List.countP_eq_zero.mpr fun row hrow hadmin => by
          rw [hnone row hrow] at hadmin
          cases hadmin
        omega
    · refine List.mem_map.mpr ⟨row, hrow, if_neg fun hcond => ?_⟩
      rw [hmatched row hrow hcond] at hadmin
      cases hadmin
    · rintro cond' set' hstmt row hrow hcond hnot hpromoted
      cases hstmt
      rcases hallowed with hzero | ⟨-, hnone⟩
      · refine absurd ?_ (List.countP_eq_zero.mp hzero row hrow)
        rw [hcond, hpromoted]
        rfl
      · exact hnone
  | delete cond =>
    obtain ⟨rfl, hmatched⟩ := exec_delete h
    refine ⟨hone, fun row hrow _ => hrow, (fun _ _ hstmt => nomatch hstmt), ?_⟩
    rintro cond' hstmt row hrow hcond -
    cases hstmt
    rw [hallowed row hrow] at hcond
    cases hcond

/-- An accepted statement that does what it owes is within the condition. -/
theorem clientGuard_of_right
    (hright : ∀ table', (clientRules groups).exec table stmt = .ok table' →
      AdminsRight table stmt table') : ClientGuard groups table stmt := by
  rintro ⟨table', h⟩
  have hstmt := hright table' h
  cases stmt with
  | insert rows => trivial
  | update cond set =>
    obtain ⟨rfl, hmatched⟩ := exec_update h
    have hone := hstmt.one
    rw [countP_update hmatched] at hone
    by_cases hzero : promotions cond set table = 0
    · exact .inl hzero
    · refine .inr ⟨by omega, fun row hrow => Bool.eq_false_iff.mpr fun hadmin => ?_⟩
      have := List.countP_pos_iff.mpr ⟨row, hrow, hadmin⟩
      omega
  | delete cond =>
    obtain ⟨rfl, hmatched⟩ := exec_delete h
    refine fun row hrow => Bool.eq_false_iff.mpr fun hcond => ?_
    exact hstmt.removed cond rfl row hrow hcond (hmatched row hrow hcond) hrow

/-- **The step lemma.** -/
theorem countP_step (hone : table.countP isAdmin ≤ 1) (hguard : ClientGuard groups table stmt) :
    ((clientRules groups).step table stmt).countP isAdmin ≤ 1 := by
  rcases TableRules.step_cases (clientRules groups) table stmt with h | ⟨-, hsame⟩
  · exact (adminsRight_of_guard hone h hguard).one
  · rw [hsame]
    exact hone

/-- **Exactly the runs without a deletion that finds a row, and without a promotion beside an
admin,** keep what the guards promise. -/
theorem clientRunRight_iff (groups : List String) (stmts : List (Statement ClientTuple)) :
    ClientRunRight groups stmts ↔
      Always (clientRules groups).step (ClientGuard groups) [] stmts := by
  constructor
  · rintro ⟨-, hright⟩
    exact hright.mono fun table stmt => clientGuard_of_right
  · intro hguard
    have hstep : ∀ table stmt, table.countP isAdmin ≤ 1 → ClientGuard groups table stmt →
        (∀ table', (clientRules groups).exec table stmt = .ok table' →
          AdminsRight table stmt table') ∧
        ((clientRules groups).step table stmt).countP isAdmin ≤ 1 :=
      fun table stmt hone h =>
        ⟨fun table' hok => adminsRight_of_guard hone hok h, countP_step hone h⟩
    have hnone : ([] : List ClientTuple).countP isAdmin ≤ 1 := Nat.zero_le 1
    refine ⟨fun before after hsplit => ?_, (always_of_inv hstep hnone hguard).1⟩
    rw [hsplit] at hguard
    exact (always_of_inv hstep hnone hguard.of_append).2

/-- A user is inserted and deleted: the statement is accepted, and the row stays. -/
theorem not_clientRunRight :
    ¬ ∀ (groups : List String) (stmts : List (Statement ClientTuple)),
      ClientRunRight groups stmts := by
  intro h
  let user : ClientTuple := { clientId := "c1" }
  have hright := (h [] [.insert [user], .delete fun _ => true]).2.2.1
  have hdelete := hright [user] (by decide)
  exact hdelete.removed _ rfl user (by decide) rfl (by decide) (by decide)

-- Two updates promote two users, one beside the other.
example : (runFrom (clientRules []).step []
    [.insert [{ clientId := "c1" }, { clientId := "c2" }],
      .update (fun row => row.clientId == "c1") (fun row => { row with clientType := some .Admin }),
      .update (fun row => row.clientId == "c2")
        (fun row => { row with clientType := some .Admin })]).countP isAdmin = 2 := by decide

end Runs

end Notifyr
