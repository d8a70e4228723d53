import Mathlib.Tactic.NormNum
import Notifyr.Server.Middleware

/-!
# Blacklisting and requests

`blacklist_tokens` and `un_blacklist_tokens` (`app/ressources/admin_ressource.py`) over
`AdminService`, and the requests that come in between.

- `blacklistTokens`, `unBlacklistTokens`: the endpoints.
- `BlacklistOp`, `blacklistStep`: the system; calls of the service and of the endpoints, requests,
  the clock, and the job that deletes expired entries.
- `BlacklistRight`: what is asked of one step. A request of a client that is not an admin is
  turned away as blacklisted if and only if an entry lists it now; a call raises where it has
  nothing to do, and otherwise returns and takes effect.
- `BlacklistMeets`: when a step is right; `blacklist_iff` says so of every run.
- `never_turned_away`: nothing ever enters the blacklist cache, so a system that starts without
  one turns nobody away, whoever is listed.
-/

namespace Notifyr

open Theory AdminService JWTAuthMiddleware

/-! ## The endpoints -/

/-- The checks at the start of both endpoints. -/
def checkIdentity : Option ClientORM → Option GroupClientORM → Except SecurityExc Unit
  | none, none => .error .securityIdentityNotResolved
  | some client, some group =>
    if client.group ≠ some group.groupId then
      .error (.groupIdNotMatch (pyStr client.group) group.groupId)
    else .ok ()
  | _, _ => .ok ()

/-- `None if blacklist.client == None else blacklist.client.client_id`, on an entry that was
made. -/
def entryClient (orm : Orm) (entry : BlacklistORM) : Py (Option String) :=
  match entry.listee with
  | .client clientId => .ok (some clientId)
  | .group _ => orm.unfetched none

/-- `BlacklistORMCache`, as the endpoints use it: they give it the object. -/
def storeCache : CacheType SecurityDb SecurityModel :=
  blacklistORMCache fun _ _ => .error .typeError

/-- The end of `blacklist_tokens`: the key has one part. -/
def storeEntry (orm : Orm) (w : SecurityWorld) (entry : BlacklistORM) (time : ℚ) (salt : Int) :
    Except SecurityExc Unit × SecurityWorld :=
  match entryClient orm entry with
  | .error e => (.error (.py e), w)
  | .ok none => (.ok (), w)
  | .ok (some clientId) =>
    match storeCache.store w.db w.redis (.str clientId) (.bool true)
        (.number (.float (time + salt))) with
    | .error e => (.error (.py e), w)
    | .ok redis => (.ok (), { w with redis })

/-- The tables with another blacklist. -/
def withBlacklist (w : SecurityWorld) (table : List BlacklistORM) : SecurityWorld :=
  { w with db := { w.db with blacklist := table } }

/-- `blacklist_tokens`; `salt` is what `randint` drew. -/
def blacklistTokens (orm : Orm) (w : SecurityWorld) (blacklistId : Nat)
    (client : Option ClientORM) (group : Option GroupClientORM) (time : ℚ) (salt : Int) :
    Except SecurityExc Unit × SecurityWorld :=
  match checkIdentity client group with
  | .error e => (.error e, w)
  | .ok () =>
    match blacklist w.db.blacklist w.redis.now blacklistId client group time with
    | .error e => (.error e, w)
    | .ok (entry, table) => storeEntry orm (withBlacklist w table) entry time salt

/-- `un_blacklist_tokens`. The service returns a number of rows, which has no `client`. -/
def unBlacklistTokens (w : SecurityWorld) (entry : Option BlacklistORM)
    (client : Option ClientORM) (group : Option GroupClientORM) :
    Except SecurityExc Unit × SecurityWorld :=
  match entry with
  | some entry =>
    (.ok (), withBlacklist w (w.db.blacklist.filter fun e => e.blacklistId ≠ entry.blacklistId))
  | none =>
    match checkIdentity client group with
    | .error e => (.error e, w)
    | .ok () =>
      match unBlacklist w.db.blacklist client group with
      | .error e => (.error e, w)
      | .ok (_, table) => (.error (.py .attributeError), withBlacklist w table)

/-! ## The system -/

/-- One step. -/
inductive BlacklistOp
  | blacklist (blacklistId : Nat) (client : Option ClientORM) (group : Option GroupClientORM)
      (time : ℚ)
  | unBlacklist (client : Option ClientORM) (group : Option GroupClientORM)
  | blacklistTokens (blacklistId : Nat) (client : Option ClientORM)
      (group : Option GroupClientORM) (time : ℚ) (salt : Int)
  | unBlacklistTokens (entry : Option BlacklistORM) (client : Option ClientORM)
      (group : Option GroupClientORM)
  | request (request : Request)
  | advance (t : ℚ)
  | deleteExpired

/-- The outcome of a call of the service, and the world after it. -/
def serviceCall {α : Type} (w : SecurityWorld) :
    Except SecurityExc (α × List BlacklistORM) → Except SecurityExc Unit × SecurityWorld
  | .error e => (.error e, w)
  | .ok (_, table) => (.ok (), withBlacklist w table)

section

variable (orm : Orm) (isFile : String → Py Bool)

/-- The outcome of a step that is a call, and the world after any step. -/
def outcome (w : SecurityWorld) : BlacklistOp → Except SecurityExc Unit × SecurityWorld
  | .blacklist blacklistId client group time =>
    serviceCall w (blacklist w.db.blacklist w.redis.now blacklistId client group time)
  | .unBlacklist client group => serviceCall w (unBlacklist w.db.blacklist client group)
  | .blacklistTokens blacklistId client group time salt =>
    Notifyr.blacklistTokens orm w blacklistId client group time salt
  | .unBlacklistTokens entry client group => Notifyr.unBlacklistTokens w entry client group
  | .request request => (.ok (), { w with redis := (dispatch orm isFile w request).2 })
  | .advance t => (.ok (), { w with redis := w.redis.advance t })
  | .deleteExpired =>
    (.ok (), withBlacklist w (AdminService.deleteExpired w.db.blacklist w.redis.now))

/-- The step function. -/
def blacklistStep (w : SecurityWorld) (op : BlacklistOp) : SecurityWorld :=
  (outcome orm isFile w op).2

/-! ## What is asked of a step -/

/-- The call names a client or a group, or a client with its group. -/
def Names (client : Option ClientORM) (group : Option GroupClientORM) : Prop :=
  checkIdentity client group = .ok ()

/-- Whom the call names is blacklisted. -/
def NamedListed (w : SecurityWorld) : Option ClientORM → Option GroupClientORM → Prop
  | some client, none => Listed w.db.blacklist w.redis.now client.clientId client.group
  | _, some group => ListedAs w.db.blacklist w.redis.now (.group group.groupId)
  | none, none => False

/-- A client of the table is blacklisted. -/
def ClientListed (w : SecurityWorld) (clientId : String) : Prop :=
  ∃ row, w.db.clients.get? clientId = some row ∧
    Listed w.db.blacklist w.redis.now clientId row.group

/-- A call with nothing to do raises and leaves the tables; any other returns, and what it is
for holds afterwards. -/
def CallRight (w : SecurityWorld) (result : Except SecurityExc Unit × SecurityWorld)
    (done : SecurityWorld → Prop) : Prop :=
  (done w → (∃ e, result.1 = .error e) ∧ result.2.db.blacklist = w.db.blacklist) ∧
  (¬ done w → result.1 = .ok () ∧ done result.2)

/-- What is asked of a step. -/
def BlacklistRight (w : SecurityWorld) (op : BlacklistOp) : Prop :=
  let result := outcome orm isFile w op
  match op with
  | .blacklist _ client group _ | .blacklistTokens _ client group _ _ =>
    Names client group → CallRight w result fun w => NamedListed w client group
  | .unBlacklist client group | .unBlacklistTokens none client group =>
    Names client group → CallRight w result fun w => ¬ NamedListed w client group
  | .unBlacklistTokens (some entry) _ _ =>
    result.1 = .ok () ∧ ∀ e ∈ result.2.db.blacklist, e.blacklistId ≠ entry.blacklistId
  | .request request =>
    ∀ token client redis, authenticate orm w request = (.ok (token, client), redis) →
      client.clientType ≠ .Admin →
      ((checkBlacklist orm { w with redis } token client).1 = .error clientIsBlacklisted ↔
        ClientListed w token.clientId)
  | .advance _ | .deleteExpired => True

/-! ## When a step is right -/

/-- There is an entry for whom the call names, expired or not. -/
def NamedEntry (w : SecurityWorld) : Option ClientORM → Option GroupClientORM → Prop
  | some client, none => (standing w.db.blacklist client).isSome
  | _, some group => (entryOf w.db.blacklist (.group group.groupId)).isSome
  | none, none => False

/-- There is an entry that the call deletes. -/
def OwnEntry (w : SecurityWorld) : Option ClientORM → Option GroupClientORM → Prop
  | some client, none => (entryOf w.db.blacklist (.client client.clientId)).isSome
  | _, some group => (entryOf w.db.blacklist (.group group.groupId)).isSome
  | none, none => False

/-- The group of a client that the call names alone is blacklisted. -/
def GroupListed (w : SecurityWorld) : Option ClientORM → Option GroupClientORM → Prop
  | some client, none =>
    ∃ groupId, client.group = some groupId ∧
      ListedAs w.db.blacklist w.redis.now (.group groupId)
  | _, _ => False

/-- The cache holds a true value for the client of the token. -/
def Recalled (w : SecurityWorld) (token : TokenPermission) : Prop :=
  ∃ v, storeCache.get orm.loads w.redis token.key = .ok v ∧ truth v = true

/-- The steps on which the code is right. -/
def BlacklistMeets (w : SecurityWorld) : BlacklistOp → Prop
  | .blacklist _ client group time =>
    Names client group →
      (NamedEntry w client group → NamedListed w client group) ∧
      (¬ NamedEntry w client group → 0 < time)
  | .unBlacklist client group =>
    Names client group → NamedEntry w client group →
      NamedListed w client group ∧ ¬ GroupListed w client group
  | .blacklistTokens _ client group time _ =>
    Names client group →
      (NamedEntry w client group → NamedListed w client group) ∧
      (¬ NamedEntry w client group → 0 < time ∧ group.isSome ∧ orm.unfetched none = .ok none)
  | .unBlacklistTokens none client group =>
    Names client group → ¬ NamedListed w client group ∧ ¬ OwnEntry w client group
  | .unBlacklistTokens (some _) _ _ => True
  | .request request =>
    ∀ token client redis, authenticate orm w request = (.ok (token, client), redis) →
      client.clientType ≠ .Admin → (Recalled orm w token ↔ ClientListed w token.clientId)
  | .advance _ | .deleteExpired => True

/-! ## The calls -/

variable {w w' : SecurityWorld} {client : Option ClientORM} {group : Option GroupClientORM}
  {done : SecurityWorld → Prop}

omit orm isFile in
/-- When a call that raises is right. -/
theorem callRight_error {e : SecurityExc} :
    CallRight w (.error e, w') done ↔ done w ∧ w'.db.blacklist = w.db.blacklist := by
  constructor
  · rintro ⟨hdone, hundone⟩
    have hw : done w := by_contra fun h => by cases (hundone h).1
    exact ⟨hw, (hdone hw).2⟩
  · rintro ⟨hw, hsame⟩
    exact ⟨fun _ => ⟨⟨e, rfl⟩, hsame⟩, fun h => absurd hw h⟩

omit orm isFile in
/-- When a call that returns is right. -/
theorem callRight_ok : CallRight w (.ok (), w') done ↔ ¬ done w ∧ done w' := by
  constructor
  · rintro ⟨hdone, hundone⟩
    have hw : ¬ done w := fun h => by
      obtain ⟨⟨e, he⟩, -⟩ := hdone h
      cases he
    exact ⟨hw, (hundone hw).2⟩
  · rintro ⟨hw, hw'⟩
    exact ⟨fun h => absurd h hw, fun _ => ⟨rfl, hw'⟩⟩

omit orm isFile in
/-- Whoever is blacklisted has an entry. -/
theorem NamedListed.namedEntry (h : NamedListed w client group) : NamedEntry w client group := by
  match client, group, h with
  | some client, none, h => exact Listed.standing h
  | some _, some _, h | none, some _, h => exact ListedAs.entryOf h

omit orm isFile in
theorem OwnEntry.namedEntry (h : OwnEntry w client group) : NamedEntry w client group := by
  match client, group, h with
  | some client, none, h => exact standing_isSome_iff.mpr (.inl h)
  | some _, some _, h | none, some _, h => exact h

omit orm isFile in
/-- What `blacklist` does: with an entry it raises; without one it makes one, about the group if
there is one, that lists whom the call names if its time is positive. -/
theorem blacklist_spec (hnames : Names client group) (blacklistId : Nat) (time : ℚ) :
    (NamedEntry w client group ∧
      ∃ e, blacklist w.db.blacklist w.redis.now blacklistId client group time = .error e) ∨
    (¬ NamedEntry w client group ∧ ∃ entry,
      blacklist w.db.blacklist w.redis.now blacklistId client group time =
        .ok (entry, w.db.blacklist ++ [entry]) ∧
      (NamedListed (withBlacklist w (w.db.blacklist ++ [entry])) client group ↔ 0 < time) ∧
      (group.isSome ↔ ∃ groupId, entry.listee = .group groupId)) := by
  have hgroup : ∀ group' : GroupClientORM, ¬ NamedEntry w none (some group') →
      (ListedAs (w.db.blacklist ++
        [newEntry blacklistId (.group group'.groupId) w.redis.now time]) w.redis.now
        (.group group'.groupId) ↔ 0 < time) := by
    intro group' hentry
    rw [listedAs_append, or_iff_right fun h => hentry (ListedAs.entryOf h), and_iff_right rfl]
  match client, group, hnames with
  | some client, none, _ =>
    by_cases hentry : (standing w.db.blacklist client).isSome
    · refine .inl ⟨hentry, .alreadyBlacklistedClient false, ?_⟩
      rw [← isBlacklisted_fst] at hentry
      exact if_pos hentry
    · refine .inr ⟨hentry, newEntry blacklistId (.client client.clientId) w.redis.now time,
        ?_, ?_, iff_of_false nofun nofun⟩
      · rw [← isBlacklisted_fst] at hentry
        exact if_neg hentry
      · have hnot : ¬ Listed w.db.blacklist w.redis.now client.clientId client.group :=
          fun h => hentry h.standing
        show Listed (w.db.blacklist ++ _) w.redis.now client.clientId client.group ↔ 0 < time
        unfold Listed at hnot ⊢
        simp only [listedAs_append]
        constructor
        · rintro ((h | ⟨-, h⟩) | ⟨groupId, hg, h | ⟨h, -⟩⟩)
          · exact absurd (.inl h) hnot
          · exact h
          · exact absurd (.inr ⟨groupId, hg, h⟩) hnot
          · cases h
        · exact fun h => .inl (.inr ⟨trivial, h⟩)
  | some _, some group, _ | none, some group, _ =>
    by_cases hentry : (entryOf w.db.blacklist (.group group.groupId)).isSome
    · exact .inl ⟨hentry, .groupAlreadyBlacklisted group.groupId group.groupName false,
        if_pos hentry⟩
    · exact .inr ⟨hentry, newEntry blacklistId (.group group.groupId) w.redis.now time,
        if_neg hentry, hgroup group hentry, iff_of_true rfl ⟨group.groupId, rfl⟩⟩

omit orm isFile in
/-- What `un_blacklist` does: without an entry it raises; with one it deletes the entries of
whom the call names, and of a client not those of its group. -/
theorem unBlacklist_spec (hnames : Names client group) :
    (¬ NamedEntry w client group ∧
      ∃ e, unBlacklist w.db.blacklist client group = .error e) ∨
    (NamedEntry w client group ∧ ∃ n table,
      unBlacklist w.db.blacklist client group = .ok (n, table) ∧
      (NamedListed (withBlacklist w table) client group ↔ GroupListed w client group) ∧
      (table = w.db.blacklist ↔ ¬ OwnEntry w client group)) := by
  have hsame : ∀ listee, deleteEntries w.db.blacklist listee = w.db.blacklist ↔
      ¬ (entryOf w.db.blacklist listee).isSome := by
    intro listee
    rw [entryOf_isSome_iff]
    unfold deleteEntries
    rw [List.filter_eq_self]
    simp only [decide_eq_true_eq, not_exists, not_and, ne_eq]
  match client, group, hnames with
  | some client, none, _ =>
    by_cases hentry : (standing w.db.blacklist client).isSome
    · refine .inr ⟨hentry, w.db.blacklist.countP fun e => e.listee = .client client.clientId,
        deleteEntries w.db.blacklist (.client client.clientId), ?_, ?_, hsame _⟩
      · rw [← isBlacklisted_fst] at hentry
        simp only [unBlacklist, hentry]
        rfl
      · show Listed (deleteEntries _ _) w.redis.now client.clientId client.group ↔ _
        unfold Listed
        simp only [listedAs_deleteEntries, ne_eq, not_true_eq_false, false_and, false_or,
          reduceCtorEq, not_false_eq_true, true_and]
        rfl
    · refine .inl ⟨hentry, .alreadyBlacklistedClient true, ?_⟩
      rw [← isBlacklisted_fst, Bool.not_eq_true] at hentry
      simp only [unBlacklist, hentry]
      rfl
  | some _, some group, _ | none, some group, _ =>
    by_cases hentry : (entryOf w.db.blacklist (.group group.groupId)).isSome
    · refine .inr ⟨hentry, w.db.blacklist.countP fun e => e.listee = .group group.groupId,
        deleteEntries w.db.blacklist (.group group.groupId), ?_, ?_, hsame _⟩
      · rw [← Option.not_isNone, Bool.not_eq_true'] at hentry
        simp only [unBlacklist, hentry]
        rfl
      · refine iff_of_false (fun h => ?_) id
        exact (listedAs_deleteEntries.mp h).1 rfl
    · refine .inl ⟨hentry, .groupAlreadyBlacklisted group.groupId group.groupName true, ?_⟩
      rw [Bool.not_eq_true, Option.isSome_eq_false_iff] at hentry
      simp only [unBlacklist, hentry]
      rfl

/-! ## The steps -/

/-- When a call of the service or of an endpoint that ends like one is right. -/
theorem blacklist_right_iff (blacklistId : Nat) (time : ℚ) :
    BlacklistRight orm isFile w (.blacklist blacklistId client group time) ↔
      BlacklistMeets orm w (.blacklist blacklistId client group time) := by
  refine forall_congr' fun hnames => ?_
  show CallRight w (serviceCall w _) _ ↔ _
  rcases blacklist_spec (w := w) hnames blacklistId time with
    ⟨hentry, e, hcall⟩ | ⟨hentry, entry, hcall, hlisted, -⟩
  · rw [hcall]
    simp only [serviceCall, callRight_error, hentry, and_true, true_implies, not_true_eq_false,
      false_implies]
  · rw [hcall]
    simp only [serviceCall, callRight_ok, hlisted, hentry, false_implies, not_false_eq_true,
      true_implies, true_and]
    exact and_iff_right fun h => hentry h.namedEntry

theorem unBlacklist_right_iff :
    BlacklistRight orm isFile w (.unBlacklist client group) ↔
      BlacklistMeets orm w (.unBlacklist client group) := by
  refine forall_congr' fun hnames => ?_
  show CallRight w (serviceCall w _) _ ↔ _
  rcases unBlacklist_spec (w := w) hnames with
    ⟨hentry, e, hcall⟩ | ⟨hentry, n, table, hcall, hlisted, -⟩
  · rw [hcall]
    simp only [serviceCall, callRight_error, hentry, and_true, false_implies, iff_true]
    exact fun h => hentry h.namedEntry
  · rw [hcall]
    simp only [serviceCall, callRight_ok, hlisted, hentry, not_not, true_implies]

theorem blacklistTokens_right_iff (blacklistId : Nat) (time : ℚ) (salt : Int) :
    BlacklistRight orm isFile w (.blacklistTokens blacklistId client group time salt) ↔
      BlacklistMeets orm w (.blacklistTokens blacklistId client group time salt) := by
  refine forall_congr' fun hnames => ?_
  show CallRight w (Notifyr.blacklistTokens orm w blacklistId client group time salt) _ ↔ _
  have hchecked : checkIdentity client group = .ok () := hnames
  unfold Notifyr.blacklistTokens
  simp only [hchecked]
  rcases blacklist_spec (w := w) hnames blacklistId time with
    ⟨hentry, e, hcall⟩ | ⟨hentry, entry, hcall, hlisted, hgroup⟩
  · simp only [hcall, callRight_error, hentry, and_true, true_implies, not_true_eq_false,
      false_implies]
  · have hnot : ¬ NamedListed w client group := fun h => hentry h.namedEntry
    simp only [hcall, hentry, false_implies, not_false_eq_true, true_implies, true_and, hgroup]
    unfold storeEntry entryClient
    cases hlistee : entry.listee with
    | client clientId =>
      -- one part is no key
      refine iff_of_false (fun h => hnot (callRight_error.mp h).1) ?_
      rintro ⟨-, ⟨groupId, h⟩, -⟩
      cases h
    | group groupId =>
      cases hunfetched : orm.unfetched none with
      | error e =>
        refine iff_of_false (fun h => hnot (callRight_error.mp h).1) ?_
        rintro ⟨-, -, h⟩
        cases h
      | ok clientId =>
        cases clientId with
        | some clientId =>
          refine iff_of_false (fun h => hnot (callRight_error.mp h).1) ?_
          rintro ⟨-, -, h⟩
          cases h
        | none =>
          simp only [callRight_ok, hnot, hlisted, not_false_eq_true, true_and]
          exact (and_iff_left ⟨⟨groupId, rfl⟩, trivial⟩).symm

theorem unBlacklistTokens_right_iff (entry : Option BlacklistORM) :
    BlacklistRight orm isFile w (.unBlacklistTokens entry client group) ↔
      BlacklistMeets orm w (.unBlacklistTokens entry client group) := by
  cases entry with
  | some entry =>
    refine iff_of_true ⟨rfl, fun e he => ?_⟩ trivial
    exact of_decide_eq_true (List.mem_filter.mp he).2
  | none =>
    refine forall_congr' fun hnames => ?_
    show CallRight w (Notifyr.unBlacklistTokens w none client group) _ ↔ _
    have hchecked : checkIdentity client group = .ok () := hnames
    unfold Notifyr.unBlacklistTokens
    simp only [hchecked]
    rcases unBlacklist_spec (w := w) hnames with
      ⟨hentry, e, hcall⟩ | ⟨-, n, table, hcall, -, hsame⟩
    · simp only [hcall, callRight_error, and_true]
      exact iff_of_true (fun h => hentry h.namedEntry)
        ⟨fun h => hentry h.namedEntry, fun h => hentry (OwnEntry.namedEntry h)⟩
    · simp only [hcall, callRight_error]
      exact and_congr_right' hsame

/-- Admission leaves what the cache holds of the blacklist. -/
theorem storeCache_get_of_authenticate {request : Request} {token : TokenPermission}
    {client : ClientORM} {redis : CacheDb SecurityModel}
    (h : authenticate orm w request = (.ok (token, client), redis)) :
    storeCache.get orm.loads redis token.key = storeCache.get orm.loads w.redis token.key := by
  obtain ⟨k, hk⟩ := exists_key OrmCacheName.blacklist.keys rfl token
  have hsame := authenticate_lookup? orm w request (n := .blacklist) nofun hk
  rw [h] at hsame
  exact CacheType.get_congr (T := storeCache) hk hsame

theorem request_right_iff (request : Request) :
    BlacklistRight orm isFile w (.request request) ↔ BlacklistMeets orm w (.request request) := by
  refine forall_congr' fun token => forall_congr' fun client => forall_congr' fun redis =>
    forall_congr' fun hauth => forall_congr' fun htype => ?_
  rw [checkBlacklist_iff htype]
  show ((∃ v, storeCache.get orm.loads redis token.key = .ok v ∧ truth v = true) ↔ _) ↔ _
  rw [storeCache_get_of_authenticate orm hauth]
  rfl

/-- **The step lemma.** -/
theorem blacklist_step_iff (op : BlacklistOp) :
    BlacklistRight orm isFile w op ↔ BlacklistMeets orm w op := by
  cases op with
  | blacklist blacklistId client group time =>
    exact blacklist_right_iff orm isFile blacklistId time
  | unBlacklist client group => exact unBlacklist_right_iff orm isFile
  | blacklistTokens blacklistId client group time salt =>
    exact blacklistTokens_right_iff orm isFile blacklistId time salt
  | unBlacklistTokens entry client group => exact unBlacklistTokens_right_iff orm isFile entry
  | request request => exact request_right_iff orm isFile request
  | advance t => exact Iff.rfl
  | deleteExpired => exact Iff.rfl

/-- In every run the steps are right if and only if they meet the condition. -/
theorem blacklist_iff (w : SecurityWorld) (ops : List BlacklistOp) :
    Always (blacklistStep orm isFile) (BlacklistRight orm isFile) w ops ↔
      Always (blacklistStep orm isFile) (BlacklistMeets orm) w ops :=
  ⟨Always.mono fun _ op => (blacklist_step_iff orm isFile op).mp,
    Always.mono fun _ op => (blacklist_step_iff orm isFile op).mpr⟩

/-! ## The blacklist cache stays empty -/

/-- There is nothing in the cache under a key of the blacklist. -/
def NothingRecalled (w : SecurityWorld) : Prop :=
  ∀ key k, OrmCacheName.blacklist.keys.builder key = .ok k → w.redis.lookup? k = none

/-- `Store` with one part for a key stores nothing. -/
theorem storeEntry_redis (entry : BlacklistORM) (time : ℚ) (salt : Int) :
    (storeEntry orm w entry time salt).2 = w := by
  unfold storeEntry
  split
  · rfl
  · rfl
  · rfl

omit isFile in
theorem blacklistTokens_redis (blacklistId : Nat) (time : ℚ) (salt : Int) :
    (Notifyr.blacklistTokens orm w blacklistId client group time salt).2.redis = w.redis := by
  unfold Notifyr.blacklistTokens
  split
  · rfl
  · split
    · rfl
    · rw [storeEntry_redis]
      rfl

omit orm isFile in
theorem unBlacklistTokens_redis (entry : Option BlacklistORM) :
    (Notifyr.unBlacklistTokens w entry client group).2.redis = w.redis := by
  unfold Notifyr.unBlacklistTokens
  split
  · rfl
  · split
    · rfl
    · split <;> rfl

omit orm isFile in
theorem serviceCall_redis {α : Type} (result : Except SecurityExc (α × List BlacklistORM)) :
    (serviceCall w result).2.redis = w.redis := by
  cases result with
  | error e => rfl
  | ok r => rfl

/-- No step puts anything there. -/
theorem NothingRecalled.step (h : NothingRecalled w) (op : BlacklistOp) :
    NothingRecalled (blacklistStep orm isFile w op) := by
  intro key k hk
  have hw := h key k hk
  cases op with
  | blacklist id client group time =>
    rw [blacklistStep, outcome, serviceCall_redis]
    exact hw
  | unBlacklist client group =>
    rw [blacklistStep, outcome, serviceCall_redis]
    exact hw
  | blacklistTokens id client group time salt =>
    rw [blacklistStep, outcome, blacklistTokens_redis]
    exact hw
  | unBlacklistTokens entry client group =>
    rw [blacklistStep, outcome, unBlacklistTokens_redis]
    exact hw
  | request request =>
    exact (dispatch_lookup? (n := .blacklist) request nofun nofun hk).trans hw
  | advance t =>
    rw [Option.eq_none_iff_forall_not_mem]
    intro e he
    rw [TimedStore.lookup?_advance he] at hw
    cases hw
  | deleteExpired => exact hw

/-- Without a verdict in the cache to begin with, no request of any run is turned away as that
of a blacklisted client. -/
theorem never_turned_away (hw : NothingRecalled w) (ops : List BlacklistOp) :
    Always (blacklistStep orm isFile) (fun w op => ∀ request token client redis,
      op = .request request → authenticate orm w request = (.ok (token, client), redis) →
      (checkBlacklist orm { w with redis } token client).1 ≠ .error clientIsBlacklisted) w ops := by
  refine (always_of_inv (I := NothingRecalled) (C := fun _ _ => True) ?_ hw ?_).1
  · intro w op hw _
    refine ⟨?_, hw.step orm isFile op⟩
    rintro request token client redis - hauth hturned
    by_cases htype : client.clientType = .Admin
    · unfold checkBlacklist at hturned
      rw [if_pos htype] at hturned
      cases hturned
    · obtain ⟨v, hv, htruth⟩ := (checkBlacklist_iff htype).mp hturned
      obtain ⟨k, hk⟩ := exists_key OrmCacheName.blacklist.keys rfl token
      have hlookup := authenticate_lookup? orm w request (n := .blacklist) nofun hk
      rw [hauth, hw token.key k hk] at hlookup
      have hget : redis.get? k = none := TimedStore.get?_eq_none_iff.mpr hlookup
      rw [CacheType.get_eq (T := blacklistCache client) hk] at hv
      simp only [hget] at hv
      cases hv
      cases htruth
  · exact always_iff.mpr fun _ _ _ _ => trivial

end

/-! ## Inputs -/

/-- A client of the group of `someKey`. -/
def someClient : ClientORM where
  clientName := none
  clientDescription := ""
  clientScope := .Free
  issuedFor := ""
  group := some "group"
  password := ""
  passwordSalt := ""
  canLogin := false
  authenticated := true
  clientId := "client"
  clientUsername := "client"
  clientType := .User
  authType := .ACCESS_TOKEN
  groupFetched := false

/-- Tortoise, with an awaitable for what was not fetched. -/
def someOrm : Orm where
  unfetched _ := .error .attributeError
  constructClient _ := .ok someClient
  loads _ := none
  order := ⟨fun l => l, fun l => .refl l⟩

/-- Nobody is blacklisted; the client is in its table, and in the cache. -/
def someWorld : SecurityWorld where
  db := ⟨Dict.empty.set "client" someClient, Dict.empty.set "group" ⟨"group", "group"⟩, [],
    Dict.empty, []⟩
  redis := (TimedStore.empty 0).put "orm-group/group/client/client"
    ⟨.dumped (.dict (clientJson someClient)), none⟩

/-- A request of the client. -/
def someRequest : Request := ⟨.ok ⟨"client", some "group", none⟩, "127.0.0.1"⟩

theorem authenticate_someRequest (table : List BlacklistORM) :
    authenticate someOrm (withBlacklist someWorld table) someRequest =
      (.ok (⟨"client", some "group", none⟩, someClient), someWorld.redis) := by
  rfl

/-- The request of a client blacklisted for an hour is not turned away as such, and the endpoint
raises on a client that is not blacklisted. -/
theorem not_blacklist_right :
    ¬ Always (blacklistStep someOrm fun _ => .ok false)
        (BlacklistRight someOrm fun _ => .ok false) someWorld
        [.blacklist 0 (some someClient) none 3600, .request someRequest] ∧
    ¬ Always (blacklistStep someOrm fun _ => .ok false)
        (BlacklistRight someOrm fun _ => .ok false) someWorld
        [.blacklistTokens 0 (some someClient) none 3600 15] := by
  constructor
  · rintro ⟨-, hright, -⟩
    have hstep : blacklistStep someOrm (fun _ => .ok false) someWorld
        (.blacklist 0 (some someClient) none 3600) =
        withBlacklist someWorld [newEntry 0 (.client "client") 0 3600] := rfl
    have hnow : (0 : ℚ) < 0 + 3600 := by norm_num
    have htype : someClient.clientType ≠ .Admin := by decide
    rw [hstep] at hright
    have hturned := (hright _ _ _ (authenticate_someRequest _) htype).mpr
      ⟨someClient, Dict.get?_set_self _ _ _, .inl ⟨_, List.mem_cons_self, rfl, hnow⟩⟩
    obtain ⟨v, hv, htruth⟩ := (checkBlacklist_iff htype).mp hturned
    have hget : (blacklistCache someClient).get someOrm.loads someWorld.redis
        (.list ["group", "client"]) = .ok .none := rfl
    cases hget.symm.trans hv
    cases htruth
  · rintro ⟨hright, -⟩
    obtain ⟨hok, -⟩ := (hright rfl).2 fun h => by
      rcases h with ⟨e, he, -⟩ | ⟨groupId, -, e, he, -⟩ <;> cases he
    cases hok

end Notifyr
