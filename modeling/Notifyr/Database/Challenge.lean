import Mathlib.Data.List.Forall2
import Notifyr.Auth.Security
import Notifyr.Theory.Runs
import Notifyr.Theory.Triggers

/-!
# Rotation of challenges

The table `Challenge` with the trigger `guard_challenge_expiry`, and the functions that renew its
challenges (`database/security.sql`). An instant is a number of microseconds; an arithmetic
expression with a null is null. The draws of `secure_random_string` are all different, so that no
statement violates `UNIQUE`.

- `guardChallengeExpiry`, `challengeRules`: the trigger, and the rules of the table.
- `updateChallenge`, `rawRevokeChallenges`, `rawRevokeAuthToken`: the functions.
- `setChallenge_iff`, `rawRevoke_iff`: when they go through, and what they leave.
- `ChallengeCallRight`: what a call owes; `rotationsRight_iff`: the runs of calls in which every
  call does.
-/

namespace Notifyr

open Theory

/-- The challenges of a row. -/
inductive Half
  | auth
  | refresh
  deriving DecidableEq

/-- The columns of one challenge of a row. -/
structure ChallengeColumns where
  challenge : String
  createdAt : Option ℤ
  expiredAt : Option ℤ
  deriving DecidableEq

/-- A row of `Challenge`. -/
structure ChallengeTuple where
  clientId : String
  auth : ChallengeColumns
  refresh : ChallengeColumns
  deriving DecidableEq

/-- What `secure_random_string` gives for the challenges of a client. -/
abbrev Draws := Half → String → String

def Half.other : Half → Half
  | .auth => .refresh
  | .refresh => .auth

namespace ChallengeColumns

variable (now : ℤ) (value : String) (c : ChallengeColumns)

/-- `expired_at - created_at`. -/
def lifetime : Option ℤ := c.expiredAt.bind fun expired => c.createdAt.map (expired - ·)

/-- `expired_at IS NOT NULL AND expired_at <= NOW()`. -/
def expired : Bool := c.expiredAt.any (decide <| · ≤ now)

/-- `NOW() + (expired_at - created_at)`. -/
def nextExpiry : Option ℤ := c.lifetime.map (now + ·)

/-- The assignments of `set_auth_challenge` and `set_refresh_challenge`: every expression reads the
columns as they were. -/
def rotate : ChallengeColumns := ⟨value, some now, c.nextExpiry now⟩

/-- The first assignments of `raw_revoke_challenges` and `raw_revoke_auth_token`. -/
def renew : ChallengeColumns := { c with challenge := value, createdAt := some now }

/-- Their second assignments. -/
def extend : ChallengeColumns := { c with expiredAt := c.nextExpiry now }

end ChallengeColumns

namespace ChallengeTuple

/-- The columns of a challenge. -/
def half (row : ChallengeTuple) : Half → ChallengeColumns
  | .auth => row.auth
  | .refresh => row.refresh

/-- The columns of some of the challenges are changed. -/
def mapHalves (halves : List Half) (f : Half → ChallengeColumns → ChallengeColumns)
    (row : ChallengeTuple) : ChallengeTuple where
  clientId := row.clientId
  auth := if Half.auth ∈ halves then f .auth row.auth else row.auth
  refresh := if Half.refresh ∈ halves then f .refresh row.refresh else row.refresh

end ChallengeTuple

/-- `guard_challenge_expiry`; `authType` is the `auth_type` of a client, if it has one. -/
def guardChallengeExpiry (authType : String → Option AuthType) (now : ℤ) (new : ChallengeTuple) :
    RowVerdict ChallengeTuple :=
  match authType new.clientId with
  | some .ACCESS_TOKEN =>
    match new.auth.expiredAt, new.refresh.expiredAt with
    | some expiredAuth, some expiredRefresh =>
      if expiredAuth ≤ now then
        .raise "expired_at_auth cannot be in the past for ACCESS_TOKEN clients"
      else if expiredRefresh ≤ now then
        .raise "expired_at_refresh cannot be in the past for ACCESS_TOKEN clients"
      else .ofRow (some new)
    | _, _ => .raise "expired_at_auth/refresh cannot be null"
  | some .API_TOKEN =>
    if new.auth.expiredAt.isSome || new.refresh.expiredAt.isSome then
      .raise "expired_at_auth and expired_at_refresh must be NULL for API_TOKEN clients"
    else .ofRow (some new)
  | none => .ofRow (some new)

/-- `Challenge` has a trigger before insertions and updates. -/
def challengeRules (authType : String → Option AuthType) (now : ℤ) : TableRules ChallengeTuple where
  beforeInsert _ new := guardChallengeExpiry authType now new
  beforeUpdate _ _ new := guardChallengeExpiry authType now new
  beforeDelete _ old := .proceed old
  check _ _ := .ok ()

section Functions

variable (authType : String → Option AuthType) (now : ℤ) (draws : Draws)
  (table : List ChallengeTuple)

/-- `set_auth_challenge` and `set_refresh_challenge`. -/
def setChallenge (half : Half) : Except String (List ChallengeTuple) :=
  (challengeRules authType now).exec table (.update (fun row => (row.half half).expired now)
    fun row => row.mapHalves [half] fun h c => c.rotate now (draws h row.clientId))

/-- `set_auth_challenge`. -/
def setAuthChallenge : Except String (List ChallengeTuple) :=
  setChallenge authType now draws table .auth

/-- `set_refresh_challenge`. -/
def setRefreshChallenge : Except String (List ChallengeTuple) :=
  setChallenge authType now draws table .refresh

/-- `update_challenge`. -/
def updateChallenge : Except String (List ChallengeTuple) := do
  let table ← setAuthChallenge authType now draws table
  setRefreshChallenge authType now draws table

/-- `raw_revoke_challenges` and `raw_revoke_auth_token`: two statements. -/
def rawRevoke (halves : List Half) (cid : String) : Except String (List ChallengeTuple) := do
  let table ← (challengeRules authType now).exec table (.update (fun row => row.clientId == cid)
    fun row => row.mapHalves halves fun h c => c.renew now (draws h row.clientId))
  (challengeRules authType now).exec table (.update
    (fun row => row.clientId == cid && halves.all fun h => (row.half h).expiredAt.isSome)
    fun row => row.mapHalves halves fun _ c => c.extend now)

/-- `raw_revoke_challenges`. -/
def rawRevokeChallenges (cid : String) : Except String (List ChallengeTuple) :=
  rawRevoke authType now draws table [.auth, .refresh] cid

/-- `raw_revoke_auth_token`. -/
def rawRevokeAuthToken (cid : String) : Except String (List ChallengeTuple) :=
  rawRevoke authType now draws table [.auth] cid

end Functions

/-- A call of one of the functions, in a transaction of its own. -/
inductive ChallengeCall
  | updateChallenge (now : ℤ) (draws : Draws)
  | rawRevokeChallenges (cid : String) (now : ℤ) (draws : Draws)
  | rawRevokeAuthToken (cid : String) (now : ℤ) (draws : Draws)

/-- What a call leaves, or the exception that it raises. -/
def ChallengeCall.exec (authType : String → Option AuthType) (table : List ChallengeTuple) :
    ChallengeCall → Except String (List ChallengeTuple)
  | updateChallenge now draws => Notifyr.updateChallenge authType now draws table
  | rawRevokeChallenges cid now draws => Notifyr.rawRevokeChallenges authType now draws table cid
  | rawRevokeAuthToken cid now draws => Notifyr.rawRevokeAuthToken authType now draws table cid

/-- A call that raises leaves the table as it is. -/
def challengeStep (authType : String → Option AuthType) (table : List ChallengeTuple)
    (call : ChallengeCall) : List ChallengeTuple :=
  match call.exec authType table with
  | .ok table' => table'
  | .error _ => table

/-! ## The property and the condition -/

/-- A challenge whose expiry has passed is rotated, and lives as long from now on as it did. -/
structure Rotated (now : ℤ) (value : String) (old new : ChallengeColumns) : Prop where
  due : old.expired now = true → new.challenge = value ∧ new.createdAt = some now ∧
    new.expiredAt = old.lifetime.map (now + ·)
  other : old.expired now = false → new = old

/-- The lifetimes of the challenges of a row. -/
def ChallengeTuple.lifetimes (row : ChallengeTuple) : Option ℤ × Option ℤ :=
  (row.auth.lifetime, row.refresh.lifetime)

/-- What a call owes: `update_challenge` goes through and rotates exactly what has expired, and the
others keep the lifetimes. -/
def ChallengeCallRight (authType : String → Option AuthType) (table : List ChallengeTuple) :
    ChallengeCall → Prop
  | .updateChallenge now draws => ∃ table', updateChallenge authType now draws table = .ok table' ∧
      List.Forall₂ (fun row row' => row'.clientId = row.clientId ∧
        ∀ h, Rotated now (draws h row.clientId) (row.half h) (row'.half h)) table table'
  | .rawRevokeChallenges cid now draws => ∀ table',
      rawRevokeChallenges authType now draws table cid = .ok table' →
        table'.map ChallengeTuple.lifetimes = table.map ChallengeTuple.lifetimes
  | .rawRevokeAuthToken cid now draws => ∀ table',
      rawRevokeAuthToken authType now draws table cid = .ok table' →
        table'.map ChallengeTuple.lifetimes = table.map ChallengeTuple.lifetimes

/-- Every call of a run does what it owes, and the lifetimes stay what they were. -/
def RotationsRight (authType : String → Option AuthType) (table : List ChallengeTuple)
    (calls : List ChallengeCall) : Prop :=
  Always (challengeStep authType) (ChallengeCallRight authType) table calls ∧
    ∀ before after, calls = before ++ after →
      (runFrom (challengeStep authType) table before).map ChallengeTuple.lifetimes =
        table.map ChallengeTuple.lifetimes

/-- What the trigger wants of an expiry, for a client of an authentication type. -/
def ExpiryAllowed (now : ℤ) (expiry : Option ℤ) : Option AuthType → Prop
  | some .ACCESS_TOKEN => ∃ e, expiry = some e ∧ now < e
  | some .API_TOKEN => expiry = none
  | none => True

/-- The condition on a row for `update_challenge`: when a challenge has expired, the other has an
expiry that is allowed, and it has a lifetime that gives it one. -/
def MayRotate (authType : String → Option AuthType) (now : ℤ) (row : ChallengeTuple) : Prop :=
  ∀ h, (row.half h).expired now = true →
    ExpiryAllowed now ((row.half h.other).expiredAt) (authType row.clientId) ∧
      match authType row.clientId with
      | some .ACCESS_TOKEN => ∃ l, (row.half h).lifetime = some l ∧ 0 < l
      | some .API_TOKEN => (row.half h).lifetime = none
      | none => True

/-- The condition on the table for the others: the trigger refuses a row of the client, or all its
challenges that are renewed have no expiry or were created at this instant. -/
def MayRevoke (authType : String → Option AuthType) (now : ℤ) (halves : List Half) (cid : String)
    (table : List ChallengeTuple) : Prop :=
  (∃ row ∈ table, row.clientId = cid ∧
    ∃ h, ¬ ExpiryAllowed now (row.half h).expiredAt (authType cid)) ∨
    ∀ row ∈ table, row.clientId = cid → ∀ h ∈ halves,
      (row.half h).expiredAt = none ∨ (row.half h).createdAt = some now

/-- The condition on a call. -/
def CallGuard (authType : String → Option AuthType) (table : List ChallengeTuple) :
    ChallengeCall → Prop
  | .updateChallenge now _ => ∀ row ∈ table, MayRotate authType now row
  | .rawRevokeChallenges cid now _ => MayRevoke authType now [.auth, .refresh] cid table
  | .rawRevokeAuthToken cid now _ => MayRevoke authType now [.auth] cid table

/-! ## The trigger -/

section Trigger

variable {authType : String → Option AuthType} {now : ℤ}

theorem half_mapHalves (halves : List Half) (f : Half → ChallengeColumns → ChallengeColumns)
    (row : ChallengeTuple) (h : Half) :
    (row.mapHalves halves f).half h = if h ∈ halves then f h (row.half h) else row.half h := by
  cases h <;> rfl

/-- The trigger lets a row through as it is, or raises. -/
theorem guardChallengeExpiry_cases (authType : String → Option AuthType) (now : ℤ)
    (new : ChallengeTuple) : guardChallengeExpiry authType now new = .proceed new ∨
      ∃ message, guardChallengeExpiry authType now new = .raise message := by
  unfold guardChallengeExpiry
  split
  · split
    · split_ifs
      · exact .inr ⟨_, rfl⟩
      · exact .inr ⟨_, rfl⟩
      · exact .inl rfl
    · exact .inr ⟨_, rfl⟩
  · split_ifs
    · exact .inr ⟨_, rfl⟩
    · exact .inl rfl
  · exact .inl rfl

/-- It lets a row through exactly if both expiries are allowed. -/
theorem guardChallengeExpiry_iff (new : ChallengeTuple) :
    guardChallengeExpiry authType now new = .proceed new ↔
      ∀ h, ExpiryAllowed now (new.half h).expiredAt (authType new.clientId) := by
  have hhalves : (∀ h, ExpiryAllowed now (new.half h).expiredAt (authType new.clientId)) ↔
      ExpiryAllowed now new.auth.expiredAt (authType new.clientId) ∧
        ExpiryAllowed now new.refresh.expiredAt (authType new.clientId) :=
    ⟨fun h => ⟨h .auth, h .refresh⟩, fun h half => by cases half <;> [exact h.1; exact h.2]⟩
  rw [hhalves]
  unfold guardChallengeExpiry ExpiryAllowed
  cases authType new.clientId with
  | none => exact iff_of_true rfl ⟨trivial, trivial⟩
  | some kind =>
    cases kind with
    | ACCESS_TOKEN =>
      cases new.auth.expiredAt with
      | none => exact iff_of_false (fun h => nomatch h) (by rintro ⟨⟨_, h, -⟩, -⟩; cases h)
      | some a =>
        cases new.refresh.expiredAt with
        | none => exact iff_of_false (fun h => nomatch h) (by rintro ⟨-, _, h, -⟩; cases h)
        | some r =>
          dsimp only [RowVerdict.ofRow]
          split_ifs with ha hr
          · refine iff_of_false (fun h => nomatch h) ?_
            rintro ⟨⟨_, h, hlt⟩, -⟩
            cases h
            omega
          · refine iff_of_false (fun h => nomatch h) ?_
            rintro ⟨-, _, h, hlt⟩
            cases h
            omega
          · exact iff_of_true rfl ⟨⟨a, rfl, by omega⟩, r, rfl, by omega⟩
    | API_TOKEN =>
      cases new.auth.expiredAt with
      | some a => exact iff_of_false (fun h => nomatch h) fun h => nomatch h.1
      | none =>
        cases new.refresh.expiredAt with
        | some r => exact iff_of_false (fun h => nomatch h) fun h => nomatch h.2
        | none => exact iff_of_true rfl ⟨rfl, rfl⟩

/-- An update of the table: what it leaves, and when it goes through. -/
theorem exec_challenge_iff {cond : ChallengeTuple → Bool} {set : ChallengeTuple → ChallengeTuple}
    {table table' : List ChallengeTuple} :
    (challengeRules authType now).exec table (.update cond set) = .ok table' ↔
      table' = table.map (fun row => if cond row then set row else row) ∧
        ∀ row ∈ table, cond row = true →
          ∀ h, ExpiryAllowed now ((set row).half h).expiredAt (authType (set row).clientId) := by
  have hiff : (challengeRules authType now).exec table (.update cond set) = .ok table' ↔ _ :=
    TableRules.exec_update_iff (fun _ _ _ => rfl) (guardChallengeExpiry_cases authType now)
      (fun _ _ => rfl)
  simpa only [guardChallengeExpiry_iff] using hiff

theorem ChallengeColumns.expired_iff {c : ChallengeColumns} :
    c.expired now = true ↔ ∃ e, c.expiredAt = some e ∧ e ≤ now := by
  unfold expired
  cases c.expiredAt with
  | none => exact iff_of_false Bool.false_ne_true (by rintro ⟨_, h, -⟩; cases h)
  | some e =>
    rw [Option.any_some, decide_eq_true_iff]
    exact ⟨fun h => ⟨e, rfl, h⟩, by rintro ⟨_, h, hle⟩; cases h; exact hle⟩

/-- An expiry that has passed is allowed only where everything is. -/
theorem ExpiryAllowed.of_expired {c : ChallengeColumns} {kind : Option AuthType}
    (hexpired : c.expired now = true) (h : ExpiryAllowed now c.expiredAt kind) : kind = none := by
  obtain ⟨e, he, hle⟩ := ChallengeColumns.expired_iff.mp hexpired
  rw [he] at h
  cases kind with
  | none => rfl
  | some kind =>
    cases kind with
    | ACCESS_TOKEN =>
      obtain ⟨_, heq, hlt⟩ := h
      cases heq
      omega
    | API_TOKEN => cases h

end Trigger

/-! ## `update_challenge` -/

section Update

variable {authType : String → Option AuthType} {now : ℤ} {draws : Draws}
  {table table' : List ChallengeTuple} {row : ChallengeTuple}

/-- A row whose challenge has expired has it rotated. -/
def rotateDue (now : ℤ) (draws : Draws) (half : Half) (row : ChallengeTuple) : ChallengeTuple :=
  if (row.half half).expired now then
    row.mapHalves [half] fun h c => c.rotate now (draws h row.clientId)
  else row

/-- The columns after the first challenge was looked at, and the second. -/
theorem half_rotateDue (half h : Half) (row : ChallengeTuple) :
    (rotateDue now draws half row).half h =
      if h = half ∧ (row.half half).expired now = true then
        (row.half h).rotate now (draws h row.clientId)
      else row.half h := by
  unfold rotateDue
  by_cases hexpired : (row.half half).expired now = true
  · rw [if_pos hexpired, half_mapHalves]
    exact if_congr (by rw [List.mem_singleton, and_iff_left hexpired]) rfl rfl
  · rw [if_neg hexpired, if_neg fun hc => hexpired hc.2]

theorem clientId_rotateDue (half : Half) (row : ChallengeTuple) :
    (rotateDue now draws half row).clientId = row.clientId := by
  unfold rotateDue
  split_ifs
  · rfl
  · rfl

/-- One of the two: what it leaves, and when it goes through. -/
theorem setChallenge_iff (half : Half) :
    setChallenge authType now draws table half = .ok table' ↔
      table' = table.map (rotateDue now draws half) ∧
        ∀ row ∈ table, (row.half half).expired now = true →
          ExpiryAllowed now (row.half half.other).expiredAt (authType row.clientId) ∧
            ExpiryAllowed now ((row.half half).nextExpiry now) (authType row.clientId) := by
  unfold setChallenge
  refine exec_challenge_iff.trans (and_congr Iff.rfl (forall₂_congr fun row _ => ?_))
  refine imp_congr Iff.rfl ⟨fun h => ?_, fun h h' => ?_⟩
  · have hself := h half
    have hother := h half.other
    rw [half_mapHalves] at hself hother
    rw [if_pos (List.mem_singleton.mpr rfl)] at hself
    rw [if_neg (by cases half <;> decide)] at hother
    exact ⟨hother, hself⟩
  · rw [half_mapHalves]
    by_cases heq : h' = half
    · subst heq
      rw [if_pos (List.mem_singleton.mpr rfl)]
      exact h.2
    · rw [if_neg fun hmem => heq (List.mem_singleton.mp hmem)]
      have : h' = half.other := by
        revert heq
        cases half <;> cases h' <;> decide
      rw [this]
      exact h.1

/-- The lifetime that makes the next expiry an allowed one. -/
theorem allowed_nextExpiry (c : ChallengeColumns) (kind : Option AuthType) :
    ExpiryAllowed now (c.nextExpiry now) kind ↔
      match kind with
      | some .ACCESS_TOKEN => ∃ l, c.lifetime = some l ∧ 0 < l
      | some .API_TOKEN => c.lifetime = none
      | none => True := by
  unfold ExpiryAllowed ChallengeColumns.nextExpiry
  cases kind with
  | none => exact Iff.rfl
  | some kind =>
    cases kind with
    | ACCESS_TOKEN =>
      constructor
      · rintro ⟨e, he, hlt⟩
        obtain ⟨l, hl, rfl⟩ := Option.map_eq_some_iff.mp he
        exact ⟨l, hl, by omega⟩
      · rintro ⟨l, hl, hpos⟩
        exact ⟨now + l, by rw [hl]; rfl, by omega⟩
    | API_TOKEN => exact Option.map_eq_none_iff

theorem mayRotate_iff : MayRotate authType now row ↔
    ∀ h, (row.half h).expired now = true →
      ExpiryAllowed now (row.half h.other).expiredAt (authType row.clientId) ∧
        ExpiryAllowed now ((row.half h).nextExpiry now) (authType row.clientId) := by
  refine forall_congr' fun h => imp_congr Iff.rfl (and_congr Iff.rfl ?_)
  exact (allowed_nextExpiry _ _).symm

variable (draws) in
/-- The second statement finds the first challenge rotated if it had expired; where both had, the
first statement went through for a row on which there is no condition. -/
theorem mayRotate_iff_steps : MayRotate authType now row ↔
    ((row.half .auth).expired now = true →
      ExpiryAllowed now (row.half .refresh).expiredAt (authType row.clientId) ∧
        ExpiryAllowed now ((row.half .auth).nextExpiry now) (authType row.clientId)) ∧
    ((row.half .refresh).expired now = true →
      ExpiryAllowed now ((rotateDue now draws .auth row).half .auth).expiredAt
          (authType row.clientId) ∧
        ExpiryAllowed now ((row.half .refresh).nextExpiry now) (authType row.clientId)) := by
  rw [mayRotate_iff]
  by_cases hauth : (row.half .auth).expired now = true
  · have hrotated : (rotateDue now draws .auth row).half .auth =
        (row.half .auth).rotate now (draws .auth row.clientId) := by
      rw [half_rotateDue, if_pos ⟨rfl, hauth⟩]
    rw [hrotated]
    constructor
    · intro h
      refine ⟨h .auth, fun hrefresh => ⟨(h .auth hauth).2, (h .refresh hrefresh).2⟩⟩
    · rintro ⟨h1, h2⟩ h hexpired
      cases h with
      | auth => exact h1 hexpired
      | refresh =>
        have hkind := (h1 hauth).1.of_expired hexpired
        refine ⟨?_, (h2 hexpired).2⟩
        rw [hkind]
        trivial
  · have hsame : (rotateDue now draws .auth row).half .auth = row.half .auth := by
      rw [half_rotateDue, if_neg fun hc => hauth hc.2]
    rw [hsame]
    constructor
    · intro h
      exact ⟨h .auth, h .refresh⟩
    · rintro ⟨h1, h2⟩ h
      cases h with
      | auth => exact h1
      | refresh => exact h2

/-- `update_challenge`: what it leaves, and when it goes through. -/
theorem updateChallenge_iff : updateChallenge authType now draws table = .ok table' ↔
    table' = table.map (fun row => rotateDue now draws .refresh (rotateDue now draws .auth row)) ∧
      ∀ row ∈ table, MayRotate authType now row := by
  unfold updateChallenge
  rw [bind_ok_iff]
  unfold setAuthChallenge setRefreshChallenge
  simp only [setChallenge_iff]
  have hrefresh : ∀ row, (rotateDue now draws .auth row).half .refresh = row.half .refresh := by
    intro row
    rw [half_rotateDue, if_neg fun hc => nomatch hc.1]
  constructor
  · rintro ⟨between, ⟨rfl, hauth⟩, rfl, hsecond⟩
    refine ⟨List.map_map .., fun row hrow => ?_⟩
    have hstep := hsecond _ (List.mem_map_of_mem hrow)
    rw [hrefresh, clientId_rotateDue] at hstep
    exact (mayRotate_iff_steps draws).mpr ⟨hauth row hrow, hstep⟩
  · rintro ⟨rfl, hmay⟩
    refine ⟨_, ⟨rfl, fun row hrow => ((mayRotate_iff_steps draws).mp (hmay row hrow)).1⟩,
      by rw [List.map_map]; rfl, fun between hbetween => ?_⟩
    obtain ⟨row, hrow, rfl⟩ := List.mem_map.mp hbetween
    rw [hrefresh, clientId_rotateDue]
    exact ((mayRotate_iff_steps draws).mp (hmay row hrow)).2

/-- What is left of a row is what is owed it. -/
theorem rotated_rotateDue (row : ChallengeTuple) (h : Half) :
    Rotated now (draws h row.clientId) (row.half h)
      ((rotateDue now draws .refresh (rotateDue now draws .auth row)).half h) := by
  have hhalf : (rotateDue now draws .refresh (rotateDue now draws .auth row)).half h =
      if (row.half h).expired now = true then (row.half h).rotate now (draws h row.clientId)
      else row.half h := by
    rw [half_rotateDue, half_rotateDue, half_rotateDue, clientId_rotateDue]
    cases h with
    | auth =>
      rw [if_neg fun hc => nomatch hc.1]
      exact if_congr (and_iff_right rfl) rfl rfl
    | refresh =>
      rw [if_neg (c := Half.refresh = Half.auth ∧ _) fun hc => nomatch hc.1]
      exact if_congr (and_iff_right rfl) rfl rfl
  rw [hhalf]
  constructor
  · intro hexpired
    rw [if_pos hexpired]
    exact ⟨rfl, rfl, rfl⟩
  · intro hnot
    rw [if_neg (Bool.eq_false_iff.mp hnot)]

/-- A rotation keeps the lifetime of the challenge. -/
theorem Rotated.lifetime {value : String} {old new : ChallengeColumns}
    (h : Rotated now value old new) : new.lifetime = old.lifetime := by
  by_cases hexpired : old.expired now = true
  · obtain ⟨-, hcreated, hexpiry⟩ := h.due hexpired
    have hnew : new.lifetime =
        (old.lifetime.map (now + ·)).bind fun e => (some now).map (e - ·) := by
      unfold ChallengeColumns.lifetime
      rw [hcreated, hexpiry]
      rfl
    rw [hnew]
    cases old.lifetime with
    | none => rfl
    | some l => exact congrArg some (add_sub_cancel_left now l)
  · rw [h.other (Bool.eq_false_iff.mpr hexpired)]

end Update

/-! ## `raw_revoke_challenges` and `raw_revoke_auth_token` -/

section Revoke

variable {authType : String → Option AuthType} {now : ℤ} {draws : Draws} {halves : List Half}
  {cid : String} {table table' : List ChallengeTuple}

/-- The row of the client after the first statement. -/
def renewed (now : ℤ) (draws : Draws) (halves : List Half) (row : ChallengeTuple) :
    ChallengeTuple :=
  row.mapHalves halves fun h c => c.renew now (draws h row.clientId)

/-- The creation has been overwritten when the expiry is computed from it. -/
theorem extend_renew (c : ChallengeColumns) (value : String) (h : c.expiredAt.isSome = true) :
    (c.renew now value).extend now = c.renew now value := by
  obtain ⟨e, he⟩ := Option.isSome_iff_exists.mp h
  have hnext : (c.renew now value).nextExpiry now = c.expiredAt := by
    unfold ChallengeColumns.nextExpiry ChallengeColumns.lifetime ChallengeColumns.renew
    dsimp only
    rw [he]
    exact congrArg some (add_sub_cancel now e)
  unfold ChallengeColumns.extend
  rw [hnext]
  rfl

theorem ChallengeTuple.ext_half {a b : ChallengeTuple} (hid : a.clientId = b.clientId)
    (h : ∀ half, a.half half = b.half half) : a = b := by
  obtain ⟨clientId, auth, refresh⟩ := a
  obtain rfl : clientId = b.clientId := hid
  obtain rfl : auth = b.auth := h .auth
  obtain rfl : refresh = b.refresh := h .refresh
  rfl

theorem half_renewed (row : ChallengeTuple) (h : Half) : (renewed now draws halves row).half h =
    if h ∈ halves then (row.half h).renew now (draws h row.clientId) else row.half h :=
  half_mapHalves halves _ row h

theorem expiredAt_renewed (row : ChallengeTuple) (h : Half) :
    ((renewed now draws halves row).half h).expiredAt = (row.half h).expiredAt := by
  rw [half_renewed]
  split_ifs
  · rfl
  · rfl

/-- The second statement does not change a row that it is about. -/
theorem mapHalves_renewed {row : ChallengeTuple}
    (h : halves.all (fun h => ((renewed now draws halves row).half h).expiredAt.isSome) = true) :
    (renewed now draws halves row).mapHalves halves (fun _ c => c.extend now) =
      renewed now draws halves row := by
  refine ChallengeTuple.ext_half rfl fun half => ?_
  rw [half_mapHalves]
  split_ifs with hmem
  · have hsome := List.all_eq_true.mp h half hmem
    rw [expiredAt_renewed] at hsome
    rw [half_renewed, if_pos hmem]
    exact extend_renew _ _ hsome
  · rfl

/-- The first statement. -/
theorem exec_renew_iff : (challengeRules authType now).exec table
      (.update (fun row => row.clientId == cid) (renewed now draws halves)) = .ok table' ↔
    table' = table.map (fun row =>
      if row.clientId == cid then renewed now draws halves row else row) ∧
      ∀ row ∈ table, row.clientId = cid →
        ∀ h, ExpiryAllowed now (row.half h).expiredAt (authType cid) := by
  refine exec_challenge_iff.trans (and_congr Iff.rfl (forall₂_congr fun row _ => ?_))
  have hid : (renewed now draws halves row).clientId = row.clientId := rfl
  constructor
  · intro h hcid half
    have hallowed := h (beq_iff_eq.mpr hcid) half
    rw [expiredAt_renewed, hid, hcid] at hallowed
    exact hallowed
  · intro h hcond half
    have hcid := beq_iff_eq.mp hcond
    rw [expiredAt_renewed, hid, hcid]
    exact h hcid half

/-- The second statement is about rows that the first has changed, and leaves them. -/
theorem extend_first {row row' : ChallengeTuple}
    (hrow' : (if row.clientId == cid then renewed now draws halves row else row) = row')
    (h : (row'.clientId == cid && halves.all fun h => (row'.half h).expiredAt.isSome) = true) :
    row.clientId = cid ∧ row' = renewed now draws halves row ∧
      row'.mapHalves halves (fun _ c => c.extend now) = row' := by
  obtain ⟨hid, hall⟩ := Bool.and_eq_true_iff.mp h
  split_ifs at hrow' with hcid
  · subst hrow'
    exact ⟨beq_iff_eq.mp hcid, rfl, mapHalves_renewed hall⟩
  · subst hrow'
    exact absurd hid hcid

/-- The two statements: what they leave, and when they go through. -/
theorem rawRevoke_iff : rawRevoke authType now draws table halves cid = .ok table' ↔
    table' = table.map (fun row =>
      if row.clientId == cid then renewed now draws halves row else row) ∧
      ∀ row ∈ table, row.clientId = cid →
        ∀ h, ExpiryAllowed now (row.half h).expiredAt (authType cid) := by
  -- what the second statement makes of the rows that the first leaves
  have hsame : (table.map (fun row =>
        if row.clientId == cid then renewed now draws halves row else row)).map (fun row =>
      if row.clientId == cid && halves.all (fun h => (row.half h).expiredAt.isSome) then
        row.mapHalves halves (fun _ c => c.extend now) else row) =
      table.map (fun row =>
        if row.clientId == cid then renewed now draws halves row else row) := by
    rw [List.map_map]
    refine List.map_congr_left fun row _ => ?_
    rw [Function.comp_apply]
    by_cases hcond : ((if row.clientId == cid then renewed now draws halves row else row).clientId
        == cid && halves.all fun h => ((if row.clientId == cid then renewed now draws halves row
          else row).half h).expiredAt.isSome) = true
    · rw [if_pos hcond]
      exact (extend_first rfl hcond).2.2
    · rw [if_neg hcond]
  unfold rawRevoke
  rw [bind_ok_iff]
  constructor
  · rintro ⟨between, hone, htwo⟩
    obtain ⟨rfl, hallowed⟩ := exec_renew_iff.mp hone
    obtain ⟨rfl, -⟩ := exec_challenge_iff.mp htwo
    exact ⟨hsame, hallowed⟩
  · rintro ⟨rfl, hallowed⟩
    refine ⟨_, exec_renew_iff.mpr ⟨rfl, hallowed⟩, exec_challenge_iff.mpr ⟨hsame.symm, ?_⟩⟩
    intro between hbetween hcond half
    obtain ⟨row, hrow, hrow'⟩ := List.mem_map.mp hbetween
    obtain ⟨hcid, hnew, hextend⟩ := extend_first hrow' hcond
    rw [hextend, hnew, expiredAt_renewed,
      show (renewed now draws halves row).clientId = cid from hcid]
    exact hallowed row hrow hcid half

/-- The lifetime that is left: from now on, to the expiry that there was. -/
theorem lifetime_renew_iff (c : ChallengeColumns) (value : String) :
    (c.renew now value).lifetime = c.lifetime ↔
      c.expiredAt = none ∨ c.createdAt = some now := by
  unfold ChallengeColumns.lifetime ChallengeColumns.renew
  cases hexpired : c.expiredAt with
  | none => exact iff_of_true rfl (.inl rfl)
  | some e =>
    cases hcreated : c.createdAt with
    | none =>
      refine iff_of_false (fun h => nomatch h) ?_
      rintro (h | h)
      · cases h
      · cases h
    | some b =>
      constructor
      · intro h
        have : e - now = e - b := Option.some.inj h
        exact .inr (congrArg some (by omega))
      · rintro (h | h)
        · cases h
        · cases h
          rfl

theorem lifetimes_renewed_iff (row : ChallengeTuple) :
    (renewed now draws halves row).lifetimes = row.lifetimes ↔
      ∀ h ∈ halves, (row.half h).expiredAt = none ∨ (row.half h).createdAt = some now := by
  have hhalf (h : Half) : ((renewed now draws halves row).half h).lifetime = (row.half h).lifetime ↔
      (h ∈ halves → (row.half h).expiredAt = none ∨ (row.half h).createdAt = some now) := by
    unfold renewed
    rw [half_mapHalves]
    split_ifs with hmem
    · rw [lifetime_renew_iff, forall_prop_of_true hmem]
    · exact iff_of_true rfl fun hc => absurd hc hmem
  constructor
  · intro h half
    obtain ⟨hauth, hrefresh⟩ := Prod.mk.inj h
    refine (hhalf half).mp ?_
    cases half with
    | auth => exact hauth
    | refresh => exact hrefresh
  · intro h
    exact Prod.ext ((hhalf .auth).mpr (h .auth)) ((hhalf .refresh).mpr (h .refresh))

/-- The calls that keep the lifetimes. -/
theorem rawRevoke_lifetimes_iff :
    (∀ table', rawRevoke authType now draws table halves cid = .ok table' →
        table'.map ChallengeTuple.lifetimes = table.map ChallengeTuple.lifetimes) ↔
      MayRevoke authType now halves cid table := by
  have hmap : ((table.map (fun row =>
        if row.clientId == cid then renewed now draws halves row else row)).map
          ChallengeTuple.lifetimes = table.map ChallengeTuple.lifetimes) ↔
      ∀ row ∈ table, row.clientId = cid → ∀ h ∈ halves,
        (row.half h).expiredAt = none ∨ (row.half h).createdAt = some now := by
    rw [List.map_map, List.map_inj_left]
    refine forall₂_congr fun row _ => ?_
    rw [Function.comp_apply]
    by_cases hcid : row.clientId = cid
    · rw [if_pos (beq_iff_eq.mpr hcid), lifetimes_renewed_iff, forall_prop_of_true hcid]
    · rw [if_neg fun h => hcid (beq_iff_eq.mp h)]
      exact iff_of_true rfl fun hc => absurd hc hcid
  constructor
  · intro h
    by_cases hallowed : ∀ row ∈ table, row.clientId = cid →
        ∀ h, ExpiryAllowed now (row.half h).expiredAt (authType cid)
    · exact .inr (hmap.mp (h _ (rawRevoke_iff.mpr ⟨rfl, hallowed⟩)))
    · push Not at hallowed
      exact .inl hallowed
  · rintro (⟨row, hrow, hcid, half, hnot⟩ | hkept) table' hok
    · exact absurd ((rawRevoke_iff.mp hok).2 row hrow hcid half) hnot
    · rw [(rawRevoke_iff.mp hok).1]
      exact hmap.mpr hkept

end Revoke

/-! ## Runs of calls -/

section Calls

variable {authType : String → Option AuthType} {table : List ChallengeTuple}

/-- **One call** does what it owes exactly under its condition. -/
theorem callRight_iff (call : ChallengeCall) :
    ChallengeCallRight authType table call ↔ CallGuard authType table call := by
  cases call with
  | updateChallenge now draws =>
    constructor
    · rintro ⟨table', hok, -⟩
      exact (updateChallenge_iff.mp hok).2
    · intro hmay
      refine ⟨_, updateChallenge_iff.mpr ⟨rfl, hmay⟩, ?_⟩
      rw [List.forall₂_map_right_iff, List.forall₂_same]
      intro row _
      refine ⟨?_, rotated_rotateDue row⟩
      rw [clientId_rotateDue, clientId_rotateDue]
  | rawRevokeChallenges cid now draws => exact rawRevoke_lifetimes_iff
  | rawRevokeAuthToken cid now draws => exact rawRevoke_lifetimes_iff

/-- A call that goes through, or that raises and leaves the table. -/
theorem challengeStep_cases (authType : String → Option AuthType) (table : List ChallengeTuple)
    (call : ChallengeCall) : call.exec authType table = .ok (challengeStep authType table call) ∨
      challengeStep authType table call = table := by
  unfold challengeStep
  cases h : call.exec authType table with
  | ok table' => exact .inl rfl
  | error e => exact .inr rfl

/-- **The step lemma**: a call that does what it owes keeps the lifetimes. -/
theorem ChallengeCallRight.lifetimes {call : ChallengeCall}
    (h : ChallengeCallRight authType table call) :
    (challengeStep authType table call).map ChallengeTuple.lifetimes =
      table.map ChallengeTuple.lifetimes := by
  rcases challengeStep_cases authType table call with hok | hsame
  case inr => rw [hsame]
  cases call with
  | updateChallenge now draws =>
    obtain ⟨table', hok', hrotated⟩ := h
    obtain rfl : challengeStep authType table (.updateChallenge now draws) = table' :=
      Except.ok.inj (hok.symm.trans hok')
    generalize challengeStep authType table (.updateChallenge now draws) = table' at hrotated
    clear hok hok'
    induction hrotated with
    | nil => rfl
    | cons hrow _ ih =>
      rw [List.map_cons, List.map_cons, ih]
      congr 1
      exact Prod.ext (hrow.2 .auth).lifetime (hrow.2 .refresh).lifetime
  | rawRevokeChallenges cid now draws => exact h _ hok
  | rawRevokeAuthToken cid now draws => exact h _ hok

/-- **Exactly the runs in which every call is within its condition** rotate what has expired and
keep the lifetimes. -/
theorem rotationsRight_iff (authType : String → Option AuthType) (table : List ChallengeTuple)
    (calls : List ChallengeCall) : RotationsRight authType table calls ↔
      Always (challengeStep authType) (CallGuard authType) table calls := by
  constructor
  · rintro ⟨hright, -⟩
    exact hright.mono fun table call => (callRight_iff call).mp
  · intro hguard
    have hright : Always (challengeStep authType) (ChallengeCallRight authType) table calls :=
      hguard.mono fun table call => (callRight_iff call).mpr
    refine ⟨hright, fun before after hsplit => ?_⟩
    rw [hsplit] at hright
    exact (always_of_inv (Q := fun _ _ => True)
      (I := fun t => t.map ChallengeTuple.lifetimes = table.map ChallengeTuple.lifetimes)
      (fun t call hsame h => ⟨trivial, h.lifetimes.trans hsame⟩) rfl hright.of_append).2

/-- A client whose two challenges have expired: `update_challenge` raises. -/
theorem not_rotationsRight : ¬ ∀ (authType : String → Option AuthType)
    (table : List ChallengeTuple) (calls : List ChallengeCall),
      RotationsRight authType table calls := by
  intro h
  let row : ChallengeTuple := ⟨"c1", ⟨"a", some 0, some 10⟩, ⟨"r", some 0, some 20⟩⟩
  obtain ⟨⟨⟨table', hok, -⟩, -⟩, -⟩ :=
    h (fun _ => some .ACCESS_TOKEN) [row] [.updateChallenge 30 fun _ _ => "x"]
  exact nomatch hok

-- A token that lives for 10 is revoked at 6, and then lives for 4.
example : (challengeStep (fun _ => some .ACCESS_TOKEN)
    [⟨"c1", ⟨"a", some 0, some 10⟩, ⟨"r", some 0, some 20⟩⟩]
    (.rawRevokeAuthToken "c1" 6 fun _ _ => "x")).map ChallengeTuple.lifetimes =
      [(some 4, some 20)] := by decide

end Calls

end Notifyr
