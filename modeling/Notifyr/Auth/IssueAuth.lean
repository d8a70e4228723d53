import Notifyr.Auth.Token
import Notifyr.Database.ClientGuards
import Notifyr.Database.Challenge

/-!
# Issuing tokens

`IssueAuthInterface` (`app/interface/issue_auth.py`) and `AdminService.issue_auth`
(`app/services/admin_service.py`) over the challenge of one client.

- `TokenCodec`: how tokens are encoded and decoded; `JwtEnv.codec` is the one of `JWTAuthService`.
- `ChallengeRecord`, `ChallengeORM`: a row, and an instance of it.
- `issueAuth`, `changeAuthzId`, `compareAuthzId`: the interface.
- `issueAuth_iff`: when tokens are issued, and what is issued.
-/

namespace Notifyr

open Theory

/-- How `_encode_token` and `_decode_token` go together: a token that was encoded is decoded to its
claims, or refused. -/
structure TokenCodec where
  /-- `_encode_token`, when it does not raise. -/
  encode : Claims → Option String
  decode : String → Py Claims
  decode_encode : ∀ claims token, encode claims = some token →
    decode token = .ok claims ∨ decode token = .error (.httpException 403 "Invalid token")

/-- The tokens of `JWTAuthService`: what is encoded is refused. -/
def JwtEnv.codec (env : JwtEnv) : TokenCodec where
  encode claims := (encodeToken env claims none true).toOption
  decode token := (decodeToken env [] token none 0).1
  decode_encode _ token _ := .inr (by rw [decodeToken_nil])

/-- A row of `Challenge`, of a client that is known. -/
structure ChallengeRecord where
  auth : ChallengeColumns
  refresh : ChallengeColumns
  lastAuthzId : String

/-- `ChallengeORM`: the fields of an instance, and the attribute that `change_authz_id` sets, which
is no field. -/
structure ChallengeORM where
  row : ChallengeRecord
  lastAutzId : Option String := none

/-- The service and the client that tokens are issued for. -/
structure AuthEnv where
  jwt : JwtEnv
  codec : TokenCodec
  client : ClientORM

/-- What a call draws: the time of its transaction, random strings, a UUID, and the time and the
salt of each token. -/
structure Moment where
  now : ℤ
  draws : Draws
  uuid : String
  refreshTime : ℚ
  refreshSalt : Bytes
  authTime : ℚ
  authSalt : Bytes

/-- The columns of the table that the functions of the database are about. -/
def ChallengeRecord.tuple (row : ChallengeRecord) (clientId : String) : ChallengeTuple :=
  ⟨clientId, row.auth, row.refresh⟩

namespace AuthEnv

variable (env : AuthEnv) (m : Moment)

/-- The type that the trigger finds for the client. -/
def authType (_ : String) : Option AuthType := some env.client.authType

/-- `raw_revoke_challenges` and `raw_revoke_auth_token`, from `app/models/security_model.py`. -/
def rawRevoke (halves : List Half) (row : ChallengeRecord) : Py ChallengeRecord :=
  match Notifyr.rawRevoke env.authType m.now m.draws [row.tuple env.client.clientId] halves
      env.client.clientId with
  | .ok (tuple :: _) => .ok { row with auth := tuple.auth, refresh := tuple.refresh }
  | .ok [] => .ok row
  | .error _ => .error .raiseError

/-- `challenge.save()`: all fields are written. -/
def saveChallenge (challenge : ChallengeORM) : Py ChallengeRecord :=
  match guardChallengeExpiry env.authType m.now (challenge.row.tuple env.client.clientId) with
  | .raise _ => .error .raiseError
  | _ => .ok challenge.row

/-- `client.save()`, which `guard_admin_deletion` may refuse. -/
def saveClient : Py Unit :=
  if env.client.clientType = .Admin then .error .raiseError else .ok ()

/-- The route saves the client, or does not. -/
def saveIf (saves : Bool) : Py Unit := if saves then env.saveClient else .ok ()

/-- `change_authz_id`, and the row that it leaves. -/
def changeAuthzId (challenge : ChallengeORM) : Py (ChallengeORM × ChallengeRecord) := do
  let challenge := { challenge with lastAutzId := some m.uuid }
  let row ← env.saveChallenge m challenge
  return (challenge, row)

/-- The claims of the refresh token. -/
def refreshClaims (row : ChallengeRecord) : Claims :=
  (TokenRequest.refresh env.client.clientId row.refresh.challenge env.client.group).permission
    env.jwt m.refreshTime m.refreshSalt

/-- The claims of the access token. -/
def authClaims (row : ChallengeRecord) : Claims :=
  (TokenRequest.auth row.lastAuthzId env.client.clientId row.auth.challenge
    env.client.group).permission env.jwt m.authTime m.authSalt

/-- `AdminService.issue_auth`. -/
def adminIssueAuth (challenge : ChallengeORM) : Py (String × String) := do
  let refreshToken ← match env.codec.encode (env.refreshClaims m challenge.row) with
    | none => .error .couldNotCreateRefreshTokenError
    | some token => .ok token
  let authToken ← match env.codec.encode (env.authClaims m challenge.row) with
    | none => .error .couldNotCreateAuthTokenError
    | some token => .ok token
  return (authToken, refreshToken)

/-- `IssueAuthInterface.issue_auth`: the tokens, and the row that it leaves. -/
def issueAuth (row : ChallengeRecord) (updateAuthz : Bool) :
    Py ((String × String) × ChallengeRecord) := do
  let challenge : ChallengeORM := { row := row }
  let (challenge, row) ←
    if updateAuthz then env.changeAuthzId m challenge else .ok (challenge, row)
  let tokens ← env.adminIssueAuth m challenge
  return (tokens, row)

end AuthEnv

/-- `compare_authz_id`. -/
def compareAuthzId (row : ChallengeRecord) (authzId : Claim) : Bool :=
  decide (Claim.text row.lastAuthzId = authzId)

/-! ## What is issued -/

section Issue

variable {env : AuthEnv} {m : Moment} {halves : List Half} {row row' : ChallengeRecord}

/-- The row after a revocation. -/
def ChallengeRecord.renew (env : AuthEnv) (m : Moment) (halves : List Half)
    (row : ChallengeRecord) : ChallengeRecord :=
  { row with
    auth := (renewed m.now m.draws halves (row.tuple env.client.clientId)).auth
    refresh := (renewed m.now m.draws halves (row.tuple env.client.clientId)).refresh }

/-- What the trigger wants of the row of the client. -/
def RowAllowed (env : AuthEnv) (m : Moment) (row : ChallengeRecord) : Prop :=
  ∀ h, ExpiryAllowed m.now ((row.tuple env.client.clientId).half h).expiredAt
    (some env.client.authType)

theorem rawRevoke_record_iff : env.rawRevoke m halves row = .ok row' ↔
    row' = row.renew env m halves ∧ RowAllowed env m row := by
  have htable (table' : List ChallengeTuple) :
      Notifyr.rawRevoke env.authType m.now m.draws [row.tuple env.client.clientId] halves
        env.client.clientId = .ok table' ↔ _ := rawRevoke_iff
  have hrow : ([row.tuple env.client.clientId].map fun row =>
      if row.clientId == env.client.clientId then renewed m.now m.draws halves row else row) =
        [renewed m.now m.draws halves (row.tuple env.client.clientId)] :=
    congrArg (fun row => [row]) (if_pos (beq_self_eq_true env.client.clientId))
  have hallowed : (∀ tuple ∈ [row.tuple env.client.clientId],
      tuple.clientId = env.client.clientId → ∀ h, ExpiryAllowed m.now (tuple.half h).expiredAt
        (env.authType env.client.clientId)) ↔ RowAllowed env m row := by
    rw [List.forall_mem_singleton]
    exact ⟨fun h => h rfl, fun h _ => h⟩
  rw [hrow] at htable
  simp only [hallowed] at htable
  unfold AuthEnv.rawRevoke
  cases hrevoke : Notifyr.rawRevoke env.authType m.now m.draws [row.tuple env.client.clientId]
      halves env.client.clientId with
  | error e =>
    refine iff_of_false (fun h => nomatch h) fun h => ?_
    have hok := (htable _).mpr ⟨rfl, h.2⟩
    rw [hrevoke] at hok
    cases hok
  | ok table' =>
    obtain ⟨rfl, h⟩ := (htable table').mp hrevoke
    dsimp only
    rw [Except.ok.injEq, and_iff_left h]
    exact eq_comm

/-- A revocation leaves the expiries. -/
theorem rowAllowed_renew : RowAllowed env m (row.renew env m halves) ↔ RowAllowed env m row := by
  refine forall_congr' fun h => ?_
  have hhalf : ((row.renew env m halves).tuple env.client.clientId).half h =
      (renewed m.now m.draws halves (row.tuple env.client.clientId)).half h := by
    cases h <;> rfl
  rw [hhalf, expiredAt_renewed]

/-- **`change_authz_id` leaves the row as it was**, where the trigger lets it. -/
theorem changeAuthzId_iff {challenge : ChallengeORM} {result : ChallengeORM × ChallengeRecord} :
    env.changeAuthzId m challenge = .ok result ↔
      result = ({ challenge with lastAutzId := some m.uuid }, challenge.row) ∧
        RowAllowed env m challenge.row := by
  unfold AuthEnv.changeAuthzId AuthEnv.saveChallenge
  have hallowed :
      guardChallengeExpiry env.authType m.now (challenge.row.tuple env.client.clientId) =
        .proceed (challenge.row.tuple env.client.clientId) ↔ RowAllowed env m challenge.row :=
    guardChallengeExpiry_iff _
  rcases guardChallengeExpiry_cases env.authType m.now (challenge.row.tuple env.client.clientId)
    with hproceed | ⟨message, hraise⟩
  · rw [and_iff_left (hallowed.mp hproceed)]
    dsimp only
    rw [hproceed]
    change Except.ok _ = Except.ok _ ↔ _
    rw [Except.ok.injEq]
    exact eq_comm
  · dsimp only
    rw [hraise]
    refine iff_of_false (fun h => nomatch h) fun h => ?_
    rw [hallowed.mpr h.2] at hraise
    cases hraise

/-- The tokens of `AdminService.issue_auth`. -/
theorem adminIssueAuth_iff {challenge : ChallengeORM} {tokens : String × String} :
    env.adminIssueAuth m challenge = .ok tokens ↔
      env.codec.encode (env.refreshClaims m challenge.row) = some tokens.2 ∧
        env.codec.encode (env.authClaims m challenge.row) = some tokens.1 := by
  unfold AuthEnv.adminIssueAuth
  cases env.codec.encode (env.refreshClaims m challenge.row) with
  | none => exact iff_of_false (fun h => nomatch h) fun h => nomatch h.1
  | some refreshToken =>
    cases env.codec.encode (env.authClaims m challenge.row) with
    | none => exact iff_of_false (fun h => nomatch h) fun h => nomatch h.2
    | some authToken =>
      obtain ⟨auth, refresh⟩ := tokens
      change Except.ok (authToken, refreshToken) = Except.ok (auth, refresh) ↔ _
      rw [Except.ok.injEq, Prod.mk.injEq, Option.some.injEq, Option.some.injEq, and_comm]

/-- **What is issued**, with `update_authz` or without: tokens for the row as it is. -/
theorem issueAuth_iff {updateAuthz : Bool} {tokens : String × String} :
    env.issueAuth m row updateAuthz = .ok (tokens, row') ↔
      row' = row ∧ (updateAuthz = true → RowAllowed env m row) ∧
        env.codec.encode (env.refreshClaims m row) = some tokens.2 ∧
          env.codec.encode (env.authClaims m row) = some tokens.1 := by
  have hadmin (challenge : ChallengeORM) (hrow : challenge.row = row) :
      (env.adminIssueAuth m challenge >>= fun tokens => pure (tokens, row)) =
          Except.ok (tokens, row') ↔ row' = row ∧
        env.codec.encode (env.refreshClaims m row) = some tokens.2 ∧
          env.codec.encode (env.authClaims m row) = some tokens.1 := by
    rw [bind_ok_iff]
    constructor
    · rintro ⟨tokens', hissue, hok⟩
      cases hok
      rw [adminIssueAuth_iff, hrow] at hissue
      exact ⟨rfl, hissue⟩
    · rintro ⟨rfl, hissue⟩
      refine ⟨tokens, ?_, rfl⟩
      rw [adminIssueAuth_iff, hrow]
      exact hissue
  unfold AuthEnv.issueAuth
  cases updateAuthz with
  | false =>
    refine (hadmin { row := row } rfl).trans (and_congr_right fun _ => ?_)
    exact (and_iff_right fun h => nomatch h).symm
  | true =>
    dsimp only
    rw [if_pos rfl, bind_ok_iff]
    constructor
    · rintro ⟨result, hchange, hissue⟩
      obtain ⟨rfl, hallowed⟩ := changeAuthzId_iff.mp hchange
      obtain ⟨hrow, htokens⟩ := (hadmin _ rfl).mp hissue
      exact ⟨hrow, fun _ => hallowed, htokens⟩
    · rintro ⟨hrow, hallowed, htokens⟩
      refine ⟨_, changeAuthzId_iff.mpr ⟨rfl, hallowed rfl⟩, ?_⟩
      exact (hadmin _ rfl).mpr ⟨hrow, htokens⟩

end Issue

end Notifyr
