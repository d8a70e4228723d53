import Notifyr.Auth.IssueAuth

/-!
# Authorization identifiers

The routes that issue, refresh and revoke the tokens of a client, and `self_issue_by_connect`
(`app/ressources/auth_ressource.py`, `admin_ressource.py`), without their decorators.

- `AuthEnv.decodeAndVerify`, `AuthEnv.selfIssueByConnect`: what a client's own token is checked for.
- `AuthEvent`, `authStep`: the routes, over the row of the client and the tokens that it was given.
- `AuthRight`: what is owed of the authorization identifier.
- `authRunRight_iff`: the runs in which it is given.
-/

namespace Notifyr

open Theory

namespace AuthEnv

variable (env : AuthEnv) (m : Moment)

/-- `_decode_and_verify`. -/
def decodeAndVerify (clientToken : String) : Py Claims := do
  let authPermission ← env.codec.decode clientToken
  let clientId ← getItem authPermission "client_id"
  if clientId ≠ .text env.client.clientId then
    .error (.httpException 403 "Client ID mismatch")
  else
    let generationId ← getItem authPermission "generation_id"
    if generationId ≠ TokenRequest.optional env.jwt.generationId then
      .error (.httpException 403 "Generation ID mismatch")
    else
      let issuedFor ← getItem authPermission "issued_for"
      if issuedFor ≠ .text env.client.issuedFor then
        .error (.httpException 403 "Issued-for mismatch")
      else .ok authPermission

/-- `parse_authPermission_enum`, for the values that a claim has here: no character is the name of a
role. -/
def parseAuthPermissionEnum (authPermission : Claims) : Py Unit := do
  match ← getItem authPermission "roles" with
  | .text roles => if roles = "" then .ok () else .error .keyError
  | _ => .error .typeError

/-- `self_issue_by_connect` up to its comparison. -/
def checkClientToken (row : ChallengeRecord) (clientToken : Option String) : Py Unit := do
  match clientToken with
  | none => .error .clientTokenHeaderNotProvidedError
  | some clientToken =>
    let authPermission ← env.decodeAndVerify clientToken
    parseAuthPermissionEnum authPermission
    let authzId ← getItem authPermission "authz_id"
    if compareAuthzId row authzId then .ok () else .error .authzIdMisMatchError

end AuthEnv

/-- Which challenges a route revokes before it issues tokens. -/
inductive Revocation
  | challenges
  | authToken

def Revocation.halves : Revocation → List Half
  | challenges => [.auth, .refresh]
  | authToken => [.auth]

/-- A route that is called for the client. -/
inductive AuthEvent
  | issue (m : Moment) (revocation : Revocation) (updateAuthz saves : Bool)
  | revoke (m : Moment)
  | selfIssue (m : Moment) (clientToken : Option String)

namespace AuthEvent

/-- `issue_auth_token`. -/
def issueAuthToken (m : Moment) : AuthEvent := issue m .challenges true true

/-- `_create_superuser_auth`. -/
def createSuperuserAuth (m : Moment) : AuthEvent := issue m .challenges false false

/-- `refresh_auth_token`. -/
def refreshAuthToken (m : Moment) : AuthEvent := issue m .authToken false true

/-- `refresh_admin_token`. -/
def refreshAdminToken (m : Moment) : AuthEvent := issue m .authToken false false

/-- What a route answers, and the row that it leaves; in a transaction. -/
def exec (env : AuthEnv) (row : ChallengeRecord) :
    AuthEvent → Py (Option (String × String) × ChallengeRecord)
  | issue m revocation updateAuthz saves => do
    let row ← env.rawRevoke m revocation.halves row
    let (tokens, row) ← env.issueAuth m row updateAuthz
    env.saveIf saves
    return (some tokens, row)
  -- `_revoke_client`; what it writes to the client is not read here
  | revoke m => do
    let row ← env.rawRevoke m Revocation.challenges.halves row
    env.saveClient
    return (none, row)
  | selfIssue m clientToken => do
    env.checkClientToken row clientToken
    let row ← env.rawRevoke m Revocation.authToken.halves row
    let (tokens, row) ← env.issueAuth m row false
    env.saveClient
    return (some tokens, row)

/-- The route changes the authorization identifier. -/
def updatesAuthz : AuthEvent → Bool
  | issue _ _ updateAuthz _ => updateAuthz
  | _ => false

end AuthEvent

/-- The row of the client, and the access tokens that it was given since the last issue with
`update_authz`, and before it. -/
structure AuthState where
  row : ChallengeRecord
  current : List String := []
  old : List String := []

/-- One route; one that raises changes nothing. -/
def authStep (env : AuthEnv) (s : AuthState) (event : AuthEvent) : AuthState :=
  match event.exec env s.row with
  | .error _ => s
  | .ok (none, row) => { s with row := row }
  | .ok (some (authToken, _), row) =>
    if event.updatesAuthz then ⟨row, [authToken], s.current ++ s.old⟩
    else ⟨row, authToken :: s.current, s.old⟩

/-! ## The property and the condition -/

/-- A token that `encode_auth_token` makes, for any client and under any generation. -/
def WellFormedToken (env : AuthEnv) (token : String) : Prop :=
  ∃ (generationId : Option String) (authzId clientId challenge : String) (groupId : Option String)
    (time : ℚ) (salt : Bytes), env.codec.encode ((TokenRequest.auth authzId clientId challenge
      groupId).permission { env.jwt with generationId := generationId } time salt) = some token

/-- A token carries an authorization identifier. -/
def CarriesAuthzId (env : AuthEnv) (token authzId : String) : Prop :=
  ∃ claims, env.codec.encode claims = some token ∧ claims.get? "authz_id" = some (.text authzId)

/-- What is owed. -/
def AuthRight (env : AuthEnv) (s : AuthState) (event : AuthEvent) : Prop :=
  match event with
  | .issue _ _ updateAuthz _ => updateAuthz = true → ∀ tokens row,
      event.exec env s.row = .ok (some tokens, row) →
        row.lastAuthzId ≠ s.row.lastAuthzId ∧ CarriesAuthzId env tokens.1 row.lastAuthzId
  | .revoke _ => True
  | .selfIssue _ clientToken => ∀ token, clientToken = some token →
      (token ∈ s.current → env.checkClientToken s.row (some token) = .ok ()) ∧
      (token ∈ s.old → env.checkClientToken s.row (some token) = .error .authzIdMisMatchError) ∧
      (WellFormedToken env token → env.decodeAndVerify token ≠ .error .keyError)

/-- Every route of a run does what is owed. -/
def AuthRunRight (env : AuthEnv) (row : ChallengeRecord) (events : List AuthEvent) : Prop :=
  Always (authStep env) (AuthRight env) { row } events

/-- The tokens of a row can be made. -/
def TokensEncoded (env : AuthEnv) (m : Moment) (row : ChallengeRecord) : Prop :=
  env.codec.encode (env.refreshClaims m row) ≠ none ∧
    env.codec.encode (env.authClaims m row) ≠ none

/-- An access token of the client under the current generation, which is decoded. -/
def OwnToken (env : AuthEnv) (token : String) : Prop :=
  ∃ (authzId challenge : String) (groupId : Option String) (time : ℚ) (salt : Bytes),
    let claims := (TokenRequest.auth authzId env.client.clientId challenge groupId).permission
      env.jwt time salt
    env.codec.encode claims = some token ∧ env.codec.decode token = .ok claims

/-- The condition on a route: an issue with `update_authz` is refused, by a trigger or because a
token cannot be made, and no access token of the client is presented. -/
def AuthGuard (env : AuthEnv) (s : AuthState) : AuthEvent → Prop
  | .issue m revocation updateAuthz saves => updateAuthz = true →
      ¬ (RowAllowed env m s.row ∧ TokensEncoded env m (s.row.renew env m revocation.halves) ∧
        (saves = true → env.client.clientType ≠ .Admin))
  | .revoke _ => True
  | .selfIssue _ clientToken => ∀ token, clientToken = some token →
      token ∉ s.current ∧ token ∉ s.old ∧ ¬ OwnToken env token

/-! ## Issues -/

section Issue

variable {env : AuthEnv} {m : Moment} {row row' : ChallengeRecord} {tokens : String × String}

theorem saveIf_iff {saves : Bool} {result : Unit} :
    env.saveIf saves = .ok result ↔ (saves = true → env.client.clientType ≠ .Admin) := by
  unfold AuthEnv.saveIf AuthEnv.saveClient
  split_ifs with hsaves hadmin
  · exact iff_of_false (fun h => nomatch h) fun h => h hsaves hadmin
  · exact iff_of_true rfl fun _ => hadmin
  · exact iff_of_true rfl fun h => absurd h hsaves

/-- An issue goes through with `update_authz` as it does without, and leaves the same row. -/
theorem exec_issue_iff {revocation : Revocation} {updateAuthz saves : Bool} :
    (AuthEvent.issue m revocation updateAuthz saves).exec env row = .ok (some tokens, row') ↔
      row' = row.renew env m revocation.halves ∧ RowAllowed env m row ∧
        env.codec.encode (env.refreshClaims m row') = some tokens.2 ∧
          env.codec.encode (env.authClaims m row') = some tokens.1 ∧
            (saves = true → env.client.clientType ≠ .Admin) := by
  change (_ >>= _) = _ ↔ _
  rw [bind_ok_iff]
  constructor
  · rintro ⟨between, hrevoke, hrest⟩
    obtain ⟨rfl, hallowed⟩ := rawRevoke_record_iff.mp hrevoke
    obtain ⟨⟨tokens', last⟩, hissue, hend⟩ := bind_ok hrest
    obtain ⟨rfl, -, hrefresh, hauth⟩ := issueAuth_iff.mp hissue
    obtain ⟨_, hsaved, hok⟩ := bind_ok hend
    cases hok
    exact ⟨rfl, hallowed, hrefresh, hauth, saveIf_iff.mp hsaved⟩
  · rintro ⟨rfl, hallowed, hrefresh, hauth, hadmin⟩
    refine ⟨_, rawRevoke_record_iff.mpr ⟨rfl, hallowed⟩, bind_ok_iff.mpr ⟨(tokens, _),
      issueAuth_iff.mpr ⟨rfl, fun _ => rowAllowed_renew.mpr hallowed, hrefresh, hauth⟩, ?_⟩⟩
    exact bind_ok_iff.mpr ⟨(), saveIf_iff.mpr hadmin, rfl⟩

/-- An issue with `update_authz` does what is owed where it is refused: the identifier stays. -/
theorem authRight_issue_iff {s : AuthState} {revocation : Revocation} {updateAuthz saves : Bool} :
    AuthRight env s (.issue m revocation updateAuthz saves) ↔
      AuthGuard env s (.issue m revocation updateAuthz saves) := by
  refine imp_congr_right fun _ => ?_
  constructor
  · rintro h ⟨hallowed, ⟨hrefresh, hauth⟩, hadmin⟩
    obtain ⟨refreshToken, hrefresh⟩ := Option.ne_none_iff_exists'.mp hrefresh
    obtain ⟨authToken, hauth⟩ := Option.ne_none_iff_exists'.mp hauth
    have hexec : (AuthEvent.issue m revocation updateAuthz saves).exec env s.row =
        .ok (some (authToken, refreshToken), _) :=
      exec_issue_iff.mpr ⟨rfl, hallowed, hrefresh, hauth, hadmin⟩
    exact (h _ _ hexec).1 rfl
  · intro h tokens row' hexec
    obtain ⟨rfl, hallowed, hrefresh, hauth, hadmin⟩ := exec_issue_iff.mp hexec
    refine absurd ⟨hallowed, ⟨?_, ?_⟩, hadmin⟩ h
    · exact Option.ne_none_iff_exists'.mpr ⟨_, hrefresh⟩
    · exact Option.ne_none_iff_exists'.mpr ⟨_, hauth⟩

end Issue

/-! ## Tokens that are presented -/

section Present

variable {env : AuthEnv} {token : String}

/-- The claims of an access token that `_decode_and_verify` asks for. -/
theorem getItem_accessClaims (jwt : JwtEnv) (authzId clientId challenge : String)
    (groupId : Option String) (time : ℚ) (salt : Bytes) :
    let claims := (TokenRequest.auth authzId clientId challenge groupId).permission jwt time salt
    getItem claims "client_id" = .ok (.text clientId) ∧
      getItem claims "generation_id" = .ok (TokenRequest.optional jwt.generationId) ∧
        getItem claims "issued_for" = .error .keyError := by
  simp only [TokenRequest.permission, Dict.ofEntries, List.foldl_cons, List.foldl_nil, getItem,
    Dict.get?_set, Dict.get?_empty]
  exact ⟨rfl, rfl, rfl⟩

/-- Claims without `issued_for` are refused for another client or another generation, or the claim
is missed. -/
theorem decodeAndVerify_of_missing {claims : Claims} {clientId : String} {generationId : Claim}
    (h : env.codec.decode token = .ok claims)
    (hclient : getItem claims "client_id" = .ok (.text clientId))
    (hgeneration : getItem claims "generation_id" = .ok generationId)
    (hissued : getItem claims "issued_for" = .error .keyError) :
    env.decodeAndVerify token = .error .keyError ↔
      clientId = env.client.clientId ∧
        generationId = TokenRequest.optional env.jwt.generationId := by
  have hrun : env.decodeAndVerify token =
      if Claim.text clientId ≠ .text env.client.clientId then
        .error (.httpException 403 "Client ID mismatch")
      else if generationId ≠ TokenRequest.optional env.jwt.generationId then
        .error (.httpException 403 "Generation ID mismatch")
      else .error .keyError := by
    unfold AuthEnv.decodeAndVerify
    rw [h]
    simp only [bind, Except.bind, hclient, hgeneration, hissued]
  rw [hrun]
  split_ifs with hid hgen
  · exact iff_of_false (fun h => nomatch h) fun h => hid (congrArg Claim.text h.1)
  · exact iff_of_false (fun h => nomatch h) fun h => hgen h.2
  · exact iff_of_true rfl ⟨Claim.text.inj (not_not.mp hid), not_not.mp hgen⟩

/-- The generation of a token is the one that it was made under. -/
theorem optional_injective : Function.Injective TokenRequest.optional := by
  rintro (_ | a) (_ | b) h
  · rfl
  · cases h
  · cases h
  · rw [Claim.text.inj h]

/-- **No access token has `issued_for`**: a well-formed token makes `_decode_and_verify` miss it
exactly if it is one of the client, and decoded. -/
theorem decodeAndVerify_keyError_iff (h : WellFormedToken env token) :
    env.decodeAndVerify token = .error .keyError ↔ OwnToken env token := by
  obtain ⟨generationId, authzId, clientId, challenge, groupId, time, salt, hencode⟩ := h
  obtain ⟨hclient, hgeneration, hissued⟩ := getItem_accessClaims
    { env.jwt with generationId := generationId } authzId clientId challenge groupId time salt
  rcases env.codec.decode_encode _ _ hencode with hdecode | hrefused
  · rw [decodeAndVerify_of_missing hdecode hclient hgeneration hissued]
    constructor
    · rintro ⟨rfl, hgen⟩
      cases optional_injective hgen
      exact ⟨authzId, challenge, groupId, time, salt, hencode, hdecode⟩
    · rintro ⟨authzId', challenge', groupId', time', salt', -, hdecode'⟩
      have hsame := Except.ok.inj (hdecode.symm.trans hdecode')
      obtain ⟨hclient', hgeneration', -⟩ := getItem_accessClaims env.jwt authzId'
        env.client.clientId challenge' groupId' time' salt'
      rw [← hsame] at hclient' hgeneration'
      exact ⟨Claim.text.inj (Except.ok.inj (hclient.symm.trans hclient')),
        Except.ok.inj (hgeneration.symm.trans hgeneration')⟩
  · refine iff_of_false (fun herror => ?_) ?_
    · unfold AuthEnv.decodeAndVerify at herror
      rw [hrefused] at herror
      cases herror
    · rintro ⟨_, _, _, _, _, -, hdecode⟩
      rw [hrefused] at hdecode
      cases hdecode

end Present

/-! ## Runs -/

section Runs

variable {env : AuthEnv} {s : AuthState} {row row' : ChallengeRecord}

/-- An access token that was made for the client. -/
def GivenToken (env : AuthEnv) (token : String) : Prop :=
  ∃ (authzId challenge : String) (groupId : Option String) (time : ℚ) (salt : Bytes),
    env.codec.encode ((TokenRequest.auth authzId env.client.clientId challenge groupId).permission
      env.jwt time salt) = some token

theorem GivenToken.wellFormed {token : String} (h : GivenToken env token) :
    WellFormedToken env token := by
  obtain ⟨authzId, challenge, groupId, time, salt, hencode⟩ := h
  exact ⟨env.jwt.generationId, authzId, _, challenge, groupId, time, salt, hencode⟩

/-- What a route answers is a token of the client. -/
theorem given_of_exec {event : AuthEvent} {tokens : String × String}
    (h : event.exec env row = .ok (some tokens, row')) : GivenToken env tokens.1 := by
  have hgiven (m : Moment) (hauth : env.codec.encode (env.authClaims m row') = some tokens.1) :
      GivenToken env tokens.1 := ⟨_, _, _, _, _, hauth⟩
  cases event with
  | issue m revocation updateAuthz saves =>
    obtain ⟨-, -, -, hauth, -⟩ := exec_issue_iff.mp h
    exact hgiven m hauth
  | revoke m =>
    obtain ⟨_, -, h⟩ := bind_ok h
    obtain ⟨_, -, h⟩ := bind_ok h
    cases h
  | selfIssue m clientToken =>
    obtain ⟨_, -, h⟩ := bind_ok h
    obtain ⟨_, -, h⟩ := bind_ok h
    obtain ⟨⟨tokens', row''⟩, hissue, h⟩ := bind_ok h
    obtain ⟨_, -, h⟩ := bind_ok h
    cases h
    obtain ⟨rfl, -, -, hauth⟩ := issueAuth_iff.mp hissue
    exact hgiven m hauth

/-- The tokens of a state are tokens of the client. -/
def AllGiven (env : AuthEnv) (s : AuthState) : Prop :=
  ∀ token, token ∈ s.current ∨ token ∈ s.old → GivenToken env token

/-- **The step lemma.** -/
theorem allGiven_step (event : AuthEvent) (h : AllGiven env s) :
    AllGiven env (authStep env s event) := by
  unfold authStep
  cases hexec : event.exec env s.row with
  | error e => exact h
  | ok result =>
    obtain ⟨_ | ⟨authToken, refreshToken⟩, row'⟩ := result
    · exact h
    have hgiven : GivenToken env authToken := given_of_exec hexec
    dsimp only
    split_ifs
    · rintro token (hcurrent | hold)
      · rw [List.mem_singleton.mp hcurrent]
        exact hgiven
      · exact h token (List.mem_append.mp hold)
    · rintro token (hcurrent | hold)
      · rcases List.mem_cons.mp hcurrent with rfl | hmem
        · exact hgiven
        · exact h token (.inl hmem)
      · exact h token (.inr hold)

variable (row) in
/-- A token of the client is refused, or a claim of it is missed: it is never admitted, and never
compared. -/
theorem checkClientToken_given {token : String} (h : GivenToken env token) :
    env.checkClientToken row (some token) = .error .keyError ∨
      env.checkClientToken row (some token) = .error (.httpException 403 "Invalid token") := by
  have hcheck {e : PyErr} (hverify : env.decodeAndVerify token = .error e) :
      env.checkClientToken row (some token) = .error e := by
    unfold AuthEnv.checkClientToken
    dsimp only
    rw [hverify]
    rfl
  have hwell := h.wellFormed
  obtain ⟨authzId, challenge, groupId, time, salt, hencode⟩ := h
  rcases env.codec.decode_encode _ _ hencode with hdecode | hrefused
  · left
    refine hcheck ((decodeAndVerify_keyError_iff hwell).mpr ?_)
    exact ⟨authzId, challenge, groupId, time, salt, hencode, hdecode⟩
  · right
    refine hcheck ?_
    unfold AuthEnv.decodeAndVerify
    rw [hrefused]
    rfl

/-- What is owed when a token is presented is done where no token of the client is. -/
theorem authRight_selfIssue_iff {m : Moment} {clientToken : Option String} (hs : AllGiven env s) :
    AuthRight env s (.selfIssue m clientToken) ↔ AuthGuard env s (.selfIssue m clientToken) := by
  refine forall_congr' fun token => imp_congr_right fun _ => ?_
  constructor
  · rintro ⟨hcurrent, hold, hwell⟩
    refine ⟨fun hmem => ?_, fun hmem => ?_, fun hown => ?_⟩
    · have hok := hcurrent hmem
      rcases checkClientToken_given s.row (hs token (.inl hmem)) with h | h
      · rw [h] at hok
        cases hok
      · rw [h] at hok
        cases hok
    · have hmismatch := hold hmem
      rcases checkClientToken_given s.row (hs token (.inr hmem)) with h | h
      · rw [h] at hmismatch
        cases hmismatch
      · rw [h] at hmismatch
        cases hmismatch
    · have hgiven : GivenToken env token := by
        obtain ⟨authzId, challenge, groupId, time, salt, hencode, -⟩ := hown
        exact ⟨authzId, challenge, groupId, time, salt, hencode⟩
      exact hwell hgiven.wellFormed ((decodeAndVerify_keyError_iff hgiven.wellFormed).mpr hown)
  · rintro ⟨hcurrent, hold, hown⟩
    refine ⟨fun hmem => absurd hmem hcurrent, fun hmem => absurd hmem hold, fun hwell herror => ?_⟩
    exact hown ((decodeAndVerify_keyError_iff hwell).mp herror)

/-- **Exactly the runs in which no issue with `update_authz` goes through, and in which the client
never presents an access token,** give what is owed of the authorization identifier. -/
theorem authRunRight_iff (env : AuthEnv) (row : ChallengeRecord) (events : List AuthEvent) :
    AuthRunRight env row events ↔ Always (authStep env) (AuthGuard env) { row } events := by
  refine always_congr_of_inv (I := AllGiven env) (fun s event => allGiven_step event)
    (fun s event hs => ?_) ?_
  · cases event with
    | issue m revocation updateAuthz saves => exact authRight_issue_iff
    | revoke m => exact Iff.rfl
    | selfIssue m clientToken => exact authRight_selfIssue_iff hs
  · rintro token (h | h)
    · cases h
    · cases h

/-- A client, and a service whose keystream is zero. -/
def plainAuthEnv : AuthEnv where
  jwt := { JwtEnv.plain with jwtEncode := fun _ _ _ => .ok "e30" }
  codec := { JwtEnv.plain with jwtEncode := fun _ _ _ => .ok "e30" : JwtEnv }.codec
  client :=
    { clientName := none, clientDescription := "", clientScope := .Free, issuedFor := "i"
      group := none, password := "", passwordSalt := "", canLogin := false, authenticated := false
      clientId := "c1", clientUsername := "u", clientType := .User, authType := .ACCESS_TOKEN
      groupFetched := false }

/-- One issue with `update_authz`: the identifier that its token carries is the one from before. -/
theorem not_authRunRight : ¬ ∀ (env : AuthEnv) (row : ChallengeRecord) (events : List AuthEvent),
    AuthRunRight env row events := by
  intro h
  let row : ChallengeRecord := ⟨⟨"a", some 0, some 10⟩, ⟨"r", some 0, some 20⟩, "z"⟩
  let m : Moment := ⟨5, fun _ _ => "x", "fresh", 0, [], 0, []⟩
  have hright : AuthRight plainAuthEnv { row } (.issueAuthToken m) :=
    (h plainAuthEnv row [.issueAuthToken m]).1
  have hencode (claims : Claims) : plainAuthEnv.codec.encode claims = some "ZTMw" := by
    have hvalue : encodeValue .plain "e30" (some "0123456789abcdef0123456789abcdef") =
        .ok "ZTMw" := by decide +kernel
    exact congrArg Except.toOption hvalue
  have hallowed : RowAllowed plainAuthEnv m row := by
    rintro (_ | _)
    · exact ⟨10, rfl, by decide⟩
    · exact ⟨20, rfl, by decide⟩
  have hexec : (AuthEvent.issueAuthToken m).exec plainAuthEnv row =
      .ok (some ("ZTMw", "ZTMw"), row.renew plainAuthEnv m [.auth, .refresh]) :=
    exec_issue_iff.mpr ⟨rfl, hallowed, hencode _, hencode _, fun _ => by decide⟩
  exact (hright rfl _ _ hexec).1 rfl

end Runs

end Notifyr
