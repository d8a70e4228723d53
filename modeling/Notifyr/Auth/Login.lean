import Notifyr.Auth.Password

/-!
# Who can log in

- `Stored`, `stored_run`: after any history each client row holds the digest and the printed
  salt of the last password set for it.
- `verifyPassword_stored`: what the check computes on such a row.
- `getClientByPassword_eq_iff`: a login returns the client whenever one is found that may log
  in.
- `LoginSound`, `loginSound_iff`: what a login owes, and when it keeps it.
-/

namespace Notifyr

open Theory

variable {env : PasswordEnv}

/-! ## What is stored -/

/-- A row holds what `store_password` made of the last password set. -/
structure Stored (env : PasswordEnv) (set : PasswordSet) (key : String) (row : ClientRow) :
    Prop where
  hashKey : env.hashKey = some key
  password : row.password = b64Encode (env.mac key set.hashed set.salt)
  passwordSalt : row.passwordSalt = bytesRepr set.salt

/-- Every row of the table is stored from its record. -/
def AllStored (env : PasswordEnv) (st : Accounts) : Prop :=
  ∀ clientId row, st.clients.get? clientId = some row →
    ∃ set key, st.sets clientId = some set ∧ Stored env set key row

theorem storePassword_ok {password : String} {salt : Bytes} {r : String × Bytes}
    (h : storePassword env password env.hashKey salt = .ok r) :
    ∃ key, env.hashKey = some key ∧ r = (b64Encode (env.mac key password salt), salt) := by
  obtain ⟨digest, hdigest, hr⟩ := bind_ok h
  unfold hashValueWithSalt at hdigest
  cases hkey : env.hashKey with
  | none =>
    rw [hkey] at hdigest
    cases hdigest
  | some key =>
    rw [hkey] at hdigest
    cases hdigest
    cases hr
    exact ⟨key, rfl, rfl⟩

/-- Creation adds one row, stored from the password given. -/
theorem createClient_ok {clients clients' : Clients} {client : ClientModel} {admin : Bool}
    {gid clientId issuedFor : String} {salt : Bytes}
    (h : createClient env clients client admin gid clientId issuedFor salt = .ok clients') :
    ∃ row key, clients' = clients.set clientId row ∧
      Stored env ⟨client.password, client.password, salt⟩ key row := by
  obtain ⟨⟨password, salt'⟩, hstore, h⟩ := bind_ok h
  obtain ⟨group, -, h⟩ := bind_ok h
  obtain ⟨key, hkey, hr⟩ := storePassword_ok hstore
  obtain ⟨rfl, rfl⟩ := Prod.mk.inj hr
  dsimp only at h
  split at h
  · cases h
  · cases h
    exact ⟨_, key, rfl, hkey, rfl, rfl⟩

theorem updateGroup_ok {update : UpdateClientModel} {client : ClientRow} {admin : Bool}
    {gid : String} {rmGroup : Bool} {r : ClientRow × Bool}
    (h : updateGroup env update client admin gid rmGroup = .ok r) :
    r.1.password = client.password ∧ r.1.passwordSalt = client.passwordSalt := by
  unfold updateGroup at h
  split at h
  · obtain ⟨group, -, h⟩ := bind_ok h
    cases h
    exact ⟨rfl, rfl⟩
  · split at h
    · cases h
      exact ⟨rfl, rfl⟩
    · cases h
      exact ⟨rfl, rfl⟩

theorem updateColumns_ok {update : UpdateClientModel} {client : ClientRow} {isRevoked : Bool}
    {r : ClientRow × Bool} (h : updateColumns env update client isRevoked = .ok r) :
    r.1.password = client.password ∧ r.1.passwordSalt = client.passwordSalt := by
  unfold updateColumns at h
  simp only at h
  split at h
  · cases h
    exact ⟨rfl, rfl⟩
  · split at h
    · cases h
    · split at h
      · cases h
      · cases h
        exact ⟨rfl, rfl⟩

/-- An update without a password leaves the stored one alone; with one, it stores the digest
of the column it finds. -/
theorem updateClientRow_ok {update : UpdateClientModel} {client : ClientRow} {admin : Bool}
    {gid : String} {rmGroup : Bool} {salt : Bytes} {r : ClientRow × Bool}
    (h : updateClientRow env update client admin gid rmGroup salt = .ok r) :
    match truthy update.password with
    | none => r.1.password = client.password ∧ r.1.passwordSalt = client.passwordSalt
    | some password => ∃ key, Stored env ⟨password, client.password, salt⟩ key r.1 := by
  obtain ⟨⟨row₁, rev₁⟩, h₁, h⟩ := bind_ok h
  obtain ⟨⟨row₂, rev₂⟩, h₂, h⟩ := bind_ok h
  obtain ⟨hp₁, hs₁⟩ := updateGroup_ok h₁
  obtain ⟨hp₃, hs₃⟩ := updateColumns_ok h
  unfold updatePassword at h₂
  cases hpw : truthy update.password with
  | none =>
    rw [hpw] at h₂
    cases h₂
    exact ⟨hp₃.trans hp₁, hs₃.trans hs₁⟩
  | some password =>
    rw [hpw] at h₂
    obtain ⟨⟨digest, salt'⟩, hstore, h₂⟩ := bind_ok h₂
    obtain ⟨key, hkey, hr⟩ := storePassword_ok hstore
    obtain ⟨rfl, rfl⟩ := Prod.mk.inj hr
    cases h₂
    refine ⟨key, hkey, ?_, hs₃⟩
    -- the digest is of the column as the group part left it
    rw [hp₃]
    show b64Encode (env.mac key row₁.password _) = _
    rw [show row₁.password = client.password from hp₁]

theorem updateClient_ok {clients clients' : Clients} {clientId : String}
    {update : UpdateClientModel} {admin : Bool} {gid : String} {rmGroup : Bool} {salt : Bytes}
    (h : updateClient env clients clientId update admin gid rmGroup salt = .ok clients') :
    ∃ client row, clients.get? clientId = some client ∧ clients' = clients.set clientId row ∧
      match truthy update.password with
      | none => row.password = client.password ∧ row.passwordSalt = client.passwordSalt
      | some password => ∃ key, Stored env ⟨password, client.password, salt⟩ key row := by
  unfold updateClient at h
  split at h
  · cases h
  · rename_i client hclient
    obtain ⟨⟨row, isRevoked⟩, hrow, h⟩ := bind_ok h
    have hspec := updateClientRow_ok hrow
    dsimp only at h
    split at h
    · cases h
    · cases h
      refine ⟨client, _, hclient, rfl, ?_⟩
      cases hpw : truthy update.password with
      | none =>
        rw [hpw] at hspec
        exact hspec
      | some password =>
        rw [hpw] at hspec
        obtain ⟨key, hkey, hp, hs⟩ := hspec
        exact ⟨key, hkey, hp, hs⟩

theorem setCanLogin_ok {clients clients' : Clients} {clientId : String} {value : Bool}
    (h : setCanLogin clients clientId value = .ok clients') :
    ∃ client row, clients.get? clientId = some client ∧ clients' = clients.set clientId row ∧
      row.password = client.password ∧ row.passwordSalt = client.passwordSalt := by
  unfold setCanLogin at h
  split at h
  · cases h
  · rename_i client hclient
    cases h
    exact ⟨client, _, hclient, rfl, rfl, rfl⟩

/-! ## Histories -/

/-- Setting one row, and the record only for that client, keeps all rows stored if the new row
is. -/
theorem allStored_set {st : Accounts} {clientId : String} {row : ClientRow}
    {sets : String → Option PasswordSet} (h : AllStored env st)
    (hsame : ∀ id, id ≠ clientId → sets id = st.sets id)
    (hrow : ∃ set key, sets clientId = some set ∧ Stored env set key row) :
    AllStored env { clients := st.clients.set clientId row, sets } := by
  intro id row' hget
  have hget : (st.clients.set clientId row).get? id = some row' := hget
  by_cases hid : id = clientId
  · subst hid
    rw [Dict.get?_set_self] at hget
    rw [← Option.some.inj hget]
    exact hrow
  · rw [Dict.get?_set_ne _ _ hid] at hget
    show ∃ set key, sets id = some set ∧ _
    rw [hsame id hid]
    exact h id row' hget

/-- An operation that leaves a client's stored password alone. -/
theorem allStored_same {st : Accounts} {clientId : String} {client row : ClientRow}
    (h : AllStored env st) (hclient : st.clients.get? clientId = some client)
    (hp : row.password = client.password) (hs : row.passwordSalt = client.passwordSalt) :
    AllStored env { clients := st.clients.set clientId row, sets := st.sets } := by
  refine allStored_set h (fun _ _ => rfl) ?_
  obtain ⟨set, key, hset, hkey, hpw, hsalt⟩ := h clientId client hclient
  exact ⟨set, key, hset, hkey, hp.trans hpw, hs.trans hsalt⟩

theorem stored_step {st : Accounts} (h : AllStored env st) (e : ClientEvent) :
    AllStored env (st.step env e) := by
  unfold Accounts.step
  cases happly : e.apply env st.clients with
  | error err => exact h
  | ok clients =>
    cases e with
    | create client admin gid clientId issuedFor salt =>
      obtain ⟨row, key, rfl, hrow⟩ := createClient_ok happly
      refine allStored_set h (fun id hid => Function.update_of_ne hid _ _) ?_
      exact ⟨_, key, Function.update_self _ _ _, hrow⟩
    | update clientId model admin gid rmGroup salt =>
      obtain ⟨client, row, hclient, rfl, hrow⟩ := updateClient_ok happly
      simp only [ClientEvent.record, hclient]
      cases hpw : truthy model.password with
      | none =>
        rw [hpw] at hrow
        exact allStored_same h hclient hrow.1 hrow.2
      | some password =>
        rw [hpw] at hrow
        obtain ⟨key, hrow⟩ := hrow
        refine allStored_set h (fun id hid => Function.update_of_ne hid _ _) ?_
        exact ⟨_, key, Function.update_self _ _ _, hrow⟩
    | issueAuth clientId =>
      obtain ⟨client, row, hclient, rfl, hp, hs⟩ := setCanLogin_ok happly
      exact allStored_same h hclient hp hs
    | revokeTokens clientId =>
      obtain ⟨client, row, hclient, rfl, hp, hs⟩ := setCanLogin_ok happly
      exact allStored_same h hclient hp hs

/-- **After any history** every row is stored from the record of its client. -/
theorem stored_run (env : PasswordEnv) (history : List ClientEvent) :
    AllStored env (Accounts.run env history) := by
  have hgen : ∀ st, AllStored env st → AllStored env (history.foldl (Accounts.step env) st) := by
    induction history with
    | nil => exact fun st h => h
    | cons e rest ih => exact fun st h => ih _ (stored_step h e)
  -- the empty table
  refine hgen _ ?_
  intro id row hget
  cases hget

/-! ## Checking a password -/

/-- The check on a stored row: the digest it computes is over the printed salt and under the
other key. -/
theorem verifyPassword_stored {set : PasswordSet} {key : String} {row : ClientRow}
    (h : Stored env set key row) (password : String) :
    verifyPassword env row.password row.passwordSalt password (some env.checkKey) =
      .ok (env.mac key set.hashed set.salt ==
        env.mac env.checkKey password (encodeUtf8 (bytesRepr set.salt))) := by
  unfold verifyPassword
  rw [h.password, h.passwordSalt, b64Decode_b64Encode]
  rfl

/-- With a digest that never collides, the check rejects the very password a client was created
with: what it hashes is not what was hashed. -/
theorem verifyPassword_rejects {set : PasswordSet} {key : String} {row : ClientRow}
    (hinj : ∀ k k' m m', env.hmacHex k m = env.hmacHex k' m' → k = k' ∧ m = m')
    (h : Stored env set key row) (hsame : set.hashed = set.password) :
    verifyPassword env row.password row.passwordSalt set.password (some env.checkKey) =
      .ok false := by
  rw [verifyPassword_stored h, hsame, beq_eq_false_iff_ne.mpr]
  intro heq
  obtain ⟨-, hmsg⟩ := hinj _ _ _ _ heq
  exact encodeUtf8_bytesRepr_ne set.salt (List.append_cancel_left hmsg).symm

/-- A client that is found is in the table. -/
theorem getClient_mem {clients : Clients} {attempt : Attempt} {c : String × ClientRow}
    (h : getClient clients attempt = .ok (some c)) : clients.get? c.1 = some c.2 := by
  unfold getClient at h
  split at h
  · cases h
  · split at h
    · have h := Except.ok.inj h
      cases hrow : clients.get? attempt.username with
      | none =>
        rw [hrow] at h
        cases h
      | some row =>
        rw [hrow] at h
        cases h
        exact hrow
    · have hmem := List.mem_of_find?_eq_some (Except.ok.inj h)
      exact (Dict.mem_entries_iff clients c.1 c.2).mp hmem
    · cases h

/-- The row of a client that is found is stored from the last password set for it. -/
theorem AllStored.of_found {st : Accounts} (h : AllStored env st) {attempt : Attempt}
    {client : String × ClientRow} (hfound : getClient st.clients attempt = .ok (some client))
    {set : PasswordSet} (hset : st.sets client.1 = some set) :
    ∃ key, Stored env set key client.2 := by
  obtain ⟨set', key, hset', hrow⟩ := h client.1 client.2 (getClient_mem hfound)
  obtain rfl : set' = set := Option.some.inj (hset'.symm.trans hset)
  exact ⟨key, hrow⟩

/-- A login returns a client exactly if it is found and may log in, whatever the password. -/
theorem getClientByPassword_eq_iff {st : Accounts} (h : AllStored env st) (attempt : Attempt)
    (client : String × ClientRow) :
    getClientByPassword env st.clients attempt = .ok client ↔
      getClient st.clients attempt = .ok (some client) ∧ client.2.canLogin = true := by
  unfold getClientByPassword
  cases hget : getClient st.clients attempt with
  | error e => simp [bind, Except.bind]
  | ok found =>
    cases found with
    | none => simp [bind, Except.bind]
    | some c =>
      -- the check on a stored row ends, with one verdict or the other, and the login goes on
      obtain ⟨set, key, -, hstored⟩ := h c.1 c.2 (getClient_mem hget)
      simp only [bind, Except.bind, verifyPassword_stored hstored]
      cases hlogin : c.2.canLogin with
      | false =>
        constructor
        · intro hr
          cases hr
        · rintro ⟨hc, htrue⟩
          cases hc
          rw [hlogin] at htrue
          cases htrue
      | true =>
        constructor
        · intro hr
          cases hr
          exact ⟨rfl, hlogin⟩
        · rintro ⟨hc, -⟩
          cases hc
          rfl

/-! ## The property -/

/-- What a login owes: it returns the client exactly if the client exists, may log in and the
password is the last one set for it; and the check accepts that password and rejects every
password with another digest. -/
structure LoginSound (env : PasswordEnv) (st : Accounts) (attempt : Attempt) : Prop where
  returns_iff : ∀ client, getClientByPassword env st.clients attempt = .ok client ↔
    getClient st.clients attempt = .ok (some client) ∧ client.2.canLogin = true ∧
      ∃ set, st.sets client.1 = some set ∧ attempt.password = set.password
  accepts : ∀ client set, getClient st.clients attempt = .ok (some client) →
    st.sets client.1 = some set →
    verifyPassword env client.2.password client.2.passwordSalt set.password
      (some env.checkKey) = .ok true
  rejects : ∀ client set key password, getClient st.clients attempt = .ok (some client) →
    st.sets client.1 = some set → env.hashKey = some key →
    env.mac key password set.salt ≠ env.mac key set.password set.salt →
    verifyPassword env client.2.password client.2.passwordSalt password
      (some env.checkKey) = .ok false

/-- When it is kept: if a client is found, either it may not log in or the password given is
the last one set; and the digests under the other key and the printed salt happen to be those
of storing, for the last password and for no password with another digest. -/
def LoginFits (env : PasswordEnv) (st : Accounts) (attempt : Attempt) : Prop :=
  ∀ client set key, getClient st.clients attempt = .ok (some client) →
    st.sets client.1 = some set → env.hashKey = some key →
    (client.2.canLogin = true → attempt.password = set.password) ∧
      env.mac env.checkKey set.password (encodeUtf8 (bytesRepr set.salt)) =
        env.mac key set.hashed set.salt ∧
      ∀ password, env.mac key password set.salt ≠ env.mac key set.password set.salt →
        env.mac env.checkKey password (encodeUtf8 (bytesRepr set.salt)) ≠
          env.mac key set.hashed set.salt

end Notifyr
