import Notifyr.Ressource.AdminRessource

/-!
# What the cache holds of a client

The entries of `ClientORMCache` and `AuthPermissionCache` against the tables.

- `clientText`, `permissionText`: the keys; parts without `/` can be read off.
- `Orm.Restores`: what the code relies on of Tortoise. An instance made of the JSON of a client
  has its columns, and a relation that can be read is that of its foreign key.
- `currentPolicies`: `get_combined_policies` of a row.
- `EntryRight`: what an entry reads as is what the tables have; `Current` says so of the whole
  cache, and that the tables keep their constraints.
- `cachedClient_spec`, `permission_spec`: what a request takes from the cache, or puts there.
-/

namespace Notifyr

open Theory JWTAuthMiddleware

/-! ## Keys -/

/-- A part of a key that is no separator in it. -/
def PartFree (s : String) : Prop := '/' ∉ s.toList

/-- The key of a client in `ClientORMCache`. -/
def clientText (g c : String) : String :=
  String.ofList (OrmCacheName.client.keys.text [g, c]).dropLast

/-- Its key in `AuthPermissionCache`. -/
def permissionText (g c : String) : String :=
  String.ofList (OrmCacheName.authPermission.keys.text [g, c]).dropLast

theorem client_builder (g c : String) :
    OrmCacheName.client.keys.builder (.list [g, c]) = .ok (clientText g c) := rfl

theorem permission_builder (g c : String) :
    OrmCacheName.authPermission.keys.builder (.list [g, c]) = .ok (permissionText g c) := rfl

theorem pair_inj {n : OrmCacheName} {g c g' c' k : String} (hg : PartFree g) (hc : PartFree c)
    (hg' : PartFree g') (hc' : PartFree c') (h : n.keys.builder (.list [g, c]) = .ok k)
    (h' : n.keys.builder (.list [g', c']) = .ok k) : g = g' ∧ c = c' := by
  have hfree : ∀ {g c : String}, PartFree g → PartFree c →
      ∀ s ∈ n.prefixes ++ (StrOrList.list [g, c]).parts, '/' ∉ s.toList := by
    intro g c hg hc s hs
    rcases List.mem_append.mp hs with hs | hs
    · exact (prefixes_free n).2 s hs
    · rcases List.mem_cons.mp hs with rfl | hs
      · exact hg
      · exact List.mem_singleton.mp hs ▸ hc
  obtain ⟨-, hparts⟩ := builder_inj '/' (.list [g, c]) (.list [g', c']) (hfree hg hc)
    (hfree hg' hc') (prefixes_free n).1 (prefixes_free n).1 h h'
  cases hparts
  exact ⟨rfl, rfl⟩

theorem clientText_ne_permissionText (g c g' c' : String) : clientText g c ≠ permissionText g' c' :=
  text_ne (n := .client) (m := .authPermission) nofun (client_builder g c)
    (permission_builder g' c')

/-! ## What the code relies on -/

/-- The two instances are the same to every check. -/
structure SameChecks (i row : ClientORM) : Prop where
  clientId : i.clientId = row.clientId
  group : i.group = row.group
  clientScope : i.clientScope = row.clientScope
  issuedFor : i.issuedFor = row.issuedFor
  authenticated : i.authenticated = row.authenticated
  clientType : i.clientType = row.clientType

/-- What the code relies on of Tortoise. -/
structure Orm.Restores (orm : Orm) : Prop where
  construct : ∀ client i, orm.constructClient (clientJson client) = .ok i → SameChecks i client
  unfetched : ∀ foreignKey v, orm.unfetched foreignKey = .ok v → v = foreignKey

/-- The group of an instance, if it can be read. -/
theorem Orm.Restores.groupKey {orm : Orm} (h : orm.Restores) {client : ClientORM}
    {group : Option String} (hgroup : client.groupKey orm = .ok group) : group = client.group := by
  unfold ClientORM.groupKey at hgroup
  split at hgroup
  · exact (Except.ok.inj hgroup).symm
  · exact h.unfetched _ _ hgroup

/-! ## Texts -/

theorem strList_plain (l : List String) : (strList l).Plain := by
  have hitems : ∀ l : List String, PlainItems (l.map (PyVal.str (μ := SecurityModel))) := by
    intro l
    induction l with
    | nil => exact trivial
    | cons s l ih =>
      rw [List.map_cons, PlainItems]
      exact ⟨by simp only [PyVal.Plain], ih⟩
  unfold strList
  rw [PyVal.Plain]
  exact hitems l

theorem clientJson_plain (client : ClientORM) : PlainEntries (clientJson client) := by
  have hoptional : ∀ s, (optionalStr s).Plain := fun s => by
    cases s <;> simp only [optionalStr, PyVal.Plain]
  simp only [clientJson, PlainEntries, PyVal.Plain, hoptional, and_self]

/-- The text of a client. -/
theorem textOf_client {δ : Type} {T : CacheType δ SecurityModel} {orm : Orm}
    (hT : T.type_ = .model orm.clientClass) (hjson : T.useToJson = true) (client : ClientORM) :
    T.textOf (.model (.client client)) = .ok (.dumped (.dict (clientJson client))) := by
  have htemp : T.temp (.model (.client client)) = .ok (.dict (clientJson client)) := by
    unfold CacheType.temp
    rw [hT, hjson]
    rfl
  unfold CacheType.textOf
  rw [htemp]
  show (jsonEntries (clientJson client) >>= fun es => _ : Py (RedisText SecurityModel)) = _
  rw [jsonEntries_of_plain (clientJson_plain client)]
  rfl

/-- Entries that JSON keeps, where it keeps each value that it takes. -/
theorem jsonEntries_eq {μ : Type} {entries es : List (String × PyVal μ)}
    (hsame : ∀ e ∈ entries, ∀ v, jsonValue e.2 = .ok v → v = e.2)
    (h : jsonEntries entries = .ok es) : es = entries := by
  induction entries generalizing es with
  | nil =>
    rw [jsonEntries] at h
    exact (Except.ok.inj h).symm
  | cons e entries ih =>
    obtain ⟨k, v⟩ := e
    rw [jsonEntries] at h
    obtain ⟨v', hv, h⟩ := bind_ok h
    obtain ⟨es', hes, h⟩ := bind_ok h
    cases h
    rw [hsame (k, v) List.mem_cons_self v' hv,
      ih (fun e he => hsame e (List.mem_cons_of_mem _ he)) hes]

theorem jsonValue_plain_eq {μ : Type} {v v' : PyVal μ} (hv : v.Plain) (h : jsonValue v = .ok v') :
    v' = v :=
  Except.ok.inj (h.symm.trans (jsonValue_of_plain hv))

theorem RoutePermission.json_plain (r : RoutePermission) : r.json.Plain := by
  simp only [RoutePermission.json, PyVal.Plain, PlainEntries, strList_plain, and_self]

theorem RouteValue.jsonValue_eq (policies : List PolicyORM) (r : RouteValue) (v : SecurityVal)
    (h : jsonValue (r.json policies) = .ok v) : v = r.json policies := by
  cases r with
  | permission i className =>
    refine jsonValue_plain_eq ?_ h
    unfold RouteValue.json
    dsimp only
    split
    · exact RoutePermission.json_plain _
    · simp only [PyVal.Plain]
  | text s => exact jsonValue_plain_eq (by simp only [RouteValue.json, PyVal.Plain]) h
  | routes l => exact jsonValue_plain_eq (strList_plain l) h
  | genericAlias =>
    rw [RouteValue.json, jsonValue] at h
    cases h

/-- A combination that can be dumped is read back as it was. -/
theorem text_of_combined {c : Combined} {text : RedisText SecurityModel}
    (h : toText c.json = .ok text) : text = .dumped c.json := by
  unfold Combined.json toText at h
  obtain ⟨es, hes, h⟩ := bind_ok h
  cases h
  refine congrArg RedisText.dumped (congrArg PyVal.dict (jsonEntries_eq ?_ hes))
  intro e he v hv
  simp only [List.mem_cons, List.not_mem_nil, or_false] at he
  rcases he with rfl | rfl | rfl | rfl | rfl | rfl
  · exact jsonValue_plain_eq (strList_plain _) hv
  · rw [jsonValue] at hv
    obtain ⟨routes, hroutes, hv⟩ := bind_ok hv
    cases hv
    refine congrArg PyVal.dict (jsonEntries_eq (fun e he v hv => ?_) hroutes)
    obtain ⟨r, -, rfl⟩ := List.mem_map.mp he
    exact RouteValue.jsonValue_eq c.policies r.2 v hv
  · exact jsonValue_plain_eq (strList_plain _) hv
  · exact jsonValue_plain_eq (strList_plain _) hv
  · exact jsonValue_plain_eq (strList_plain _) hv
  · exact jsonValue_plain_eq (strList_plain _) hv

/-! ## What an entry must say -/

/-- `get_combined_policies` of a client of the table, with its group at hand. -/
def currentPolicies (orm : Orm) (db : SecurityDb) (row : ClientORM) : Py Combined :=
  getCombinedPolicies orm.order (db.mappings.filterMap db.loadMapping) ⟨row.clientId, row.group⟩

/-- What a request is given of them. -/
def currentPermission (orm : Orm) (isFile : String → Py Bool) (db : SecurityDb)
    (row : ClientORM) : Py AttachedPermission := do
  attach isFile (← currentPolicies orm db row).json

/-- The constraints of the tables: ids are `UUID`s, and a mapping leads to a policy. -/
structure SecurityDb.Sound (db : SecurityDb) : Prop where
  own : ∀ c row, db.clients.get? c = some row →
    row.clientId = c ∧ PartFree c ∧ PartFree (pyStr row.group)
  groupIds : ∀ g ∈ db.groups.keys, PartFree g
  mapped : ∀ m ∈ db.mappings, m.policyId ∈ db.policies.keys

/-- What `Get` of `ClientORMCache` makes of a text. -/
def clientRead (orm : Orm) (text : RedisText SecurityModel) : Py SecurityVal :=
  CacheType.readBack (δ := SecurityDb)
    (clientORMCache orm.clientClass fun _ _ => .error .keyError) orm.loads text

/-- What `Get` of `AuthPermissionCache` makes of a text. -/
def permissionRead (orm : Orm) (text : RedisText SecurityModel) : Py SecurityVal :=
  CacheType.readBack (δ := SecurityDb)
    (authPermissionCache fun _ _ => .error .typeError) orm.loads text

/-- An instance under an id is the row, to every check. Where there is no row, it is of no use:
it is not authenticated. -/
def ClientRight (db : SecurityDb) (c : String) (i : ClientORM) : Prop :=
  match db.clients.get? c with
  | some row => SameChecks i row
  | none => i.authenticated = false

/-- A permission under an id is that of the row. -/
def PermissionRight (orm : Orm) (db : SecurityDb) (c : String) (v : SecurityVal) : Prop :=
  ∀ row, db.clients.get? c = some row →
    ∃ combined, currentPolicies orm db row = .ok combined ∧ v = combined.json

/-- What an entry reads as is what the tables have, under whatever pair it is read. -/
structure EntryRight (orm : Orm) (db : SecurityDb) (k : String)
    (text : RedisText SecurityModel) : Prop where
  client : ∀ g c, PartFree g → PartFree c → clientText g c = k →
    ∀ i, clientRead orm text = .ok (.model (.client i)) → ClientRight db c i
  permission : ∀ g c, PartFree g → PartFree c → permissionText g c = k →
    ∀ v, permissionRead orm text = .ok v → v.isNone = false → PermissionRight orm db c v

/-- The tables keep their constraints, and the cache says what they have. -/
structure Current (orm : Orm) (w : SecurityWorld) : Prop where
  sound : w.db.Sound
  entries : w.redis.Keeps (EntryRight orm w.db)

variable {orm : Orm} {isFile : String → Py Bool} {db db' : SecurityDb} {w : SecurityWorld}
  {token : TokenPermission} {client row : ClientORM} {g c k : String}
  {text : RedisText SecurityModel}

/-- Entries of the other types say nothing about clients. -/
theorem entryRight_other {n : OrmCacheName} {key : StrOrList} (hn : n ≠ .client)
    (hn' : n ≠ .authPermission) (hk : n.keys.builder key = .ok k) : EntryRight orm db k text where
  client g c _ _ h := absurd h.symm (text_ne (m := .client) hn hk (client_builder g c))
  permission g c _ _ h :=
    absurd h.symm (text_ne (m := .authPermission) hn' hk (permission_builder g c))

/-- The entry of one client. -/
theorem entryRight_client (hg : PartFree g) (hc : PartFree c)
    (h : ∀ i, clientRead orm text = .ok (.model (.client i)) → ClientRight db c i) :
    EntryRight orm db (clientText g c) text where
  client g' c' hg' hc' htext i hi := by
    obtain ⟨-, rfl⟩ := pair_inj (n := .client) hg' hc' hg hc (htext ▸ client_builder g' c')
      (client_builder g c)
    exact h i hi
  permission g' c' _ _ htext := absurd htext.symm (clientText_ne_permissionText g c g' c')

/-- The permission of one client. -/
theorem entryRight_permission (hg : PartFree g) (hc : PartFree c)
    (h : ∀ v, permissionRead orm text = .ok v → v.isNone = false → PermissionRight orm db c v) :
    EntryRight orm db (permissionText g c) text where
  client g' c' _ _ htext := absurd htext (clientText_ne_permissionText g' c' g c)
  permission g' c' hg' hc' htext v hv hnone := by
    obtain ⟨-, rfl⟩ := pair_inj (n := .authPermission) hg' hc' hg hc
      (htext ▸ permission_builder g' c') (permission_builder g c)
    exact h v hv hnone

/-- The tables have for an id what they had. -/
structure SameFor (orm : Orm) (db db' : SecurityDb) (c : String) : Prop where
  row : db'.clients.get? c = db.clients.get? c
  policies : ∀ row, db.clients.get? c = some row →
    currentPolicies orm db' row = currentPolicies orm db row

/-- An entry stays right where the tables have what they had for whomever it is about. -/
theorem EntryRight.sameFor (h : EntryRight orm db k text)
    (hsame : ∀ c, SameFor orm db db' c ∨
      ∀ g, PartFree g → clientText g c ≠ k ∧ permissionText g c ≠ k) :
    EntryRight orm db' k text where
  client g c hg hc htext i hi := by
    rcases hsame c with hsame | hnot
    · have hright := h.client g c hg hc htext i hi
      unfold ClientRight at hright ⊢
      rwa [hsame.row]
    · exact absurd htext (hnot g hg).1
  permission g c hg hc htext v hv hnone row hrow := by
    rcases hsame c with hsame | hnot
    · rw [hsame.row] at hrow
      obtain ⟨combined, hcombined, hjson⟩ := h.permission g c hg hc htext v hv hnone row hrow
      exact ⟨combined, (hsame.policies row hrow).trans hcombined, hjson⟩
    · exact absurd htext (hnot g hg).2

/-! ## What is stored -/

/-- The text of a client reads as the client. -/
theorem clientRead_client (horm : orm.Restores) {i : ClientORM}
    (h : clientRead orm (.dumped (.dict (clientJson client))) = .ok (.model (.client i))) :
    SameChecks i client := by
  have h : (orm.clientClass.construct (clientJson client) >>= fun m => _ : Py SecurityVal) =
      .ok (.model (.client i)) := h
  obtain ⟨m, hm, h⟩ := bind_ok h
  cases h
  obtain ⟨i', hi, hm⟩ := bind_ok hm
  cases hm
  exact horm.construct client _ hi

/-- Policies, as a client with a readable group has them. -/
theorem combinedPolicies_eq (horm : orm.Restores) {combined : Combined}
    (hchecks : SameChecks client row) (h : combinedPolicies orm db client = .ok combined) :
    currentPolicies orm db row = .ok combined := by
  obtain ⟨group, hgroup, h⟩ := bind_ok h
  cases horm.groupKey hgroup
  unfold currentPolicies
  rw [← hchecks.clientId, ← hchecks.group]
  exact h

/-! ## A request and the cache -/

/-- The parts of the key of a token are no separators. -/
def TokenPermission.Free (token : TokenPermission) : Prop :=
  PartFree (pyStr token.groupId) ∧ PartFree token.clientId

/-- What `GetClient` finds is the row. -/
theorem getClient_ok {v : SecurityVal} (h : JWTAuthMiddleware.getClient token db = .ok v) :
    v = .none ∨ ∃ row, db.clients.get? token.clientId = some row ∧
      v = .model (.client { row with groupFetched := false }) := by
  unfold JWTAuthMiddleware.getClient at h
  split at h
  · cases h
  · split at h
    · cases h
      exact .inl rfl
    · split at h
      · cases h
      · rename_i row hrow
        cases h
        exact .inr ⟨row, hrow, rfl⟩

/-- **The client of a request.** It is the row to every check, or of no use, and what is put
into the cache is right. -/
theorem cachedClient_spec (horm : orm.Restores) (hw : Current orm w) (hfree : token.Free)
    {redis : CacheDb SecurityModel} (h : cachedClient orm w token = .ok (client, redis)) :
    ClientRight w.db token.clientId client ∧ Current orm { w with redis } := by
  obtain ⟨⟨obj, redis'⟩, hcache, h⟩ := bind_ok h
  obtain ⟨rfl, rfl⟩ : obj = .model (.client client) ∧ redis' = redis := by
    cases obj with
    | model m =>
      cases m with
      | client client' =>
        cases h
        exact ⟨rfl, rfl⟩
      | policy id policy => cases h
      | challenge id => cases h
    | _ => cases h
  have hk : (clientCache orm token).keys.builder token.key =
      .ok (clientText (pyStr token.groupId) token.clientId) := client_builder _ _
  rcases CacheType.cache_ok (fun _ h => by cases h) rfl hcache with
    ⟨hget, -, rfl⟩ | ⟨-, hdb, ⟨hnone, -⟩ | ⟨-, hstore⟩⟩
  · refine ⟨?_, hw⟩
    rw [CacheType.get_eq hk] at hget
    cases hlookup : w.redis.get? (clientText (pyStr token.groupId) token.clientId) with
    | none =>
      rw [hlookup] at hget
      cases hget
    | some text =>
      rw [hlookup] at hget
      obtain ⟨e, he, rfl⟩ := TimedStore.get?_eq_some_iff.mp hlookup
      exact (hw.entries _ e he).client _ _ hfree.1 hfree.2 rfl client hget
  · cases hnone
  · obtain ⟨result, hresult, hunpack⟩ := bind_ok hdb
    obtain rfl | ⟨row, hrow, rfl⟩ := getClient_ok hresult
    · cases hunpack
    cases hunpack
    have hright : ∀ i, SameChecks i { row with groupFetched := false } →
        ClientRight w.db token.clientId i := by
      rintro i ⟨h1, h2, h3, h4, h5, h6⟩
      unfold ClientRight
      rw [hrow]
      exact ⟨h1, h2, h3, h4, h5, h6⟩
    refine ⟨hright _ ⟨rfl, rfl, rfl, rfl, rfl, rfl⟩, hw.sound, ?_⟩
    rw [CacheType.store_of_not_nx w.db w.redis rfl hk rfl (textOf_client rfl rfl _)
      (show _ = Except.ok none from rfl)] at hstore
    cases hstore
    refine TimedStore.Keeps.put hw.entries ?_
    exact entryRight_client hfree.1 hfree.2 fun i hi => hright i (clientRead_client horm hi)

/-- What `AuthPermissionCache` stores for a client is its combination. -/
theorem permission_store {exp : ExpiryArg SecurityModel} {redis : CacheDb SecurityModel}
    {key : StrOrList} {combined : Combined}
    (hk : OrmCacheName.authPermission.keys.builder key = .ok k)
    (h : (permissionCache orm client).store w.db w.redis key combined.json exp = .ok redis) :
    redis = w.redis ∨ ∃ d, redis = w.redis.put k ⟨.dumped combined.json, d⟩ := by
  obtain ⟨k', obj, text, ex, hk', hobj, htext, -, hput⟩ := CacheType.store_ok h
  cases Except.ok.inj (hk'.symm.trans hk)
  cases hobj
  cases text_of_combined htext
  rcases hput with ⟨hput, -⟩ | hput
  · exact .inl hput
  · exact .inr ⟨_, hput⟩

/-- What is read from the database for a permission. -/
theorem permission_dbObject {key : List String} {v : SecurityVal}
    (h : (permissionCache orm client).dbObject db key = .ok v) :
    ∃ combined, combinedPolicies orm db client = .ok combined ∧ v = combined.json := by
  obtain ⟨result, hresult, hunpack⟩ := bind_ok h
  obtain ⟨combined, hcombined, hresult⟩ := bind_ok hresult
  cases hresult
  cases hunpack
  exact ⟨combined, hcombined, rfl⟩

/-- A right permission goes into the cache under the key of its client. -/
theorem Current.put_permission (hw : Current orm w) (hg : PartFree g) (hc : PartFree c)
    {combined : Combined} (hcombined : ∀ row, w.db.clients.get? c = some row →
      currentPolicies orm w.db row = .ok combined) (d : Option ℚ) :
    Current orm
      { w with redis := w.redis.put (permissionText g c) ⟨.dumped combined.json, d⟩ } := by
  refine ⟨hw.sound, TimedStore.Keeps.put hw.entries (entryRight_permission hg hc ?_)⟩
  intro v hv _ row hrow
  cases hv
  exact ⟨combined, hcombined row hrow, rfl⟩

variable (isFile) in
/-- **The permission of a request.** It is that of the row, and what is put into the cache is
right. -/
theorem permission_spec (horm : orm.Restores) (hw : Current orm w) (hfree : token.Free)
    (hrow : w.db.clients.get? token.clientId = some row) (hchecks : SameChecks client row) :
    (∀ attached, (JWTAuthMiddleware.permission orm isFile w token client).1 = .ok attached →
      currentPermission orm isFile w.db row = .ok attached) ∧
    Current orm { w with redis := (JWTAuthMiddleware.permission orm isFile w token client).2 } := by
  have hk : OrmCacheName.authPermission.keys.builder token.key =
      .ok (permissionText (pyStr token.groupId) token.clientId) := permission_builder _ _
  have hcurrent : ∀ {v attached combined}, currentPolicies orm w.db row = .ok combined →
      v = combined.json → attach isFile v = .ok attached →
      currentPermission orm isFile w.db row = .ok attached := by
    rintro v attached combined hcombined rfl hattach
    unfold currentPermission
    rw [hcombined]
    exact hattach
  unfold JWTAuthMiddleware.permission
  split
  · exact ⟨nofun, hw⟩
  · rename_i policies redis hcache
    rcases CacheType.cache_ok (fun _ h => by cases h) rfl hcache with
      ⟨hget, hnone, rfl⟩ | ⟨-, hdb, hstored⟩
    · refine ⟨fun attached hattach => ?_, hw⟩
      rw [CacheType.get_eq (T := permissionCache orm client) hk] at hget
      cases hlookup : w.redis.get? (permissionText (pyStr token.groupId) token.clientId) with
      | none =>
        rw [hlookup] at hget
        cases hget
        cases hnone
      | some text =>
        rw [hlookup] at hget
        obtain ⟨e, he, rfl⟩ := TimedStore.get?_eq_some_iff.mp hlookup
        obtain ⟨combined, hcombined, hv⟩ := (hw.entries _ e he).permission _ _ hfree.1 hfree.2 rfl
          policies hget hnone row hrow
        exact hcurrent hcombined hv hattach
    · obtain ⟨combined, hcombined, rfl⟩ := permission_dbObject hdb
      have hrows := combinedPolicies_eq horm hchecks hcombined
      refine ⟨fun attached hattach => hcurrent hrows rfl hattach, ?_⟩
      rcases hstored with ⟨hnone, -⟩ | ⟨-, hstore⟩
      · cases hnone
      · rcases permission_store hk hstore with rfl | ⟨d, rfl⟩
        · exact hw
        · refine hw.put_permission hfree.1 hfree.2 (fun row' hrow' => ?_) d
          cases Option.some.inj (hrow.symm.trans hrow')
          exact hrows

/-- An authenticated instance that is right has a row. -/
theorem ClientRight.exists_row (h : ClientRight db c client) (hauth : client.authenticated = true) :
    ∃ row, db.clients.get? c = some row ∧ SameChecks client row := by
  unfold ClientRight at h
  cases hrow : db.clients.get? c with
  | none =>
    rw [hrow] at h
    cases hauth.symm.trans h
  | some row =>
    rw [hrow] at h
    exact ⟨row, rfl, h⟩

theorem verifyClient_authenticated {ip : String} (h : verifyClient client ip = .ok ()) :
    client.authenticated = true := by
  obtain ⟨-, -, h⟩ := bind_ok h
  cases hauth : client.authenticated with
  | true => rfl
  | false =>
    rw [hauth] at h
    cases h

theorem SameChecks.verifyClient (h : SameChecks client row) (ip : String) :
    verifyClient client ip = verifyClient row ip := by
  unfold JWTAuthMiddleware.verifyClient verifyClientOrigin
  rw [h.clientScope, h.issuedFor, h.authenticated]

variable (isFile) in
/-- **A request.** The permission it is given is that of its row, and the cache stays right. -/
theorem dispatch_spec (horm : orm.Restores) (hw : Current orm w) {request : Request}
    (htoken : request.permission = .ok token) (hfree : token.Free) :
    (∀ client attached, (dispatch orm isFile w request).1 = .ok (client, attached) →
      ∃ row, w.db.clients.get? token.clientId = some row ∧
        currentPermission orm isFile w.db row = .ok attached) ∧
    Current orm { w with redis := (dispatch orm isFile w request).2 } := by
  cases hcached : cachedClient orm w token with
  | error e =>
    rw [dispatch_of_error (authenticate_of_error htoken hcached)]
    exact ⟨fun _ _ h => (by cases h), hw⟩
  | ok cached =>
    obtain ⟨client, redis⟩ := cached
    obtain ⟨hright, hcurrent⟩ := cachedClient_spec horm hw hfree hcached
    have hauth := authenticate_of_cached htoken hcached
    cases hverify : verifyClient client request.clientIp with
    | error e =>
      rw [hverify] at hauth
      rw [dispatch_of_error hauth]
      exact ⟨fun _ _ h => (by cases h), hcurrent⟩
    | ok _ =>
      rw [hverify] at hauth
      obtain ⟨row, hrow, hchecks⟩ := hright.exists_row (verifyClient_authenticated hverify)
      have hblacklist := checkBlacklist_redis orm { w with redis } token client
      rcases hcheck : checkBlacklist orm { w with redis } token client with ⟨e | _, redis'⟩
      · rw [hcheck] at hblacklist
        cases hblacklist
        rw [dispatch_of_blacklisted hauth hcheck]
        exact ⟨fun _ _ h => (by cases h), hcurrent⟩
      · rw [hcheck] at hblacklist
        cases hblacklist
        obtain ⟨hpermission, hcurrent⟩ := permission_spec isFile horm hcurrent hfree
          hrow hchecks
        rw [dispatch_of_ok hauth hcheck]
        refine ⟨fun client' attached hattached => ⟨row, hrow, ?_⟩, hcurrent⟩
        cases hresult :
          (JWTAuthMiddleware.permission orm isFile { w with redis } token client).1 with
        | error e =>
          rw [hresult] at hattached
          cases hattached
        | ok attached' =>
          rw [hresult] at hattached
          cases hattached
          exact hpermission _ hresult

/-! ## When a request is served -/

/-- What the cache holds of a client under a key. -/
def clientGet (orm : Orm) (redis : CacheDb SecurityModel) (key : StrOrList) : Py SecurityVal :=
  CacheType.get (δ := SecurityDb) (clientORMCache orm.clientClass fun _ _ => .error .keyError)
    orm.loads redis key

/-- What it holds of a permission. -/
def permissionGet (orm : Orm) (redis : CacheDb SecurityModel) (key : StrOrList) :
    Py SecurityVal :=
  CacheType.get (δ := SecurityDb) (authPermissionCache fun _ _ => .error .typeError)
    orm.loads redis key

/-- What a request needs to come through. The client is in the cache, or it is not and the token
has roles. It is an admin, or the cache has a verdict on it, which is false. Its permission is in
the cache, or it is not, its group can be read, and JSON takes the combination. -/
structure Servable (orm : Orm) (w : SecurityWorld) (token : TokenPermission) (row : ClientORM) :
    Prop where
  client : (∃ i, clientGet orm w.redis token.key = .ok (.model (.client i))) ∨
    (clientGet orm w.redis token.key = .ok .none ∧ token.roles.isSome ∧ token.clientId ≠ "")
  blacklist : row.clientType = .Admin ∨ ∃ v,
    storeCache.get orm.loads w.redis token.key = .ok v ∧ v.isNone = false ∧ truth v = false
  permission : (∃ v, permissionGet orm w.redis token.key = .ok v ∧ v.isNone = false) ∨
    (permissionGet orm w.redis token.key = .ok .none ∧ orm.unfetched row.group = .ok row.group ∧
      ∃ combined text, currentPolicies orm w.db row = .ok combined ∧
        toText combined.json = .ok text)

theorem exists_cachedClient (hrow : w.db.clients.get? token.clientId = some row)
    (hserve : Servable orm w token row) :
    ∃ client redis, cachedClient orm w token = .ok (client, redis) := by
  rcases hserve.client with ⟨i, hget⟩ | ⟨hget, hroles, hid⟩
  · refine ⟨i, w.redis, ?_⟩
    unfold cachedClient
    rw [CacheType.cache_of_hit (T := clientCache orm token) rfl hget rfl]
    rfl
  · obtain ⟨roles, hroles⟩ := Option.isSome_iff_exists.mp hroles
    obtain ⟨client, hclient⟩ : ∃ client, client = { row with groupFetched := false } := ⟨_, rfl⟩
    have hdb : (clientCache orm token).dbObject w.db token.key.parts =
        .ok (.model (.client client)) := by
      have hfound : JWTAuthMiddleware.getClient token w.db = .ok (.model (.client client)) := by
        unfold JWTAuthMiddleware.getClient
        simp only [hroles, if_neg hid, hrow, hclient]
      show (JWTAuthMiddleware.getClient token w.db >>= fun result => _) = _
      rw [hfound]
      rfl
    have hk : (clientCache orm token).keys.builder token.key =
        .ok (clientText (pyStr token.groupId) token.clientId) := client_builder _ _
    have hcache : (clientCache orm token).cache orm.loads w.db w.redis token.key .none
        (clientCache orm token).expiry = .ok (.model (.client client), _) :=
      CacheType.cache_of_stored (fun _ h => by cases h) rfl rfl hk hget hdb rfl
        (textOf_client rfl rfl client) (show _ = Except.ok none from rfl)
    refine ⟨client, w.redis.put (clientText (pyStr token.groupId) token.clientId)
      ⟨.dumped (.dict (clientJson client)), none⟩, ?_⟩
    unfold cachedClient
    rw [hcache]
    rfl

/-- The permission of a client that is right to every check. -/
theorem exists_permission (hw : Current orm w) (hfree : token.Free)
    (hrow : w.db.clients.get? token.clientId = some row) (hchecks : SameChecks client row)
    (hserve : (∃ v, permissionGet orm w.redis token.key = .ok v ∧ v.isNone = false) ∨
      (permissionGet orm w.redis token.key = .ok .none ∧ orm.unfetched row.group = .ok row.group ∧
        ∃ combined text, currentPolicies orm w.db row = .ok combined ∧
          toText combined.json = .ok text))
    {attached : AttachedPermission}
    (hattached : currentPermission orm isFile w.db row = .ok attached) :
    (JWTAuthMiddleware.permission orm isFile w token client).1 = .ok attached := by
  obtain ⟨combined, hcombined, hattach⟩ := bind_ok hattached
  have hk : (permissionCache orm client).keys.builder token.key =
      .ok (permissionText (pyStr token.groupId) token.clientId) := permission_builder _ _
  unfold JWTAuthMiddleware.permission
  rcases hserve with ⟨v, hget, hnone⟩ | ⟨hget, hgroup, combined', text, hcombined', htext⟩
  · have hcache : (permissionCache orm client).cache orm.loads w.db w.redis token.key .none
        (permissionCache orm client).expiry = .ok (v, w.redis) :=
      CacheType.cache_of_hit rfl hget hnone
    simp only [hcache]
    -- what is read is the combination of the row
    have hread : (permissionCache orm client).get orm.loads w.redis token.key = .ok v := hget
    rw [CacheType.get_eq hk] at hread
    cases hlookup : w.redis.get? (permissionText (pyStr token.groupId) token.clientId) with
    | none =>
      rw [hlookup] at hread
      cases hread
      cases hnone
    | some text =>
      rw [hlookup] at hread
      obtain ⟨e, he, rfl⟩ := TimedStore.get?_eq_some_iff.mp hlookup
      obtain ⟨combined', hcombined', rfl⟩ := (hw.entries _ e he).permission _ _ hfree.1 hfree.2 rfl
        v hread hnone row hrow
      cases Except.ok.inj (hcombined.symm.trans hcombined')
      exact hattach
  · cases Except.ok.inj (hcombined.symm.trans hcombined')
    have hkey : client.groupKey orm = .ok row.group := by
      unfold ClientORM.groupKey
      rw [hchecks.group, hgroup, ite_self]
    have hpolicies : combinedPolicies orm w.db client = .ok combined := by
      unfold combinedPolicies
      rw [hkey, hchecks.clientId]
      exact hcombined
    have hdb : (permissionCache orm client).dbObject w.db token.key.parts = .ok combined.json := by
      show ((combinedPolicies orm w.db client >>= fun combined => .ok combined.json) >>=
        fun result => _ : Py SecurityVal) = _
      rw [hpolicies]
      rfl
    have hcache : (permissionCache orm client).cache orm.loads w.db w.redis token.key .none
        (permissionCache orm client).expiry = .ok (combined.json, _) :=
      CacheType.cache_of_stored (fun _ h => by cases h) rfl rfl hk hget hdb rfl htext
        (show _ = Except.ok none from rfl)
    simp only [hcache]
    exact hattach

/-- **A request that is served.** With what it needs it is given the permission of its row. -/
theorem dispatch_served (horm : orm.Restores) (hw : Current orm w) {request : Request}
    (htoken : request.permission = .ok token) (hfree : token.Free)
    (hrow : w.db.clients.get? token.clientId = some row)
    (hverify : verifyClient row request.clientIp = .ok ()) (hserve : Servable orm w token row)
    {attached : AttachedPermission}
    (hattached : currentPermission orm isFile w.db row = .ok attached) :
    ∃ client, (dispatch orm isFile w request).1 = .ok (client, attached) := by
  obtain ⟨client, redis, hcached⟩ := exists_cachedClient hrow hserve
  obtain ⟨hright, hcurrent⟩ := cachedClient_spec horm hw hfree hcached
  have hchecks : SameChecks client row := by
    unfold ClientRight at hright
    rwa [hrow] at hright
  have hauth := authenticate_of_cached htoken hcached
  rw [hchecks.verifyClient, hverify] at hauth
  -- the entry of the client is none of the others
  have hsame : ∀ {n : OrmCacheName} {k : String}, n ≠ .client → n.keys.builder token.key = .ok k →
      redis.lookup? k = w.redis.lookup? k := fun hn hk => cachedClient_lookup? hcached hn hk
  have hcheck : checkBlacklist orm { w with redis } token client = (.ok (), redis) := by
    rcases hserve.blacklist with hadmin | ⟨v, hv, hnone, hfalse⟩
    · unfold checkBlacklist
      rw [if_pos (hchecks.clientType.trans hadmin)]
    · by_cases hadmin : client.clientType = .Admin
      · unfold checkBlacklist
        rw [if_pos hadmin]
      · obtain ⟨k, hk⟩ := exists_key OrmCacheName.blacklist.keys rfl token
        have hget : (blacklistCache client).get orm.loads redis token.key = .ok v :=
          (CacheType.get_congr (T := storeCache) hk (hsame (n := .blacklist) nofun hk)).trans hv
        rw [checkBlacklist_spec hadmin]
        show ((blacklistCache client).get orm.loads redis token.key >>= fun v => _, redis) = _
        rw [hget]
        show ((if v.isNone = true then _ else _ : Py Unit), redis) = _
        rw [hnone, hfalse]
        rfl
  refine ⟨client, ?_⟩
  rw [dispatch_of_ok hauth hcheck]
  have hk : OrmCacheName.authPermission.keys.builder token.key =
      .ok (permissionText (pyStr token.groupId) token.clientId) := permission_builder _ _
  have hget : permissionGet orm redis token.key = permissionGet orm w.redis token.key :=
    CacheType.get_congr hk (hsame (n := .authPermission) nofun hk)
  have hpermission := exists_permission hcurrent hfree hrow hchecks
    (by rw [hget]; exact hserve.permission) hattached
  rw [hpermission]
  rfl

end Notifyr
