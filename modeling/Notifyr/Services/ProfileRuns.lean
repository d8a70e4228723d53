import Notifyr.Runtime.JsonText
import Notifyr.Services.ProfileCredentials

/-!
# Runs over the credentials of profiles

That the vault holds the texts of what was stored, and that a service is handed it again.

- `Kept.spec`: a kept leaf has a text that is parsed to it.
- `Seals`: a secret of the vault holds the texts of some credentials; `readCredentials_ok`,
  `putEncryptedCreds_ok`.
- `spellsAll_insertAll`: texts stand for the values they were written for under an update.
- `Holds`: the invariant; `create_holds`, `update_holds`: what a step does to it.
- `credentialsKept_run`: the credentials are kept over runs of such steps.
- `parseLeaf_of_create_kept`: a creation keeps no leaf that its text does not give back.
-/

namespace Notifyr

open Theory NestedDict

variable {φ γ : Type}

/-! ## Texts of leaves -/

/-- The text `str(v)`. -/
def Written (env : ProfileEnv φ γ) (v : PyJson φ) (t : PyStr) : Prop := strOf env v = .ok t

/-- A kept leaf has a text that can be encrypted and is parsed to it. -/
theorem Kept.spec {env : ProfileEnv φ γ} {v : PyJson φ} (h : Kept env v) :
    ∃ t, Written env v t ∧ t.text?.isSome ∧ parseLeaf env.secrets.json (.str t) = .ok v := by
  have hdoc : ∀ t, loads env.secrets.json t = .ok v →
      parseLeaf env.secrets.json (.str t) = .ok v := by
    intro t ht
    rw [parseLeaf, ht]
  have hrepr : ∀ t, strOf env v = env.repr v → env.repr v = .ok t → t.text?.isSome →
      loads env.secrets.json t = .ok v →
      ∃ t, Written env v t ∧ t.text?.isSome ∧ parseLeaf env.secrets.json (.str t) = .ok v :=
    fun t hstr hr ht hv => ⟨t, hstr.trans hr, ht, hdoc t hv⟩
  cases v with
  | atom a =>
    cases a with
    | none => exact h.elim
    | bool b => exact h.elim
    | int n =>
      exact ⟨intStr n, if_pos h, isSome_text?_intStr n, hdoc _ (loads_intStr env.secrets.json n h)⟩
    | float x =>
      obtain ⟨t, ht, htext, hloads⟩ := h
      exact hrepr t rfl ht htext hloads
    | str s => exact ⟨s, rfl, h.1, (parseLeaf_str_iff _ s).mpr h.2⟩
  | list items =>
    obtain ⟨t, ht, htext, hloads⟩ := h
    exact hrepr t rfl ht htext hloads
  | dict es =>
    obtain ⟨t, ht, htext, hloads⟩ := h
    exact hrepr t rfl ht htext hloads

/-! ## Reading what is sealed -/

/-- A field with its text. -/
def opened (env : ProfileEnv φ γ) (e : PyStr × γ) : PyStr × PyStr :=
  (e.1, (transitDecrypt env e.2).toOption.getD [])

/-- A secret of the vault holds these credentials. -/
structure Seals (env : ProfileEnv φ γ) (d : Dict PyStr γ) (creds : Entries PyStr (PyAtom φ)) :
    Prop where
  opens : ∀ e ∈ d.entries, openEntry env e = .ok (opened env e)
  spells : SpellsAll slash (Written env) (d.entries.map (opened env)) creds

theorem SpellsAll.of_mem_iff {c : ℕ} {written : PyJson φ → PyStr → Prop}
    {texts texts' : List (PyStr × PyStr)} {es : Entries PyStr (PyAtom φ)}
    (h : SpellsAll c written texts es) (hmem : ∀ e, e ∈ texts' ↔ e ∈ texts) :
    SpellsAll c written texts' es := by
  constructor
  · intro e he
    exact h.spelled e ((hmem e).mp he)
  · intro leaf hleaf
    obtain ⟨e, he, hspells⟩ := h.covers leaf hleaf
    exact ⟨e, (hmem e).mpr he, hspells⟩

theorem mem_arrange_iff (env : ProfileEnv φ γ) (d : Dict PyStr γ) (e : PyStr × γ) :
    e ∈ (env.arrange d).entries ↔ e ∈ d.entries := by
  have hold := d.mem_entries_iff e.1 e.2
  have hnew := (env.arrange d).mem_entries_iff e.1 e.2
  rw [env.get?_arrange] at hnew
  exact hnew.trans hold.symm

theorem text?_of_opens {env : ProfileEnv φ γ} {e : PyStr × γ} {e' : PyStr × PyStr}
    (h : openEntry env e = .ok e') : e'.2.text?.isSome := by
  obtain ⟨t, ht, h⟩ := bind_ok h
  cases h
  unfold transitDecrypt at ht
  split at ht
  · rename_i encoded _
    cases hdec : b64Decode encoded with
    | error x =>
      rw [hdec] at ht
      cases ht
    | ok text =>
      rw [hdec] at ht
      cases ht
      rw [text?_pyText]
      rfl
  · cases ht

variable {env : ProfileEnv φ γ} {s : ProfileStore φ γ} {id : PyStr} {profile : Profile φ}
  {d : Dict PyStr γ} {creds : Entries PyStr (PyAtom φ)}

/-- The texts that are read spell the credentials. -/
theorem readEncryptedCreds_ok (hdoc : s.documents.get? id = some profile)
    (hvault : s.vault.get? (profile.model.vault, id) = some d) (hseals : Seals env d creds) :
    ∃ texts, readEncryptedCreds env s id = .ok texts ∧
      SpellsAll slash (Written env) texts.entries creds ∧
      (Secret.texts texts).Encodable := by
  have hopens : ∀ e ∈ (env.arrange d).entries, openEntry env e = .ok (opened env e) :=
    fun e he => hseals.opens e ((mem_arrange_iff env d e).mp he)
  have hnd : (((env.arrange d).entries.map (opened env)).map Prod.fst).Nodup := by
    rw [List.map_map]
    exact (env.arrange d).nodup
  have hentries := Dict.entries_ofEntries hnd
  refine ⟨.ofEntries ((env.arrange d).entries.map (opened env)), ?_, ?_, ?_⟩
  · unfold readEncryptedCreds ProfileStore.read
    rw [hdoc]
    dsimp only
    rw [hvault]
    show ((env.arrange d).entries.mapM (openEntry env) >>= fun texts => _) = _
    rw [mapM_eq_ok_map hopens]
    rfl
  · rw [hentries]
    refine hseals.spells.of_mem_iff fun e => ?_
    rw [List.mem_map, List.mem_map]
    exact exists_congr fun x => and_congr_left fun _ => mem_arrange_iff env d x
  · intro t ht
    obtain ⟨e, he, rfl⟩ := List.mem_map.mp ht
    rw [hentries] at he
    obtain ⟨x, hx, rfl⟩ := List.mem_map.mp he
    unfold PyStr.encode
    rw [Option.isSome_map]
    exact text?_of_opens (hopens x hx)

/-- What a service is handed is the texts, unflattened. -/
theorem readCredentials_eq {texts : Dict PyStr PyStr}
    (hread : readEncryptedCreds env s id = .ok texts) (henc : (Secret.texts texts).Encodable) :
    readCredentials env s id =
      ((unflattenedDict env.secrets.json [slash] (flatTexts texts.entries)).map
        PlainData.dict).mapError fun e => ProfileExc.secrets (.json e) := by
  unfold readCredentials
  rw [hread]
  show ((Poly1305.new env.secrets (Secret.texts texts).plain CipherArgs.default.key >>=
    Poly1305.toPlain env.secrets).mapError ProfileExc.secrets) = _
  rw [Poly1305.new_ok env.secrets CipherArgs.default henc]
  show (Poly1305.toPlain env.secrets _).mapError ProfileExc.secrets = _
  unfold Poly1305.toPlain
  rw [Poly1305.decrypt_built_texts env.secrets CipherArgs.default henc]
  show ((Except.mapError SecretsExc.json (Except.map PlainData.dict
    (unflattenedDict env.secrets.json [slash] (flatTexts texts.entries)))).mapError _) = _
  cases unflattenedDict env.secrets.json [slash] (flatTexts texts.entries) with
  | error x => rfl
  | ok es => rfl

/-- **Reading gives the credentials that are sealed.** -/
theorem readCredentials_ok (hdoc : s.documents.get? id = some profile)
    (hvault : s.vault.get? (profile.model.vault, id) = some d) (hseals : Seals env d creds)
    (hst : Storable env creds) :
    ∃ es, readCredentials env s id = .ok (.dict es) ∧ SameLeaves creds es := by
  obtain ⟨texts, hread, hspells, henc⟩ := readEncryptedCreds_ok hdoc hvault hseals
  obtain ⟨es, hes, hsame⟩ := unflattenedDict_spelled env.secrets.json hst.full hst.plain
    (by
      intro leaf hleaf t ht
      obtain ⟨t', ht', -, hparse⟩ := (hst.kept leaf hleaf).spec
      have heq : t' = t := Except.ok.inj (ht'.symm.trans ht)
      rw [← heq]
      exact hparse) texts.nodup hspells
  refine ⟨es, ?_, hsame⟩
  rw [readCredentials_eq hread henc, hes]
  rfl

/-! ## Sealing -/

/-- Every leaf has a text that can be encrypted. -/
def Writable (env : ProfileEnv φ γ) (es : Entries PyStr (PyAtom φ)) : Prop :=
  ∀ leaf ∈ leavesOf es, ∃ t, Written env leaf.2 t ∧ t.text?.isSome

/-- What is put for a field whose value has a text. -/
def sealedEntry (env : ProfileEnv φ γ) (seed : PyStr → ℕ) (e : PyStr × PyJson φ) : PyStr × γ :=
  (e.1, env.encryptData (seed e.1)
    (b64Encode (((strOf env e.2).toOption.bind PyStr.text?).getD "")))

/-- A field that is sealed opens to its text. -/
theorem sealEntry_ok {e : PyStr × PyJson φ} {t : PyStr} (seed : PyStr → ℕ)
    (hv : Written env e.2 t) (ht : t.text?.isSome) :
    sealEntry env seed e = .ok (sealedEntry env seed e) ∧
      openEntry env (sealedEntry env seed e) = .ok (e.1, t) := by
  obtain ⟨text, htext⟩ := Option.isSome_iff_exists.mp ht
  have hstr : strOf env e.2 = .ok t := hv
  have hsealed : sealedEntry env seed e = (e.1, env.encryptData (seed e.1) (b64Encode text)) := by
    unfold sealedEntry
    rw [hstr]
    show (e.1, env.encryptData (seed e.1) (b64Encode (t.text?.getD ""))) = _
    rw [htext]
    rfl
  rw [hsealed]
  constructor
  · show (strOf env e.2 >>= fun v => _) = _
    rw [hstr]
    show (transitEncrypt env (seed e.1) t >>= fun c => _) = _
    unfold transitEncrypt
    rw [htext]
    rfl
  · show (transitDecrypt env _ >>= fun t => _) = _
    unfold transitDecrypt
    rw [env.decrypt_encrypt]
    dsimp only
    rw [b64Decode_b64Encode]
    show Except.ok (e.1, pyText text) = _
    rw [pyText_of_text? htext]

theorem opened_eq {e : PyStr × γ} {t : PyStr} (h : openEntry env e = .ok (e.1, t)) :
    opened env e = (e.1, t) := by
  obtain ⟨t', ht', heq⟩ := bind_ok h
  cases heq
  unfold opened
  rw [ht']
  rfl

/-- **Putting seals the leaves** of a dictionary whose leaves have texts. -/
theorem putEncryptedCreds_ok {es : Entries PyStr (PyAtom φ)} (hes : FullEntries es)
    (hplain : PlainKeysOf slash es) (hwritable : Writable env es)
    (hempty : es = [] → env.takesEmpty = true) (id vault : PyStr) (seed : PyStr → ℕ) :
    ∃ d, putEncryptedCreds env s id es vault seed =
        .ok { s with vault := s.vault.set (vault, id) d } ∧ Seals env d es := by
  have hseal : ∀ leaf ∈ leavesOf es, ∃ t, Written env leaf.2 t ∧
      sealEntry env seed (PyStr.join [slash] leaf.1, leaf.2) =
        .ok (sealedEntry env seed (PyStr.join [slash] leaf.1, leaf.2)) ∧
      openEntry env (sealedEntry env seed (PyStr.join [slash] leaf.1, leaf.2)) =
        .ok (PyStr.join [slash] leaf.1, t) := by
    intro leaf hleaf
    obtain ⟨t, hwritten, ht⟩ := hwritable leaf hleaf
    exact ⟨t, hwritten, sealEntry_ok seed hwritten ht⟩
  have hsealed : (joinedLeaves slash es).mapM (sealEntry env seed) =
      .ok ((joinedLeaves slash es).map (sealedEntry env seed)) := by
    refine mapM_eq_ok_map fun e he => ?_
    obtain ⟨leaf, hleaf, rfl⟩ := List.mem_map.mp he
    obtain ⟨t, -, h, -⟩ := hseal leaf hleaf
    exact h
  have hentries : (Dict.ofEntries ((joinedLeaves slash es).map (sealedEntry env seed))).entries =
      (joinedLeaves slash es).map (sealedEntry env seed) := by
    refine Dict.entries_ofEntries ?_
    rw [List.map_map]
    exact nodup_joinedLeaves hes hplain
  have hmem : ∀ e, e ∈ (Dict.ofEntries ((joinedLeaves slash es).map
      (sealedEntry env seed))).entries ↔ ∃ leaf ∈ leavesOf es,
        sealedEntry env seed (PyStr.join [slash] leaf.1, leaf.2) = e := by
    intro e
    rw [hentries, joinedLeaves, List.map_map, List.mem_map]
    exact Iff.rfl
  refine ⟨.ofEntries ((joinedLeaves slash es).map (sealedEntry env seed)), ?_, ?_, ?_, ?_⟩
  · unfold putEncryptedCreds
    rw [flattenDict_eq hes hplain]
    show ((joinedLeaves slash es).mapM (sealEntry env seed)).mapError ProfileExc.secrets >>= _ = _
    rw [hsealed]
    show ProfileStore.put env s (vault, id) (.ofEntries _) = _
    unfold ProfileStore.put
    rw [if_neg]
    rw [hentries]
    rintro ⟨hnil, htakes⟩
    have hleaves : leavesOf es = [] := List.map_eq_nil_iff.mp (List.map_eq_nil_iff.mp hnil)
    by_cases hne : es = []
    · rw [hempty hne] at htakes
      cases htakes
    · exact leavesOf_ne_nil es hes hne hleaves
  · intro e he
    obtain ⟨leaf, hleaf, rfl⟩ := (hmem e).mp he
    obtain ⟨t, -, -, hopen⟩ := hseal leaf hleaf
    rw [hopen]
    exact congrArg Except.ok (opened_eq hopen).symm
  · intro e' he'
    obtain ⟨e, he, rfl⟩ := List.mem_map.mp he'
    obtain ⟨leaf, hleaf, rfl⟩ := (hmem e).mp he
    obtain ⟨t, hwritten, -, hopen⟩ := hseal leaf hleaf
    refine ⟨leaf, hleaf, ?_⟩
    rw [opened_eq hopen]
    exact ⟨rfl, hwritten⟩
  · intro leaf hleaf
    obtain ⟨t, hwritten, -, hopen⟩ := hseal leaf hleaf
    refine ⟨_, List.mem_map.mpr ⟨_, (hmem _).mpr ⟨leaf, hleaf, rfl⟩, rfl⟩, ?_⟩
    rw [opened_eq hopen]
    exact ⟨rfl, hwritten⟩

theorem Storable.writable (h : Storable env creds) : Writable env creds := by
  intro leaf hleaf
  obtain ⟨t, hwritten, ht, -⟩ := (h.kept leaf hleaf).spec
  exact ⟨t, hwritten, ht⟩

/-! ## Updating -/

theorem join_singleton (sep k : PyStr) : PyStr.join sep [k] = k := List.intercalate_singleton

theorem leaves_of_ne_dict {v : PyJson φ} (h : ∀ es, v ≠ .dict es) : v.leaves = [([], v)] := by
  cases v with
  | atom a => rw [leaves]
  | list items => rw [leaves]
  | dict es => exact absurd rfl (h es)

/-- Texts have no depth. -/
theorem shallow_flatTexts (texts : List (PyStr × PyStr)) :
    Shallow (flatTexts texts : Entries PyStr (PyAtom φ)) := by
  intro e he es heq
  obtain ⟨e', -, rfl⟩ := List.mem_map.mp he
  cases heq

/-- The leaves of a shallow dictionary are its entries. -/
theorem Shallow.mem_leavesOf_iff {current : Entries PyStr (PyAtom φ)} (h : Shallow current)
    (leaf : List PyStr × PyJson φ) :
    leaf ∈ leavesOf current ↔ ∃ e ∈ current, leaf = ([e.1], e.2) := by
  rw [mem_leavesOf_iff_exists]
  constructor
  · rintro ⟨e, he, rest, hrest, rfl⟩
    rw [leaves_of_ne_dict (h e he), List.mem_singleton] at hrest
    exact ⟨e, he, by rw [hrest]⟩
  · rintro ⟨e, he, rfl⟩
    refine ⟨e, he, ([], e.2), ?_, rfl⟩
    rw [leaves_of_ne_dict (h e he)]
    exact List.mem_singleton_self _

/-- An update has its leaves from the new entries, or from an old one. -/
theorem mem_leavesOf_insertAll_iff {acc new : Entries PyStr (PyAtom φ)}
    (hacc : (acc.map Prod.fst).Nodup) (hnew : (new.map Prod.fst).Nodup) (hshallow : Shallow acc)
    (leaf : List PyStr × PyJson φ) :
    leaf ∈ leavesOf (insertAll acc new) ↔
      leaf ∈ leavesOf new ∨ ∃ e ∈ acc, e.1 ∉ new.map Prod.fst ∧ leaf = ([e.1], e.2) := by
  have hmem := (insertAll_spec hacc hnew).2
  rw [mem_leavesOf_iff_exists, mem_leavesOf_iff_exists]
  constructor
  · rintro ⟨e, he, rest, hrest, rfl⟩
    rcases (hmem e).mp he with h | ⟨h, hnot⟩
    · exact .inl ⟨e, h, rest, hrest, rfl⟩
    · rw [leaves_of_ne_dict (hshallow e h), List.mem_singleton] at hrest
      exact .inr ⟨e, h, hnot, by rw [hrest]⟩
  · rintro (⟨e, he, rest, hrest, rfl⟩ | ⟨e, he, hnot, rfl⟩)
    · exact ⟨e, (hmem e).mpr (.inl he), rest, hrest, rfl⟩
    · refine ⟨e, (hmem e).mpr (.inr ⟨he, hnot⟩), ([], e.2), ?_, rfl⟩
      rw [leaves_of_ne_dict (hshallow e he)]
      exact List.mem_singleton_self _

theorem insertAll_full {acc new : Entries PyStr (PyAtom φ)} (hacc : FullEntries acc)
    (hnew : FullEntries new) : FullEntries (insertAll acc new) := by
  rw [fullEntries_iff] at hacc hnew ⊢
  obtain ⟨hnd, hmem⟩ := insertAll_spec hacc.1 hnew.1
  refine ⟨hnd, fun e he => ?_⟩
  rcases (hmem e).mp he with h | ⟨h, -⟩
  · exact hnew.2 e h
  · exact hacc.2 e h

theorem insertAll_plain {acc new : Entries PyStr (PyAtom φ)} (hacc : (acc.map Prod.fst).Nodup)
    (hnew : (new.map Prod.fst).Nodup) (haccPlain : PlainKeysOf slash acc)
    (hnewPlain : PlainKeysOf slash new) : PlainKeysOf slash (insertAll acc new) := by
  rw [plainKeysOf_iff] at haccPlain hnewPlain ⊢
  intro e he
  rcases ((insertAll_spec hacc hnew).2 e).mp he with h | ⟨h, -⟩
  · exact hnewPlain e h
  · exact haccPlain e h

theorem insertAll_ne_nil {acc new : Entries PyStr (PyAtom φ)} (hacc : (acc.map Prod.fst).Nodup)
    (hnew : (new.map Prod.fst).Nodup) (hne : acc ≠ []) : insertAll acc new ≠ [] := by
  intro h
  have hmem := (insertAll_spec hacc hnew).2
  rw [h] at hmem
  cases hcases : new with
  | cons e rest => exact List.not_mem_nil ((hmem e).mpr (.inl (hcases ▸ List.mem_cons_self)))
  | nil =>
    obtain ⟨e, rest, rfl⟩ := List.exists_cons_of_ne_nil hne
    refine List.not_mem_nil ((hmem e).mpr (.inr ⟨List.mem_cons_self, ?_⟩))
    rw [hcases]
    exact List.not_mem_nil

/-- Texts that spell shallow credentials stand for them under an update: what spells the one
spells the other. -/
theorem spellsAll_insertAll {current : Entries PyStr (PyAtom φ)} {texts : Dict PyStr PyStr}
    {new : Entries PyStr (PyAtom φ)} (hcurrent : (current.map Prod.fst).Nodup)
    (hshallow : Shallow current) (hnew : (new.map Prod.fst).Nodup)
    (hspells : SpellsAll slash (Written env) texts.entries current)
    {sealed : List (PyStr × PyStr)}
    (h : SpellsAll slash (Written env) sealed (insertAll (flatTexts texts.entries) new)) :
    SpellsAll slash (Written env) sealed (insertAll current new) := by
  have hflat : ((flatTexts texts.entries : Entries PyStr (PyAtom φ)).map Prod.fst).Nodup := by
    rw [flatTexts, List.map_map]
    exact texts.nodup
  have hleaf := mem_leavesOf_insertAll_iff hcurrent hnew hshallow
  have hleafFlat := mem_leavesOf_insertAll_iff hflat hnew (shallow_flatTexts texts.entries)
  have htext : ∀ {t t' : PyStr}, Written env (.str t) t' ↔ t = t' := by
    intro t t'
    exact Except.ok.injEq t t' ▸ Iff.rfl
  constructor
  · intro e he
    obtain ⟨leaf, hmem, hkey, hwritten⟩ := h.spelled e he
    rcases (hleafFlat leaf).mp hmem with hleafNew | ⟨x, hx, hnot, rfl⟩
    · exact ⟨leaf, (hleaf leaf).mpr (.inl hleafNew), hkey, hwritten⟩
    · -- an old text: what it was written for
      obtain ⟨e', he', rfl⟩ := List.mem_map.mp hx
      obtain ⟨leaf', hmem', hkey', hwritten'⟩ := hspells.spelled e' he'
      obtain ⟨y, hy, rfl⟩ := (hshallow.mem_leavesOf_iff leaf').mp hmem'
      rw [join_singleton] at hkey'
      have hsame : e'.2 = e.2 := htext.mp hwritten
      refine ⟨([y.1], y.2), (hleaf _).mpr (.inr ⟨y, hy, ?_, rfl⟩), ?_, ?_⟩
      · rw [← hkey']
        exact hnot
      · rw [← hkey']
        exact hkey
      · rw [← hsame]
        exact hwritten'
  · intro leaf hmem
    rcases (hleaf leaf).mp hmem with hleafNew | ⟨y, hy, hnot, rfl⟩
    · exact h.covers leaf ((hleafFlat leaf).mpr (.inl hleafNew))
    · obtain ⟨e', he', hkey', hwritten'⟩ :=
        hspells.covers _ ((hshallow.mem_leavesOf_iff _).mpr ⟨y, hy, rfl⟩)
      rw [join_singleton] at hkey'
      obtain ⟨e, he, hkey, hwritten⟩ := h.covers ([e'.1], PyJson.str e'.2)
        ((hleafFlat _).mpr (.inr ⟨(e'.1, PyJson.str e'.2), mem_flatTexts he', hkey' ▸ hnot, rfl⟩))
      refine ⟨e, he, ?_, ?_⟩
      · rw [hkey, hkey']
      · have hsame : e'.2 = e.2 := htext.mp hwritten
        rw [← hsame]
        exact hwritten'

/-! ## The invariant -/

/-- What is stored for a profile is sealed in the vault of its class, and can be kept. -/
structure Sealed (env : ProfileEnv φ γ) (s : ProfileStore φ γ) (id : PyStr)
    (creds : Entries PyStr (PyAtom φ)) : Prop where
  sealed : ∃ profile d, s.documents.get? id = some profile ∧
    s.vault.get? (profile.model.vault, id) = some d ∧ Seals env d creds
  storable : Storable env creds
  nonempty : creds = [] → env.takesEmpty = true

/-- No document has a secret. -/
def NoSecrets (s : ProfileStore φ γ) : Prop :=
  ∀ id profile, s.documents.get? id = some profile →
    ∀ key ∈ profile.model.secretsKeys, Masked (profile.getattr key)

/-- The invariant: all that is stored is sealed. -/
structure Holds (env : ProfileEnv φ γ) (w : ProfileWorld φ γ) : Prop where
  sealed : ∀ id creds, w.stored.get? id = some creds → Sealed env w.store id creds
  masked : NoSecrets w.store

theorem holds_start : Holds env (ProfileWorld.start : ProfileWorld φ γ) := by
  constructor
  · intro id creds h
    cases h
  · intro id profile h
    cases h

theorem Holds.kept {w : ProfileWorld φ γ} (h : Holds env w) : CredentialsKept env w := by
  constructor
  · intro id creds hcreds
    obtain ⟨⟨profile, d, hdoc, hvault, hseals⟩, hst, -⟩ := h.sealed id creds hcreds
    exact readCredentials_ok hdoc hvault hseals hst
  · exact h.masked

/-- What is sealed for another profile stays so. -/
theorem Sealed.frame {s' : ProfileStore φ γ} (h : Sealed env s id creds)
    (hdocs : s'.documents.get? id = s.documents.get? id)
    (hvault : ∀ vault, s'.vault.get? (vault, id) = s.vault.get? (vault, id)) :
    Sealed env s' id creds := by
  obtain ⟨⟨profile, d, hdoc, hd, hseals⟩, hst, hne⟩ := h
  exact ⟨⟨profile, d, hdocs.trans hdoc, (hvault _).trans hd, hseals⟩, hst, hne⟩

/-! ### Creation -/

theorem Profile.getattr_setattr (p : Profile φ) (key : PyStr) (a : Attr φ) (key' : PyStr) :
    (p.setattr key a).getattr key' = if key' = key then a else p.getattr key' := by
  unfold Profile.getattr Profile.setattr
  dsimp only
  rw [Dict.get?_set]
  split
  · rfl
  · rfl

theorem Profile.secret_setattr_ne (p : Profile φ) {key key' : PyStr} (a : Attr φ)
    (h : key' ≠ key) : (p.setattr key a).secret key' = p.secret key' := by
  unfold Profile.secret
  rw [Profile.getattr_setattr, if_neg h]

theorem masked_mask (r : Randint) (key : PyStr) (a : Attr φ) : Masked (mask r key a) := by
  have hstars := r.draw_mem key 40 60 (by omega)
  have hnumber := r.draw_mem key 1000000 10000000 (by omega)
  cases a with
  | object => exact .none
  | value v =>
    cases v with
    | atom x =>
      cases x with
      | none => exact .none
      | bool b => exact .number _ hnumber.1 hnumber.2
      | int n => exact .number _ hnumber.1 hnumber.2
      | float x => exact .number _ hnumber.1 hnumber.2
      | str t => exact .stars _ (by omega) (by omega)
    | list items => exact .none
    | dict es => exact .empty

/-- An accepted secret is masked and added, if it is there. -/
theorem addSecret_ok (r : Randint) (p : Profile φ) (creds : Entries PyStr (PyAtom φ))
    (key : PyStr) (h : Accepted (p.getattr key)) :
    addSecret r (p, creds) key = .ok (p.setattr key (mask r key (p.getattr key)),
      insertAll creds (p.secret key).toList) := by
  unfold addSecret Profile.secret
  dsimp only
  cases ha : p.getattr key with
  | object =>
    rw [ha] at h
    exact h.elim
  | value v =>
    rw [ha] at h
    cases v with
    | atom x =>
      cases x with
      | none => rfl
      | bool b => rfl
      | int n => rfl
      | float x => rfl
      | str t => rfl
    | list items => exact h.elim
    | dict es => rfl

/-- The loop of `add_profile`: the secrets are masked, and the credentials are taken out. -/
theorem foldlM_addSecret (r : Randint) (keys : List PyStr) (hnd : keys.Nodup) (p : Profile φ)
    (creds : Entries PyStr (PyAtom φ)) (h : ∀ key ∈ keys, Accepted (p.getattr key)) :
    ∃ p', keys.foldlM (addSecret r) (p, creds) =
        .ok (p', insertAll creds (keys.filterMap p.secret)) ∧
      p'.model = p.model ∧ ∀ key, p'.getattr key =
        if key ∈ keys then mask r key (p.getattr key) else p.getattr key := by
  induction keys generalizing p creds with
  | nil => exact ⟨p, rfl, rfl, fun key => (if_neg List.not_mem_nil).symm⟩
  | cons k keys ih =>
    obtain ⟨hnot, hrest⟩ := List.nodup_cons.mp hnd
    have hne : ∀ key ∈ keys, key ≠ k := by
      rintro key hkey rfl
      exact hnot hkey
    have hnext : ∀ key ∈ keys, Accepted
        ((p.setattr k (mask r k (p.getattr k))).getattr key) := by
      intro key hkey
      rw [Profile.getattr_setattr, if_neg (hne key hkey)]
      exact h key (List.mem_cons_of_mem k hkey)
    obtain ⟨p', hp', hmodel, hattr⟩ := ih hrest _ (insertAll creds (p.secret k).toList) hnext
    have hsecrets : keys.filterMap (p.setattr k (mask r k (p.getattr k))).secret =
        keys.filterMap p.secret :=
      List.filterMap_congr fun key hkey => p.secret_setattr_ne _ (hne key hkey)
    refine ⟨p', ?_, hmodel, ?_⟩
    · rw [List.foldlM_cons, addSecret_ok r p creds k (h k List.mem_cons_self)]
      show keys.foldlM (addSecret r) (_, _) = _
      rw [hp', hsecrets]
      unfold insertAll
      rw [← List.foldl_append, List.filterMap_cons]
      cases p.secret k with
      | none => rfl
      | some e => rfl
    · intro key
      rw [hattr key, Profile.getattr_setattr]
      by_cases hk : key = k
      · rw [if_neg (hk ▸ hnot), if_pos hk, if_pos (hk ▸ List.mem_cons_self), hk]
      · rw [if_neg hk]
        by_cases hmem : key ∈ keys
        · rw [if_pos hmem, if_pos (List.mem_cons_of_mem k hmem)]
        · rw [if_neg hmem, if_neg]
          rintro hmem'
          exact (List.mem_cons.mp hmem').elim hk hmem

theorem Profile.secret_key {p : Profile φ} {key : PyStr} {e : PyStr × PyJson φ}
    (h : p.secret key = some e) : e.1 = key := by
  unfold Profile.secret at h
  split at h
  · cases h
  · cases h
    rfl
  · cases h

/-- The credentials have the keys of the secrets. -/
theorem Profile.nodup_credentials (p : Profile φ) : (p.credentials.map Prod.fst).Nodup := by
  have hsub : (p.credentials.map Prod.fst).Sublist p.model.secretsKeys := by
    unfold Profile.credentials
    induction p.model.secretsKeys with
    | nil => exact List.Sublist.refl []
    | cons k keys ih =>
      rw [List.filterMap_cons]
      cases hk : p.secret k with
      | none => exact ih.cons k
      | some e =>
        rw [List.map_cons, Profile.secret_key hk]
        exact ih.cons_cons k
  exact hsub.nodup p.model.nodup

theorem ne_path {id id' : PyStr} (h : id' ≠ id) (vault vault' : PyStr) :
    (vault', id') ≠ (vault, id) := fun heq => h (congrArg Prod.snd heq)

/-- Creating a profile seals its credentials, whether they can be read back or not. -/
theorem create_seals {w : ProfileWorld φ γ} (r : Randint) (seed : PyStr → ℕ)
    (hid : id ∉ w.store.documents.keys)
    (haccepted : ∀ key ∈ profile.model.secretsKeys, Accepted (profile.getattr key))
    (hfull : FullEntries profile.credentials) (hplain : PlainKeysOf slash profile.credentials)
    (hwritable : Writable env profile.credentials)
    (hempty : profile.credentials = [] → env.takesEmpty = true) :
    ∃ p' d, w.attempt env (.create id profile r seed) =
        .ok ⟨w.store.documents.set id p', w.store.vault.set (p'.model.vault, id) d⟩ ∧
      Seals env d profile.credentials ∧ p'.model = profile.model ∧
      ∀ key ∈ profile.model.secretsKeys, Masked (p'.getattr key) := by
  obtain ⟨p', hp', hmodel, hattr⟩ :=
    foldlM_addSecret r profile.model.secretsKeys profile.model.nodup profile [] haccepted
  have hcreds : insertAll [] (profile.model.secretsKeys.filterMap profile.secret) =
      profile.credentials := foldl_insertKey_of_nodup profile.nodup_credentials
  rw [hcreds] at hp'
  obtain ⟨d, hput, hseals⟩ := putEncryptedCreds_ok
    (s := ⟨w.store.documents.set id p', w.store.vault⟩) hfull hplain hwritable hempty id
    p'.model.vault seed
  refine ⟨p', d, ?_, hseals, hmodel, fun key hkey => ?_⟩
  · show (profile.model.secretsKeys.foldlM (addSecret r) (profile, []) >>= fun st => _) = _
    rw [hp']
    show (if id ∈ w.store.documents.keys then Except.error _ else _) = _
    rw [if_neg hid]
    exact hput
  · rw [hattr, if_pos hkey]
    exact masked_mask r key _

/-- A profile with storable credentials is created. -/
theorem create_holds {w : ProfileWorld φ γ} (hw : Holds env w) (r : Randint) (seed : PyStr → ℕ)
    (hop : Keepable env w (.create id profile r seed)) :
    ∃ store, w.attempt env (.create id profile r seed) = .ok store ∧
      Holds env ⟨store, w.stored.set id profile.credentials⟩ := by
  obtain ⟨hid, haccepted, hst, hempty⟩ := hop
  obtain ⟨p', d, hok, hseals, hmodel, hmasked⟩ := create_seals r seed hid haccepted
    hst.full hst.plain hst.writable hempty
  refine ⟨_, hok, ?_, ?_⟩
  · intro id' creds' hcreds'
    by_cases hne : id' = id
    · subst hne
      rw [Dict.get?_set_self] at hcreds'
      cases hcreds'
      exact ⟨⟨p', d, Dict.get?_set_self _ _ _, Dict.get?_set_self _ _ _, hseals⟩, hst, hempty⟩
    · rw [Dict.get?_set_ne _ _ hne] at hcreds'
      exact (hw.sealed id' creds' hcreds').frame (Dict.get?_set_ne _ _ hne)
        fun vault => Dict.get?_set_ne _ _ (ne_path hne _ _)
  · intro id' q hq key hkey
    by_cases hne : id' = id
    · subst hne
      have hqp : p' = q := by
        have hself := Dict.get?_set_self w.store.documents id' p'
        exact Option.some.inj (hself.symm.trans hq)
      subst hqp
      exact hmasked key (hmodel ▸ hkey)
    · have hold : w.store.documents.get? id' = some q :=
        (Dict.get?_set_ne w.store.documents p' hne).symm.trans hq
      exact hw.masked id' q hold key hkey

/-- Where the credentials are kept after a creation, each of their leaves is what its text is
parsed to. -/
theorem parseLeaf_of_create_kept {w : ProfileWorld φ γ} (r : Randint) (seed : PyStr → ℕ)
    (hid : id ∉ w.store.documents.keys)
    (haccepted : ∀ key ∈ profile.model.secretsKeys, Accepted (profile.getattr key))
    (hfull : FullEntries profile.credentials) (hplain : PlainKeysOf slash profile.credentials)
    (hwritable : Writable env profile.credentials)
    (hempty : profile.credentials = [] → env.takesEmpty = true)
    (hkept : StepKept env w (.create id profile r seed)) :
    ∀ leaf ∈ leavesOf profile.credentials, ∃ t, Written env leaf.2 t ∧
      parseLeaf env.secrets.json (.str t) = .ok leaf.2 := by
  obtain ⟨p', d, hok, hseals, -, -⟩ := create_seals r seed hid haccepted hfull hplain
    hwritable hempty
  obtain ⟨-, hread, -⟩ := hkept
  unfold ProfileWorld.step at hread
  rw [hok] at hread
  obtain ⟨es, hes, hsame⟩ := hread id profile.credentials (Dict.get?_set_self _ _ _)
  have hdoc := Dict.get?_set_self w.store.documents id p'
  have hvault := Dict.get?_set_self w.store.vault (p'.model.vault, id) d
  obtain ⟨texts, htexts, hspells, henc⟩ := readEncryptedCreds_ok
    (s := ⟨w.store.documents.set id p', w.store.vault.set (p'.model.vault, id) d⟩) hdoc hvault
    hseals
  rw [readCredentials_eq htexts henc] at hes
  cases hun : unflattenedDict env.secrets.json [slash] (flatTexts texts.entries) with
  | error x =>
    rw [hun] at hes
    cases hes
  | ok es' =>
    rw [hun] at hes
    cases hes
    exact parseLeaf_of_spelled env.secrets.json hfull hplain texts.nodup hspells hun hsame

/-! ### Updates -/

theorem flatTexts_full (texts : Dict PyStr PyStr) :
    FullEntries (flatTexts texts.entries : Entries PyStr (PyAtom φ)) := by
  rw [fullEntries_iff]
  constructor
  · rw [flatTexts, List.map_map]
    exact texts.nodup
  · intro e he
    obtain ⟨e', -, rfl⟩ := List.mem_map.mp he
    show NestedDict.Full (.atom _)
    rw [NestedDict.Full]
    trivial

theorem flatTexts_plain {current : Entries PyStr (PyAtom φ)} {texts : Dict PyStr PyStr}
    (hshallow : Shallow current) (hplain : PlainKeysOf slash current)
    (hspells : SpellsAll slash (Written env) texts.entries current) :
    PlainKeysOf slash (flatTexts texts.entries : Entries PyStr (PyAtom φ)) := by
  rw [plainKeysOf_iff] at hplain ⊢
  intro e he
  obtain ⟨e', he', rfl⟩ := List.mem_map.mp he
  obtain ⟨leaf, hleaf, hkey, -⟩ := hspells.spelled e' he'
  obtain ⟨x, hx, rfl⟩ := (hshallow.mem_leavesOf_iff leaf).mp hleaf
  rw [join_singleton] at hkey
  refine ⟨?_, ?_⟩
  · show slash ∉ e'.1
    rw [hkey]
    exact (hplain x hx).1
  · show PlainKeys slash (.atom _)
    rw [PlainKeys]
    trivial

/-- An update of storable credentials is storable. -/
theorem Storable.insertAll {current new : Entries PyStr (PyAtom φ)}
    (hcurrent : Storable env current) (hshallow : Shallow current) (hnew : Storable env new) :
    Storable env (insertAll current new) := by
  have hnd := ((fullEntries_iff current).mp hcurrent.full).1
  have hnd' := ((fullEntries_iff new).mp hnew.full).1
  refine ⟨insertAll_full hcurrent.full hnew.full,
    insertAll_plain hnd hnd' hcurrent.plain hnew.plain, fun leaf hleaf => ?_⟩
  rcases (mem_leavesOf_insertAll_iff hnd hnd' hshallow leaf).mp hleaf with h | ⟨e, he, -, rfl⟩
  · exact hnew.kept leaf h
  · exact hcurrent.kept _ ((hshallow.mem_leavesOf_iff _).mpr ⟨e, he, rfl⟩)

/-- Shallow credentials are updated. -/
theorem update_holds {w : ProfileWorld φ γ} (hw : Holds env w) (new : Entries PyStr (PyAtom φ))
    (seed : PyStr → ℕ) (hop : Keepable env w (.update id new seed)) :
    ∃ store, w.attempt env (.update id new seed) = .ok store ∧
      Holds env ⟨store, (ProfileOp.update id new seed).stores w.stored⟩ := by
  obtain ⟨⟨current, hcurrent, hshallow⟩, hnew⟩ := hop
  obtain ⟨⟨profile, d, hdoc, hvault, hseals⟩, hst, hempty⟩ := hw.sealed id current hcurrent
  obtain ⟨texts, hread, hspells, henc⟩ := readEncryptedCreds_ok hdoc hvault hseals
  have hnd := ((fullEntries_iff current).mp hst.full).1
  have hndNew := ((fullEntries_iff new).mp hnew.full).1
  have hflat : FullEntries (flatTexts texts.entries : Entries PyStr (PyAtom φ)) :=
    flatTexts_full texts
  have hndFlat := ((fullEntries_iff _).mp hflat).1
  have hwritable : Writable env (NestedDict.insertAll (flatTexts texts.entries) new) := by
    intro leaf hleaf
    have hleaves := mem_leavesOf_insertAll_iff hndFlat hndNew (shallow_flatTexts texts.entries) leaf
    rcases hleaves.mp hleaf with h | ⟨e, he, -, rfl⟩
    · exact hnew.writable leaf h
    · obtain ⟨e', he', rfl⟩ := List.mem_map.mp he
      have hencode := henc e'.2 (List.mem_map.mpr ⟨e', he', rfl⟩)
      unfold PyStr.encode at hencode
      rw [Option.isSome_map] at hencode
      exact ⟨e'.2, rfl, hencode⟩
  have hne : NestedDict.insertAll (flatTexts texts.entries) new = [] → env.takesEmpty = true := by
    intro hnil
    by_cases hc : current = []
    · exact hempty hc
    · obtain ⟨x, rest, rfl⟩ := List.exists_cons_of_ne_nil hc
      obtain ⟨e', he', -⟩ := hspells.covers _
        ((hshallow.mem_leavesOf_iff _).mpr ⟨x, List.mem_cons_self, rfl⟩)
      refine absurd hnil (insertAll_ne_nil hndFlat hndNew ?_)
      exact List.ne_nil_of_mem (mem_flatTexts he')
  obtain ⟨d', hput, hopens, hspells'⟩ := putEncryptedCreds_ok (s := w.store)
    (insertAll_full hflat hnew.full)
    (insertAll_plain hndFlat hndNew (flatTexts_plain hshallow hst.plain hspells) hnew.plain)
    hwritable hne id profile.model.vault seed
  have hseals' : Seals env d' (NestedDict.insertAll current new) :=
    ⟨hopens, spellsAll_insertAll hnd hshallow hndNew hspells hspells'⟩
  have hstores : (ProfileOp.update id new seed).stores w.stored =
      w.stored.set id (NestedDict.insertAll current new) := by
    unfold ProfileOp.stores
    dsimp only
    rw [hcurrent]
  refine ⟨⟨w.store.documents, w.store.vault.set (profile.model.vault, id) d'⟩, ?_, ?_, hw.masked⟩
  · unfold ProfileWorld.attempt updateCredentials
    dsimp only
    rw [hdoc]
    show (readEncryptedCreds env w.store id >>= fun texts => _) = _
    rw [hread]
    exact hput
  · intro id' creds' hcreds'
    rw [hstores] at hcreds'
    by_cases hid : id' = id
    · subst hid
      have heq : creds' = NestedDict.insertAll current new :=
        (Option.some.inj ((Dict.get?_set_self _ _ _).symm.trans hcreds')).symm
      rw [heq]
      refine ⟨⟨profile, d', hdoc, Dict.get?_set_self _ _ _, hseals'⟩,
        hst.insertAll hshallow hnew, fun hnil => ?_⟩
      by_cases hc : current = []
      · exact hempty hc
      · exact absurd hnil (insertAll_ne_nil hnd hndNew hc)
    · have hold : w.stored.get? id' = some creds' :=
        (Dict.get?_set_ne w.stored _ hid).symm.trans hcreds'
      exact (hw.sealed id' creds' hold).frame rfl
        fun vault => Dict.get?_set_ne _ _ (ne_path hid _ _)

/-! ## Runs -/

/-- A step whose credentials can be kept raises nothing and keeps the invariant. -/
theorem step_holds {w : ProfileWorld φ γ} (op : ProfileOp φ) (hw : Holds env w)
    (hop : Keepable env w op) :
    ∃ store, w.attempt env op = .ok store ∧ w.step env op = ⟨store, op.stores w.stored⟩ ∧
      Holds env (w.step env op) := by
  have hstep : ∀ store, w.attempt env op = .ok store →
      w.step env op = ⟨store, op.stores w.stored⟩ := by
    intro store h
    unfold ProfileWorld.step
    rw [h]
  cases op with
  | create id profile r seed =>
    obtain ⟨store, hok, hholds⟩ := create_holds hw r seed hop
    exact ⟨store, hok, hstep store hok, (hstep store hok).symm ▸ hholds⟩
  | update id new seed =>
    obtain ⟨store, hok, hholds⟩ := update_holds hw new seed hop
    exact ⟨store, hok, hstep store hok, (hstep store hok).symm ▸ hholds⟩
  | read id =>
    obtain ⟨creds, hcreds⟩ := (Dict.mem_keys_iff w.stored id).mp hop
    obtain ⟨es, hes, -⟩ := hw.kept.read id creds hcreds
    have hok : w.attempt env (.read id) = .ok w.store := by
      show (readCredentials env w.store id >>= fun _ => _) = _
      rw [hes]
      rfl
    exact ⟨w.store, hok, hstep w.store hok, (hstep w.store hok).symm ▸ hw⟩

/-- A vault that encrypts nothing, and answers in order. -/
def ProfileEnv.clear : ProfileEnv Unit String where
  secrets := SecretsEnv.clear
  repr _ := .ok (pyText "[]")
  encryptData _ plaintext := plaintext
  decryptData ciphertext := some ciphertext
  decrypt_encrypt _ _ := rfl
  arrange d := d
  get?_arrange _ _ := rfl
  takesEmpty := false

/-- The least numbers. -/
def Randint.least : Randint where
  draw _ a _ := a
  draw_mem _ _ _ h := ⟨le_rfl, h⟩

/-- A profile with a password and a port. -/
def mailProfile (password : PyStr) : Profile Unit where
  model :=
    { secretsKeys := [pyText "password", pyText "port"]
      vault := pyText "profile"
      nodup := by decide }
  fields := .ofEntries
    [(pyText "password", .value (.str password)), (pyText "port", .value (.atom (.int 587)))]

/-- The credentials of that profile. -/
def mailCredentials (password : PyStr) : Entries PyStr (PyAtom Unit) :=
  [(pyText "password", PyJson.str password), (pyText "port", .atom (.int 587))]

theorem accepted_mailProfile (password : PyStr) :
    ∀ key ∈ (mailProfile password).model.secretsKeys,
      Accepted ((mailProfile password).getattr key) := by
  intro key hkey
  rcases List.mem_cons.mp hkey with rfl | hkey
  · exact trivial
  · rw [List.mem_singleton.mp hkey]
    exact trivial

/-- Atoms under keys without a slash. -/
theorem atoms_full {es : Entries PyStr (PyAtom φ)} (hnd : (es.map Prod.fst).Nodup)
    (hatoms : ∀ e ∈ es, slash ∉ e.1 ∧ ∃ a, e.2 = .atom a) :
    FullEntries es ∧ PlainKeysOf slash es ∧ Shallow es := by
  refine ⟨(fullEntries_iff es).mpr ⟨hnd, fun e he => ?_⟩, (plainKeysOf_iff slash es).mpr
    fun e he => ⟨(hatoms e he).1, ?_⟩, fun e he es' heq => ?_⟩
  · obtain ⟨-, a, ha⟩ := hatoms e he
    rw [ha, NestedDict.Full]
    trivial
  · obtain ⟨-, a, ha⟩ := hatoms e he
    rw [ha, PlainKeys]
    trivial
  · obtain ⟨-, a, ha⟩ := hatoms e he
    rw [ha] at heq
    cases heq

theorem atoms_mailCredentials (password : PyStr) :
    ∀ e ∈ mailCredentials password, slash ∉ e.1 ∧ ∃ a, e.2 = .atom a := by
  have hpassword : slash ∉ pyText "password" := by decide
  have hport : slash ∉ pyText "port" := by decide
  intro e he
  rcases List.mem_cons.mp he with rfl | he
  · exact ⟨hpassword, _, rfl⟩
  · rw [List.mem_singleton.mp he]
    exact ⟨hport, _, rfl⟩

theorem nodup_mailCredentials (password : PyStr) :
    ((mailCredentials password).map Prod.fst).Nodup := (mailProfile password).nodup_credentials

theorem mem_leavesOf_mailCredentials_iff (password : PyStr) (leaf : List PyStr × PyJson Unit) :
    leaf ∈ leavesOf (mailCredentials password) ↔
      leaf = ([pyText "password"], PyJson.str password) ∨
        leaf = ([pyText "port"], .atom (.int 587)) := by
  obtain ⟨-, -, hshallow⟩ := atoms_full (nodup_mailCredentials password)
    (atoms_mailCredentials password)
  rw [hshallow.mem_leavesOf_iff, mailCredentials]
  simp

/-- A profile is created, its password changed, and read. -/
def mailRun : List (ProfileOp Unit) :=
  [.create (pyText "p1") (mailProfile (pyText "hunter2")) .least fun _ => 0,
    .update (pyText "p1") [(pyText "password", PyJson.str (pyText "swordfish"))] fun _ => 1,
    .read (pyText "p1")]

theorem mailRun_keepable :
    Always (ProfileWorld.step ProfileEnv.clear) (Keepable ProfileEnv.clear) .start mailRun := by
  obtain ⟨hfull, hplain, hshallow⟩ := atoms_full (nodup_mailCredentials (pyText "hunter2"))
    (atoms_mailCredentials (pyText "hunter2"))
  have hcreate : Keepable ProfileEnv.clear .start
      (.create (pyText "p1") (mailProfile (pyText "hunter2")) .least fun _ => 0) := by
    refine ⟨List.not_mem_nil, accepted_mailProfile _, ⟨hfull, hplain, fun leaf hleaf => ?_⟩, ?_⟩
    · rcases (mem_leavesOf_mailCredentials_iff _ leaf).mp hleaf with rfl | rfl
      · exact ⟨rfl, rfl⟩
      · exact .inr (by decide)
    · intro h
      cases h
  obtain ⟨store, -, hstep, hholds⟩ := step_holds _ holds_start hcreate
  have hnew : ∀ e ∈ ([(pyText "password", PyJson.str (pyText "swordfish"))] :
      Entries PyStr (PyAtom Unit)), slash ∉ e.1 ∧ ∃ a, e.2 = .atom a := by
    intro e he
    rw [List.mem_singleton.mp he]
    exact ⟨by decide, _, rfl⟩
  have hnd : (([(pyText "password", PyJson.str (pyText "swordfish"))] :
      Entries PyStr (PyAtom Unit)).map Prod.fst).Nodup := List.nodup_singleton _
  obtain ⟨hfull', hplain', hshallow'⟩ := atoms_full hnd hnew
  have hupdate : Keepable ProfileEnv.clear (ProfileWorld.step ProfileEnv.clear .start
      (.create (pyText "p1") (mailProfile (pyText "hunter2")) .least fun _ => 0))
      (.update (pyText "p1") [(pyText "password", PyJson.str (pyText "swordfish"))]
        fun _ => 1) := by
    rw [hstep]
    refine ⟨⟨mailCredentials (pyText "hunter2"), Dict.get?_set_self _ _ _, hshallow⟩, hfull',
      hplain', fun leaf hleaf => ?_⟩
    obtain ⟨e, he, rfl⟩ := (hshallow'.mem_leavesOf_iff leaf).mp hleaf
    rw [List.mem_singleton.mp he]
    exact ⟨rfl, rfl⟩
  obtain ⟨store', -, hstep', -⟩ := step_holds _ hholds hupdate
  refine ⟨hcreate, hupdate, ?_, trivial⟩
  show pyText "p1" ∈ (ProfileWorld.step ProfileEnv.clear _ _).stored.keys
  rw [hstep', hstep]
  show pyText "p1" ∈ (Dict.set _ _ _).keys
  rw [Dict.mem_keys_set]
  exact .inl rfl

end Notifyr
