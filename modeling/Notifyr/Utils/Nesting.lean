import Notifyr.Runtime.JsonLoads

/-!
# Flattened dictionaries

`flatten_dict` and `unflattened_dict` (`app/utils/helper.py`), which turn a nested dictionary
into one with joined keys and back.

- `parseLeaf`: what `unflattened_dict` makes of a value: a text that is a JSON document becomes
  what it denotes.
- `unflattenedDict`, `flattenDict`: the functions.
- `unflattenedDict_eq`: unflattening writes the parsed leaves at the split keys;
  `unflattenedDict_spelled`: texts that spell the leaves of a dictionary give it back.
- `flattenDict_eq`: flattening lists the leaves under their joined paths.
-/

namespace Notifyr

open Theory NestedDict

variable {φ : Type}

/-! ## Unflattening -/

/-- The value of a leaf: `json.loads` of a text, unless it is no document. -/
def parseLeaf (env : JsonEnv φ) : PyJson φ → Except JsonExc (PyJson φ)
  | .atom (.str s) =>
    match loads env s with
    | .error .jsonDecodeError => .ok (.str s)
    | r => r
  | v => .ok v

/-- `unflattened_dict`. -/
def unflattenedDict (env : JsonEnv φ) (sep : PyStr) (flattened : Entries PyStr (PyAtom φ)) :
    Except JsonExc (Entries PyStr (PyAtom φ)) :=
  flattened.foldlM (fun unflattened e => do
    let value ← parseLeaf env e.2
    return setAt unflattened (PyStr.split sep e.1) value) []

/-- One entry, with its key split and its value parsed. -/
def parseEntry (env : JsonEnv φ) (sep : PyStr) (e : PyStr × PyJson φ) :
    Except JsonExc (List PyStr × PyJson φ) := do
  return (PyStr.split sep e.1, ← parseLeaf env e.2)

theorem foldlM_setAt_eq (env : JsonEnv φ) (sep : PyStr) (flattened es : Entries PyStr (PyAtom φ)) :
    flattened.foldlM (fun unflattened e => do
      let value ← parseLeaf env e.2
      return setAt unflattened (PyStr.split sep e.1) value) es =
      (flattened.mapM (parseEntry env sep)).map (build es) := by
  induction flattened generalizing es with
  | nil => rfl
  | cons e flattened ih =>
    rw [List.foldlM_cons, List.mapM_cons, parseEntry]
    cases parseLeaf env e.2 with
    | error x => rfl
    | ok v =>
      show List.foldlM _ (setAt es (PyStr.split sep e.1) v) flattened = _
      rw [ih]
      show _ = Except.map (build es) ((flattened.mapM (parseEntry env sep)) >>= fun rest =>
        .ok ((PyStr.split sep e.1, v) :: rest))
      cases flattened.mapM (parseEntry env sep) with
      | error x => rfl
      | ok rest => rfl

/-- Unflattening writes the parsed leaves, each at the parts of its key. -/
theorem unflattenedDict_eq (env : JsonEnv φ) (sep : PyStr)
    (flattened : Entries PyStr (PyAtom φ)) :
    unflattenedDict env sep flattened =
      (flattened.mapM (parseEntry env sep)).map (build []) :=
  foldlM_setAt_eq env sep flattened []

/-- A text that `json.loads` does not take for a document. -/
def PlainText (env : JsonEnv φ) (s : PyStr) : Prop := loads env s = .error .jsonDecodeError

/-- A text stays the text it is exactly if it is no document. -/
theorem parseLeaf_str_iff (env : JsonEnv φ) (s : PyStr) :
    parseLeaf env (.str s) = .ok (.str s) ↔ PlainText env s := by
  unfold PlainText
  rw [parseLeaf]
  cases h : loads env s with
  | error x =>
    cases x with
    | jsonDecodeError => simp
    | valueError => simp
    | recursionError => simp
  | ok v =>
    refine iff_of_false ?_ (by simp)
    rintro ⟨⟩
    exact loads_ne_self env s h

/-- The parsed leaves stand at the split keys. -/
theorem mapM_parseEntry_paths {env : JsonEnv φ} {sep : PyStr}
    {flattened : Entries PyStr (PyAtom φ)} {leaves : List (List PyStr × PyJson φ)}
    (h : flattened.mapM (parseEntry env sep) = .ok leaves) :
    leaves.map Prod.fst = flattened.map fun e => PyStr.split sep e.1 := by
  induction flattened generalizing leaves with
  | nil =>
    cases h
    rfl
  | cons e flattened ih =>
    rw [List.mapM_cons] at h
    obtain ⟨leaf, hleaf, h⟩ := bind_ok h
    obtain ⟨rest, hrest, h⟩ := bind_ok h
    cases h
    obtain ⟨v, -, hleaf⟩ := bind_ok hleaf
    cases hleaf
    rw [List.map_cons, List.map_cons, ih hrest]

/-- Texts under keys, as `flattened_dict`. -/
def flatTexts (texts : List (PyStr × PyStr)) : Entries PyStr (PyAtom φ) :=
  texts.map fun e => (e.1, .atom (.str e.2))

theorem mem_flatTexts {texts : List (PyStr × PyStr)} {e : PyStr × PyStr} (he : e ∈ texts) :
    (e.1, (.atom (.str e.2) : PyJson φ)) ∈ flatTexts texts := List.mem_map.mpr ⟨e, he, rfl⟩

/-- The leaves that texts under keys should be nested to. -/
def textLeaves (sep : PyStr) (texts : List (PyStr × PyStr)) : List (List PyStr × PyJson φ) :=
  texts.map fun e => (PyStr.split sep e.1, .atom (.str e.2))

/-- No key leads through another, and no text is a document. -/
def Unfolds (env : JsonEnv φ) (sep : PyStr) (texts : List (PyStr × PyStr)) : Prop :=
  (texts.Pairwise fun e e' => Apart (PyStr.split sep e.1) (PyStr.split sep e'.1)) ∧
    ∀ e ∈ texts, PlainText env e.2

/-- Where a dictionary has a leaf at each split key, no key leads through another. -/
theorem pairwise_apart_of_nests {sep : PyStr} (hsep : sep ≠ []) {texts : List (PyStr × PyStr)}
    (hnd : (texts.map Prod.fst).Nodup) {leaves : List (List PyStr × PyJson φ)}
    {es : Entries PyStr (PyAtom φ)} (hnests : Nests leaves es)
    (hpaths : ∀ e ∈ texts, ∃ v, (PyStr.split sep e.1, v) ∈ leaves) :
    texts.Pairwise fun e e' => Apart (PyStr.split sep e.1) (PyStr.split sep e'.1) := by
  have hdisjoint : ∀ e ∈ texts, ∀ e' ∈ texts, e.1 ≠ e'.1 →
      ¬ PyStr.split sep e.1 <+: PyStr.split sep e'.1 := by
    intro e he e' he' hne hpre
    obtain ⟨v, hv⟩ := hpaths e he
    obtain ⟨v', hv'⟩ := hpaths e' he'
    exact hne (split_injective hsep (congrArg Prod.fst (hnests.eq_of_prefix hv hv' hpre)))
  have hkeys : texts.Pairwise fun e e' => e.1 ≠ e'.1 := List.pairwise_map.mp hnd
  refine hkeys.imp_of_mem ?_
  intro e e' he he' hne
  exact ⟨hdisjoint e he e' he' hne, hdisjoint e' he' e he hne.symm⟩

/-- What unflattening has at a split key is what the text there is parsed to. -/
theorem parseLeaf_of_unflattened (env : JsonEnv φ) {sep : PyStr} (hsep : sep ≠ [])
    {texts : List (PyStr × PyStr)} (hnd : (texts.map Prod.fst).Nodup)
    {leaves : List (List PyStr × PyJson φ)} {es : Entries PyStr (PyAtom φ)}
    (hes : unflattenedDict env sep (flatTexts texts) = .ok es) (hnests : Nests leaves es)
    (hpaths : ∀ e ∈ texts, ∃ v, (PyStr.split sep e.1, v) ∈ leaves) {e : PyStr × PyStr}
    (he : e ∈ texts) {v : PyJson φ} (hv : (PyStr.split sep e.1, v) ∈ leaves) :
    parseLeaf env (.str e.2) = .ok v := by
  have hapart := pairwise_apart_of_nests hsep hnd hnests hpaths
  rw [unflattenedDict_eq] at hes
  obtain ⟨written, hwritten, rfl⟩ := map_ok hes
  have hfst := mapM_parseEntry_paths hwritten
  rw [flatTexts, List.map_map] at hfst
  have hne : ∀ pair ∈ written, pair.1 ≠ [] := by
    intro pair hpair
    have hpath : pair.1 ∈ written.map Prod.fst := List.mem_map.mpr ⟨pair, hpair, rfl⟩
    rw [hfst] at hpath
    obtain ⟨e', -, heq⟩ := List.mem_map.mp hpath
    rw [← heq]
    exact split_ne_nil sep _
  have hwrittenApart : written.Pairwise fun l l' => Apart l.1 l'.1 := by
    refine (List.pairwise_map (f := Prod.fst) (R := Apart)).mp ?_
    rw [hfst]
    exact List.pairwise_map.mpr hapart
  -- what was written at the key is what the nesting has there
  obtain ⟨pair, hpair, hparse⟩ := exists_ok_of_mapM hwritten
    (List.mem_map.mpr ⟨e, he, rfl⟩ : (e.1, (.atom (.str e.2) : PyJson φ)) ∈ _)
  obtain ⟨v', hv', heq⟩ := bind_ok hparse
  cases heq
  have hget := get?_build [] hne hwrittenApart hpair
  have hread := ((hnests _ _).mpr hv).get
  rw [hget] at hread
  cases hread
  exact hv'

/-- Texts under different keys come out nested, and as they were, exactly if they unfold. -/
theorem unflattenedDict_texts_iff (env : JsonEnv φ) {sep : PyStr} (hsep : sep ≠ [])
    {texts : List (PyStr × PyStr)} (hnd : (texts.map Prod.fst).Nodup) :
    (∃ es, unflattenedDict env sep (flatTexts texts) = .ok es ∧
        Nests (textLeaves sep texts) es) ↔ Unfolds env sep texts := by
  constructor
  · rintro ⟨es, hes, hnests⟩
    have hmem : ∀ e ∈ texts, (PyStr.split sep e.1, (.atom (.str e.2) : PyJson φ)) ∈
        textLeaves sep texts := fun e he => List.mem_map.mpr ⟨e, he, rfl⟩
    have hpaths : ∀ e ∈ texts, ∃ v : PyJson φ, (PyStr.split sep e.1, v) ∈ textLeaves sep texts :=
      fun e he => ⟨_, hmem e he⟩
    refine ⟨pairwise_apart_of_nests hsep hnd hnests hpaths, fun e he => ?_⟩
    exact (parseLeaf_str_iff env e.2).mp
      (parseLeaf_of_unflattened env hsep hnd hes hnests hpaths he (hmem e he))
  · rintro ⟨hapart, hplain⟩
    have hleaves : (flatTexts texts).mapM (parseEntry env sep) = .ok (textLeaves sep texts) := by
      rw [flatTexts, List.mapM_map]
      refine mapM_eq_ok_map fun e he => ?_
      show (parseLeaf env (.atom (.str e.2)) >>= fun v => _) = _
      rw [(parseLeaf_str_iff env e.2).mpr (hplain e he)]
      rfl
    rw [unflattenedDict_eq, hleaves]
    refine ⟨_, rfl, nests_build ?_ ?_ ?_⟩
    · intro e he
      obtain ⟨e', -, rfl⟩ := List.mem_map.mp he
      exact split_ne_nil sep e'.1
    · exact List.pairwise_map.mpr hapart
    · intro e he
      obtain ⟨e', -, rfl⟩ := List.mem_map.mp he
      intro e es h
      cases h

/-! ### Texts that spell a dictionary -/

/-- A text under a key is what is written of a leaf, under its joined path. -/
def Spells (c : ℕ) (written : PyJson φ → PyStr → Prop) (e : PyStr × PyStr)
    (leaf : List PyStr × PyJson φ) : Prop := e.1 = PyStr.join [c] leaf.1 ∧ written leaf.2 e.2

/-- The texts are those of the leaves of a dictionary, and all of them. -/
structure SpellsAll (c : ℕ) (written : PyJson φ → PyStr → Prop) (texts : List (PyStr × PyStr))
    (es : Entries PyStr (PyAtom φ)) : Prop where
  spelled : ∀ e ∈ texts, ∃ leaf ∈ leavesOf es, Spells c written e leaf
  covers : ∀ leaf ∈ leavesOf es, ∃ e ∈ texts, Spells c written e leaf

/-- What a text is parsed to. -/
def parsedText (env : JsonEnv φ) (t : PyStr) : PyJson φ :=
  (parseLeaf env (.str t)).toOption.getD (.str t)

/-- Where every text is parsed, unflattening builds the dictionary of the parsed texts. -/
theorem unflattenedDict_parsed (env : JsonEnv φ) (sep : PyStr) {texts : List (PyStr × PyStr)}
    (h : ∀ e ∈ texts, parseLeaf env (.str e.2) = .ok (parsedText env e.2)) :
    unflattenedDict env sep (flatTexts texts) =
      .ok (build [] (texts.map fun e => (PyStr.split sep e.1, parsedText env e.2))) := by
  have hentries : (flatTexts texts).mapM (parseEntry env sep) =
      .ok (texts.map fun e => (PyStr.split sep e.1, parsedText env e.2)) := by
    rw [flatTexts, List.mapM_map]
    refine mapM_eq_ok_map fun e he => ?_
    show (parseLeaf env (.str e.2) >>= fun v => _) = _
    rw [h e he]
    rfl
  rw [unflattenedDict_eq, hentries]
  rfl

/-! ## Flattening -/

mutual

/-- An item under its joined key; a dictionary goes on with the separator. -/
def flattenItem (sep keyVal : PyStr) (acc : Entries PyStr (PyAtom φ)) :
    PyJson φ → Py (Entries PyStr (PyAtom φ))
  | .dict es => flattenEntries sep (keyVal ++ sep) acc es
  | .atom a => .ok (insertKey acc keyVal (.atom a))
  | .list items => .ok (insertKey acc keyVal (.list items))

/-- The loop of `flatten_dict`: keys are joined as they come, `fromKeys` before them. -/
def flattenEntries (sep fromKeys : PyStr) (acc : Entries PyStr (PyAtom φ)) :
    Entries PyStr (PyAtom φ) → Py (Entries PyStr (PyAtom φ))
  | [] => .ok acc
  | (key, item) :: es =>
    if sep <:+: key then .error .keyError
    else do
      let acc ← flattenItem sep (fromKeys ++ key) acc item
      flattenEntries sep fromKeys acc es

end

/-- `flatten_dict(current_dict, dict_sep=sep, _key_builder=lambda x: x+sep)`. -/
def flattenDict (sep : PyStr) (currentDict : Entries PyStr (PyAtom φ)) :
    Py (Entries PyStr (PyAtom φ)) := flattenEntries sep [] [] currentDict

mutual

/-- No key has this letter in it. -/
def PlainKeys (c : ℕ) : PyJson φ → Prop
  | .dict es => PlainKeysOf c es
  | .atom _ => True
  | .list _ => True

/-- The same of the entries of a dictionary. -/
def PlainKeysOf (c : ℕ) : Entries PyStr (PyAtom φ) → Prop
  | [] => True
  | (k, t) :: es => c ∉ k ∧ PlainKeys c t ∧ PlainKeysOf c es

end

theorem join_append (sep a b : PyStr) (ps : List PyStr) :
    PyStr.join sep ((a ++ b) :: ps) = a ++ PyStr.join sep (b :: ps) := by
  induction a with
  | nil => rfl
  | cons n a ih => rw [List.cons_append, join_cons, ih, List.cons_append]

theorem join_cons_of_ne_nil (sep p : PyStr) {ps : List PyStr} (h : ps ≠ []) :
    PyStr.join sep (p :: ps) = p ++ sep ++ PyStr.join sep ps := by
  obtain ⟨q, qs, rfl⟩ := List.exists_cons_of_ne_nil h
  exact List.intercalate_cons_cons

mutual

theorem flattenItem_eq (c : ℕ) (keyVal : PyStr) (acc : Entries PyStr (PyAtom φ)) (t : PyJson φ)
    (ht : PlainKeys c t) :
    flattenItem [c] keyVal acc t =
      .ok (insertAll acc (t.leaves.map fun e => (PyStr.join [c] (keyVal :: e.1), e.2))) := by
  cases t with
  | atom a =>
    rw [flattenItem, leaves, List.map_singleton]
    show _ = Except.ok (insertKey acc (PyStr.join [c] [keyVal]) _)
    rw [PyStr.join, List.intercalate_singleton]
  | list items =>
    rw [flattenItem, leaves, List.map_singleton]
    show _ = Except.ok (insertKey acc (PyStr.join [c] [keyVal]) _)
    rw [PyStr.join, List.intercalate_singleton]
  | dict es =>
    rw [PlainKeys] at ht
    rw [flattenItem, leaves, flattenEntries_eq c _ acc es ht]
    refine congrArg (fun new => Except.ok (insertAll acc new)) (List.map_congr_left ?_)
    intro e he
    obtain ⟨k, ks, hpath, -⟩ := head_of_mem_leavesOf he
    rw [join_cons_of_ne_nil [c] keyVal (by rw [hpath]; exact List.cons_ne_nil _ _)]

/-- Flattening puts the leaves in, under their joined paths. -/
theorem flattenEntries_eq (c : ℕ) (fromKeys : PyStr) (acc es : Entries PyStr (PyAtom φ))
    (hes : PlainKeysOf c es) :
    flattenEntries [c] fromKeys acc es =
      .ok (insertAll acc ((leavesOf es).map fun e => (fromKeys ++ PyStr.join [c] e.1, e.2))) := by
  cases es with
  | nil =>
    rw [flattenEntries, leavesOf]
    rfl
  | cons e es =>
    obtain ⟨k, t⟩ := e
    rw [PlainKeysOf] at hes
    obtain ⟨hk, ht, hes⟩ := hes
    rw [flattenEntries, if_neg fun h => hk (singleton_infix_iff.mp h),
      flattenItem_eq c _ acc t ht]
    show flattenEntries [c] fromKeys _ es = _
    rw [flattenEntries_eq c fromKeys _ es hes, leavesOf, List.map_append, List.map_map]
    unfold insertAll
    rw [List.foldl_append]
    refine congrArg (fun new => Except.ok (List.foldl _ (List.foldl _ acc new) _)) ?_
    refine List.map_congr_left fun e _ => ?_
    show (PyStr.join [c] ((fromKeys ++ k) :: e.1), e.2) =
      (fromKeys ++ PyStr.join [c] (k :: e.1), e.2)
    rw [join_append]

end

mutual

theorem plainKeys_leaves (c : ℕ) (t : PyJson φ) (ht : PlainKeys c t) :
    ∀ e ∈ t.leaves, ∀ k ∈ e.1, c ∉ k := by
  cases t with
  | atom a =>
    rw [leaves]
    intro e he k hk
    rw [List.mem_singleton.mp he] at hk
    cases hk
  | list items =>
    rw [leaves]
    intro e he k hk
    rw [List.mem_singleton.mp he] at hk
    cases hk
  | dict es =>
    rw [PlainKeys] at ht
    rw [leaves]
    exact plainKeys_leavesOf c es ht

theorem plainKeys_leavesOf (c : ℕ) (es : Entries PyStr (PyAtom φ)) (hes : PlainKeysOf c es) :
    ∀ e ∈ leavesOf es, ∀ k ∈ e.1, c ∉ k := by
  cases es with
  | nil =>
    rw [leavesOf]
    intro e he
    cases he
  | cons e es =>
    obtain ⟨j, t⟩ := e
    rw [PlainKeysOf] at hes
    obtain ⟨hj, ht, hes⟩ := hes
    rw [leavesOf]
    intro e he k hk
    rcases List.mem_append.mp he with h | h
    · obtain ⟨e₀, he₀, rfl⟩ := List.mem_map.mp h
      rcases List.mem_cons.mp hk with rfl | hk
      · exact hj
      · exact plainKeys_leaves c t ht e₀ he₀ k hk
    · exact plainKeys_leavesOf c es hes e h k hk

end

theorem plainKeysOf_iff (c : ℕ) (es : Entries PyStr (PyAtom φ)) :
    PlainKeysOf c es ↔ ∀ e ∈ es, c ∉ e.1 ∧ PlainKeys c e.2 := by
  induction es with
  | nil =>
    rw [PlainKeysOf]
    exact iff_of_true trivial (by simp)
  | cons e es ih =>
    rw [show e = (e.1, e.2) from rfl, PlainKeysOf, ih, List.forall_mem_cons, and_assoc]

/-- **Texts that spell a dictionary unflatten to its leaves**, if each is parsed to the leaf it
was written for; their order does not matter. -/
theorem unflattenedDict_spelled (env : JsonEnv φ) {c : ℕ} {es : Entries PyStr (PyAtom φ)}
    (hes : FullEntries es) (hkeys : PlainKeysOf c es) {written : PyJson φ → PyStr → Prop}
    (hparse : ∀ leaf ∈ leavesOf es, ∀ t, written leaf.2 t → parseLeaf env (.str t) = .ok leaf.2)
    {texts : List (PyStr × PyStr)} (hnd : (texts.map Prod.fst).Nodup)
    (h : SpellsAll c written texts es) :
    ∃ es', unflattenedDict env [c] (flatTexts texts) = .ok es' ∧ SameLeaves es es' := by
  have hsplit : ∀ leaf ∈ leavesOf es, PyStr.split [c] (PyStr.join [c] leaf.1) = leaf.1 :=
    fun leaf hleaf => split_join (leafy_of_mem_leavesOf hes hleaf).1
      (plainKeys_leavesOf c es hkeys leaf hleaf)
  have hread : ∀ e ∈ texts, ∀ leaf ∈ leavesOf es, Spells c written e leaf →
      parseLeaf env (.str e.2) = .ok (parsedText env e.2) ∧
        (PyStr.split [c] e.1, parsedText env e.2) = leaf := by
    rintro e he leaf hleaf ⟨hkey, hwritten⟩
    have hparsed := hparse leaf hleaf e.2 hwritten
    have hvalue : parsedText env e.2 = leaf.2 := by
      unfold parsedText
      rw [hparsed]
      rfl
    refine ⟨by rw [hvalue, hparsed], ?_⟩
    rw [hkey, hsplit leaf hleaf, hvalue]
  have hok : ∀ e ∈ texts, parseLeaf env (.str e.2) = .ok (parsedText env e.2) := by
    intro e he
    obtain ⟨leaf, hleaf, hspells⟩ := h.spelled e he
    exact (hread e he leaf hleaf hspells).1
  refine ⟨_, unflattenedDict_parsed env [c] hok, ?_⟩
  have hmem : ∀ pair, pair ∈ texts.map (fun e => (PyStr.split [c] e.1, parsedText env e.2)) ↔
      pair ∈ leavesOf es := by
    intro pair
    rw [List.mem_map]
    constructor
    · rintro ⟨e, he, rfl⟩
      obtain ⟨leaf, hleaf, hspells⟩ := h.spelled e he
      rw [(hread e he leaf hleaf hspells).2]
      exact hleaf
    · intro hpair
      obtain ⟨e, he, hspells⟩ := h.covers pair hpair
      exact ⟨e, he, (hread e he pair hpair hspells).2⟩
  have hapart := pairwise_apart_of_nests (List.cons_ne_nil c []) hnd (nests_leavesOf hes)
    fun e he => ⟨parsedText env e.2, (hmem _).mp (List.mem_map.mpr ⟨e, he, rfl⟩)⟩
  have hbuild : Nests (texts.map fun e => (PyStr.split [c] e.1, parsedText env e.2)) (build [] _) :=
    nests_build (fun pair hpair => (leafy_of_mem_leavesOf hes ((hmem pair).mp hpair)).1)
      (List.pairwise_map.mpr hapart)
      (fun pair hpair => (leafy_of_mem_leavesOf hes ((hmem pair).mp hpair)).2)
  intro p v
  rw [← mem_leavesOf_iff es hes p v, hbuild p v]
  exact (hmem (p, v)).symm

/-- Conversely, where they unflatten to its leaves, each text is parsed to its leaf. -/
theorem parseLeaf_of_spelled (env : JsonEnv φ) {c : ℕ} {es es' : Entries PyStr (PyAtom φ)}
    (hes : FullEntries es) (hkeys : PlainKeysOf c es) {written : PyJson φ → PyStr → Prop}
    {texts : List (PyStr × PyStr)} (hnd : (texts.map Prod.fst).Nodup)
    (h : SpellsAll c written texts es)
    (hok : unflattenedDict env [c] (flatTexts texts) = .ok es') (hsame : SameLeaves es es') :
    ∀ leaf ∈ leavesOf es, ∃ t, written leaf.2 t ∧ parseLeaf env (.str t) = .ok leaf.2 := by
  have hsplit : ∀ leaf ∈ leavesOf es, PyStr.split [c] (PyStr.join [c] leaf.1) = leaf.1 :=
    fun leaf hleaf => split_join (leafy_of_mem_leavesOf hes hleaf).1
      (plainKeys_leavesOf c es hkeys leaf hleaf)
  have hnests : Nests (leavesOf es) es' := by
    intro p v
    rw [mem_leavesOf_iff es hes p v]
    exact (hsame p v).symm
  have hpaths : ∀ e ∈ texts, ∃ v, (PyStr.split [c] e.1, v) ∈ leavesOf es := by
    intro e he
    obtain ⟨leaf, hleaf, hkey, -⟩ := h.spelled e he
    refine ⟨leaf.2, ?_⟩
    rw [hkey, hsplit leaf hleaf]
    exact hleaf
  intro leaf hleaf
  obtain ⟨e, he, hkey, hwritten⟩ := h.covers leaf hleaf
  refine ⟨e.2, hwritten, ?_⟩
  refine parseLeaf_of_unflattened env (List.cons_ne_nil c []) hnd hok hnests hpaths he ?_
  rw [hkey, hsplit leaf hleaf]
  exact hleaf

/-- The leaves of a dictionary under their joined paths. -/
def joinedLeaves (c : ℕ) (es : Entries PyStr (PyAtom φ)) : Entries PyStr (PyAtom φ) :=
  (leavesOf es).map fun e => (PyStr.join [c] e.1, e.2)

/-- The joined paths are different and split into the paths. -/
theorem nodup_joinedLeaves {c : ℕ} {es : Entries PyStr (PyAtom φ)} (hes : FullEntries es)
    (hkeys : PlainKeysOf c es) : ((joinedLeaves c es).map Prod.fst).Nodup := by
  unfold joinedLeaves
  rw [List.map_map]
  refine List.pairwise_map.mpr ((pairwise_apart_leavesOf es (FullEntries.keyed es hes)).imp_of_mem ?_)
  intro e e' he he' hapart heq
  have hsplit : e.1 = e'.1 := by
    rw [← split_join (leafy_of_mem_leavesOf hes he).1 (plainKeys_leavesOf c es hkeys e he),
      ← split_join (leafy_of_mem_leavesOf hes he').1 (plainKeys_leavesOf c es hkeys e' he')]
    exact congrArg _ heq
  exact hapart.1 (hsplit ▸ List.prefix_rfl)

/-- **Flattening a full dictionary lists its leaves.** -/
theorem flattenDict_eq {c : ℕ} {es : Entries PyStr (PyAtom φ)} (hes : FullEntries es)
    (hkeys : PlainKeysOf c es) : flattenDict [c] es = .ok (joinedLeaves c es) := by
  unfold flattenDict
  rw [flattenEntries_eq c [] [] es hkeys]
  refine congrArg Except.ok ?_
  show insertAll [] (joinedLeaves c es) = joinedLeaves c es
  exact foldl_insertKey_of_nodup (by
    rw [List.nil_append]
    exact nodup_joinedLeaves hes hkeys)

end Notifyr
