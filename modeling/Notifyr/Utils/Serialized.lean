import Mathlib.Data.Set.Basic
import Notifyr.Runtime.JsonDumps
import Notifyr.Theory.DictPrune
import Notifyr.Utils.Nesting

/-!
# Dictionaries flattened to texts

`flatten_dict(d, serialized=True)` and `unflattened_dict` (`app/utils/helper.py`) with the
separator they have by default.

- `flattenSerialized`: the leaves of a dictionary as JSON texts, under their joined keys.
- `SerialDict`: a dictionary with keys that do not have the separator, and leaves that
  `json.dumps` writes.
- `unflatten_flattenSerialized`: what comes back is the dictionary with its leaves as they come
  back, without the dictionaries that have no leaf.
- `flattenRight_iff`: the dictionaries that come back, and among which none flattens like another.
-/

namespace Notifyr

open Theory NestedDict

variable {φ : Type}

/-! ## Flattening -/

/-- `DICT_SEP`. -/
def dictSep : PyStr := pyText "->"

/-- How flattening fails. -/
inductive FlattenExc
  | keyError
  | dumps (e : DumpsExc)

/-- A leaf is put under its joined key as `json.dumps(item, default=enum_encoder)`. -/
def putLeaf (env : DumpsEnv φ) (keyVal : PyStr) (flattened : Entries PyStr (PyAtom φ))
    (item : PyValue φ) : Except FlattenExc (Entries PyStr (PyAtom φ)) :=
  match dumps env env.maxDepth item with
  | .error e => .error (.dumps e)
  | .ok text => .ok (insertKey flattened keyVal (.atom (.str text)))

mutual

/-- An item under its joined key; a dictionary goes on with the separator. -/
def serializeItem (env : DumpsEnv φ) (keyVal : PyStr) (flattened : Entries PyStr (PyAtom φ)) :
    PyValue φ → Except FlattenExc (Entries PyStr (PyAtom φ))
  | .dict es => serializeEntries env (keyVal ++ dictSep) flattened es
  | .atom a => putLeaf env keyVal flattened (.atom a)
  | .list items => putLeaf env keyVal flattened (.list items)
  | .tuple items => putLeaf env keyVal flattened (.tuple items)
  | .enum name value => putLeaf env keyVal flattened (.enum name value)
  | .object => putLeaf env keyVal flattened .object

/-- The loop of `flatten_dict`, with `serialized`: a key that is no text is passed over. -/
def serializeEntries (env : DumpsEnv φ) (fromKeys : PyStr)
    (flattened : Entries PyStr (PyAtom φ)) :
    List (PyKey φ × PyValue φ) → Except FlattenExc (Entries PyStr (PyAtom φ))
  | [] => .ok flattened
  | (.str key, item) :: es =>
    if dictSep <:+: key then .error .keyError
    else do
      let flattened ← serializeItem env (fromKeys ++ key) flattened item
      serializeEntries env fromKeys flattened es
  | _ :: es => serializeEntries env fromKeys flattened es

end

/-- `flatten_dict(current_dict, serialized=True)`. -/
def flattenSerialized (env : DumpsEnv φ) (currentDict : List (PyKey φ × PyValue φ)) :
    Except FlattenExc (Entries PyStr (PyAtom φ)) := serializeEntries env [] [] currentDict

/-! ## Dictionaries -/

/-- A value that `json.dumps` writes. -/
def WrittenLeaf (env : DumpsEnv φ) (v : PyValue φ) : Prop :=
  v.Valid ∧ (dumps env env.maxDepth v).isOk

mutual

/-- An item whose leaves `json.dumps` writes. -/
def Serialisable (env : DumpsEnv φ) : PyValue φ → Prop
  | .dict es => SerialisableDict env es
  | .atom a => WrittenLeaf env (.atom a)
  | .list items => WrittenLeaf env (.list items)
  | .tuple items => WrittenLeaf env (.tuple items)
  | .enum name value => WrittenLeaf env (.enum name value)
  | .object => WrittenLeaf env .object

/-- A dictionary of such items, each under a key of its own that does not have the separator. -/
def SerialisableDict (env : DumpsEnv φ) : List (PyKey φ × PyValue φ) → Prop
  | [] => True
  | (k, v) :: es => (∃ s, k = .str s ∧ ¬ dictSep <:+: s) ∧ (∀ e ∈ es, e.1 ≠ k) ∧
      Serialisable env v ∧ SerialisableDict env es

end

/-- A nested dictionary with keys that do not have the separator and leaves that can be written. -/
structure SerialDict (env : DumpsEnv φ) where
  entries : List (PyKey φ × PyValue φ)
  serialisable : SerialisableDict env entries

mutual

/-- A value as a tree: what is no dictionary is a leaf. -/
def nestedOf : PyValue φ → NestedDict PyStr (PyValue φ)
  | .dict es => .dict (nestedEntries es)
  | .atom a => .atom (.atom a)
  | .list items => .atom (.list items)
  | .tuple items => .atom (.tuple items)
  | .enum name value => .atom (.enum name value)
  | .object => .atom .object

/-- The entries of a dictionary that are for texts. -/
def nestedEntries : List (PyKey φ × PyValue φ) → Entries PyStr (PyValue φ)
  | [] => []
  | (.str k, v) :: es => (k, nestedOf v) :: nestedEntries es
  | _ :: es => nestedEntries es

end

/-- Two dictionaries are the same: they have the same leaves, empty dictionaries among them. -/
def SameDict (d d' : List (PyKey φ × PyValue φ)) : Prop :=
  SameLeaves (nestedEntries d) (nestedEntries d')

/-- What should be of the dictionaries of a class: each comes back, and none flattens to what
another one does. -/
structure FlattenRight (env : DumpsEnv φ) (C : Set (SerialDict env)) : Prop where
  back : ∀ d ∈ C, ∃ flat es, flattenSerialized env d.entries = .ok flat ∧
    unflattenedDict env.toJsonEnv dictSep flat = .ok es ∧ ofEntries es = d.entries
  injective : ∀ d ∈ C, ∀ d' ∈ C, ∀ flat flat', flattenSerialized env d.entries = .ok flat →
    flattenSerialized env d'.entries = .ok flat' → flat.Perm flat' →
    SameDict d.entries d'.entries

mutual

/-- An item that comes back: a dictionary with something in it, or a leaf of the kinds that a
document has. -/
def Restores : PyValue φ → Prop
  | .dict es => es ≠ [] ∧ RestoresDict es
  | .atom a => PlainValue (.atom a)
  | .list items => PlainValue (.list items)
  | .tuple _ => False
  | .enum _ _ => False
  | .object => False

/-- A dictionary of such items. -/
def RestoresDict : List (PyKey φ × PyValue φ) → Prop
  | [] => True
  | (_, v) :: es => Restores v ∧ RestoresDict es

end

/-! ## The leaves -/

/-- The value of a leaf. -/
def leafOf : NestedDict PyStr (PyValue φ) → PyValue φ
  | .atom v => v
  | _ => .object

/-- The text of a leaf. -/
def leafText (env : DumpsEnv φ) (t : NestedDict PyStr (PyValue φ)) : PyStr :=
  (dumps env env.maxDepth (leafOf t)).toOption.getD []

/-- A leaf as it comes back. -/
def leafBack (env : DumpsEnv φ) (t : NestedDict PyStr (PyValue φ)) : PyJson φ :=
  decoded env (leafOf t)

/-- The leaves of a dictionary, as texts under their joined keys. -/
def leafTexts (env : DumpsEnv φ) (d : List (PyKey φ × PyValue φ)) : List (PyStr × PyStr) :=
  (leavesOf (nestedEntries d)).map fun e => (PyStr.join dictSep e.1, leafText env e.2)

theorem WrittenLeaf.text {env : DumpsEnv φ} {v : PyValue φ} (h : WrittenLeaf env v) :
    dumps env env.maxDepth v = .ok (leafText env (.atom v)) := by
  unfold leafText leafOf
  cases htext : dumps env env.maxDepth v with
  | error e =>
    have hok := h.2
    rw [htext] at hok
    cases hok
  | ok t => rfl

theorem putLeaf_eq {env : DumpsEnv φ} {v : PyValue φ} (h : WrittenLeaf env v) (keyVal : PyStr)
    (flattened : Entries PyStr (PyAtom φ)) :
    putLeaf env keyVal flattened v =
      .ok (insertAll flattened ([(([] : List PyStr), NestedDict.atom v)].map fun e =>
        (PyStr.join dictSep (keyVal :: e.1), .atom (.str (leafText env e.2))))) := by
  unfold putLeaf
  rw [h.text, List.map_singleton, PyStr.join, List.intercalate_singleton]
  rfl

theorem parse_leafText {env : DumpsEnv φ} {v : PyValue φ} (h : WrittenLeaf env v) :
    parseLeaf env.toJsonEnv (.str (leafText env (.atom v))) = .ok (leafBack env (.atom v)) := by
  rw [parseLeaf, loads_dumps env h.1 h.text]
  rfl

theorem unbordered_dictSep : Unbordered dictSep := unbordered_pair (by decide)

theorem dictSep_ne_nil : dictSep ≠ [] := List.cons_ne_nil _ _

mutual

theorem serializeItem_eq (env : DumpsEnv φ) (keyVal : PyStr)
    (flattened : Entries PyStr (PyAtom φ)) (v : PyValue φ) (hv : Serialisable env v) :
    serializeItem env keyVal flattened v =
      .ok (insertAll flattened ((nestedOf v).leaves.map fun e =>
        (PyStr.join dictSep (keyVal :: e.1), .atom (.str (leafText env e.2))))) := by
  cases v with
  | dict es =>
    rw [Serialisable] at hv
    rw [serializeItem, nestedOf, leaves, serializeEntries_eq env _ flattened es hv]
    refine congrArg (fun new => Except.ok (insertAll flattened new)) (List.map_congr_left ?_)
    intro e he
    obtain ⟨k, ks, hpath, -⟩ := head_of_mem_leavesOf he
    rw [join_cons_of_ne_nil dictSep keyVal (by rw [hpath]; exact List.cons_ne_nil _ _)]
  | atom a =>
    rw [Serialisable] at hv
    rw [serializeItem, nestedOf, leaves]
    exact putLeaf_eq hv keyVal flattened
  | list items =>
    rw [Serialisable] at hv
    rw [serializeItem, nestedOf, leaves]
    exact putLeaf_eq hv keyVal flattened
  | tuple items =>
    rw [Serialisable] at hv
    rw [serializeItem, nestedOf, leaves]
    exact putLeaf_eq hv keyVal flattened
  | enum name value =>
    rw [Serialisable] at hv
    rw [serializeItem, nestedOf, leaves]
    exact putLeaf_eq hv keyVal flattened
  | object =>
    rw [Serialisable] at hv
    rw [serializeItem, nestedOf, leaves]
    exact putLeaf_eq hv keyVal flattened

/-- Flattening puts the texts of the leaves in, under their joined keys. -/
theorem serializeEntries_eq (env : DumpsEnv φ) (fromKeys : PyStr)
    (flattened : Entries PyStr (PyAtom φ)) (es : List (PyKey φ × PyValue φ))
    (hes : SerialisableDict env es) :
    serializeEntries env fromKeys flattened es =
      .ok (insertAll flattened ((leavesOf (nestedEntries es)).map fun e =>
        (fromKeys ++ PyStr.join dictSep e.1, .atom (.str (leafText env e.2))))) := by
  cases es with
  | nil => rfl
  | cons e es =>
    obtain ⟨k, v⟩ := e
    rw [SerialisableDict] at hes
    obtain ⟨⟨key, rfl, hkey⟩, -, hv, hes⟩ := hes
    rw [serializeEntries, if_neg hkey, serializeItem_eq env _ flattened v hv]
    show serializeEntries env fromKeys _ es = _
    rw [serializeEntries_eq env fromKeys _ es hes, nestedEntries, leavesOf, List.map_append,
      List.map_map]
    unfold insertAll
    rw [List.foldl_append]
    refine congrArg (fun new => Except.ok (List.foldl _ (List.foldl _ flattened new) _)) ?_
    refine List.map_congr_left fun e _ => ?_
    show (PyStr.join dictSep ((fromKeys ++ key) :: e.1), _) =
      (fromKeys ++ PyStr.join dictSep (key :: e.1), _)
    rw [join_append]

end

/-- What is known of a leaf and its path. -/
structure LeafFacts (env : DumpsEnv φ) (e : List PyStr × NestedDict PyStr (PyValue φ)) : Prop where
  free : ∀ k ∈ e.1, ¬ dictSep <:+: k
  written : ∃ v, e.2 = .atom v ∧ WrittenLeaf env v

theorem leafFacts_atom {env : DumpsEnv φ} {v : PyValue φ} (hv : WrittenLeaf env v) :
    ∀ e ∈ [(([] : List PyStr), NestedDict.atom v)], LeafFacts env e := by
  intro e he
  rw [List.mem_singleton.mp he]
  exact ⟨fun _ hk => absurd hk List.not_mem_nil, v, rfl, hv⟩

mutual

theorem leafFacts_leaves (env : DumpsEnv φ) (v : PyValue φ) (hv : Serialisable env v) :
    ∀ e ∈ (nestedOf v).leaves, LeafFacts env e := by
  cases v with
  | dict es =>
    rw [Serialisable] at hv
    rw [nestedOf, leaves]
    exact leafFacts_leavesOf env es hv
  | atom a =>
    rw [Serialisable] at hv
    rw [nestedOf, leaves]
    exact leafFacts_atom hv
  | list items =>
    rw [Serialisable] at hv
    rw [nestedOf, leaves]
    exact leafFacts_atom hv
  | tuple items =>
    rw [Serialisable] at hv
    rw [nestedOf, leaves]
    exact leafFacts_atom hv
  | enum name value =>
    rw [Serialisable] at hv
    rw [nestedOf, leaves]
    exact leafFacts_atom hv
  | object =>
    rw [Serialisable] at hv
    rw [nestedOf, leaves]
    exact leafFacts_atom hv

theorem leafFacts_leavesOf (env : DumpsEnv φ) (es : List (PyKey φ × PyValue φ))
    (hes : SerialisableDict env es) : ∀ e ∈ leavesOf (nestedEntries es), LeafFacts env e := by
  cases es with
  | nil => exact fun _ he => absurd he List.not_mem_nil
  | cons e es =>
    obtain ⟨k, v⟩ := e
    rw [SerialisableDict] at hes
    obtain ⟨⟨key, rfl, hkey⟩, -, hv, hes⟩ := hes
    rw [nestedEntries, leavesOf]
    intro e he
    rcases List.mem_append.mp he with h | h
    · obtain ⟨e₀, he₀, rfl⟩ := List.mem_map.mp h
      obtain ⟨hfree, hwritten⟩ := leafFacts_leaves env v hv e₀ he₀
      exact ⟨List.forall_mem_cons.mpr ⟨hkey, hfree⟩, hwritten⟩
    · exact leafFacts_leavesOf env es hes e h

end

/-- The keys of a tree are those of the dictionary. -/
theorem mem_nestedEntries {env : DumpsEnv φ} {es : List (PyKey φ × PyValue φ)}
    (hes : SerialisableDict env es) {e : PyStr × NestedDict PyStr (PyValue φ)}
    (he : e ∈ nestedEntries es) : ∃ v, (.str e.1, v) ∈ es := by
  induction es with
  | nil => cases he
  | cons e' es ih =>
    obtain ⟨k, v⟩ := e'
    rw [SerialisableDict] at hes
    obtain ⟨⟨key, rfl, -⟩, -, -, hes⟩ := hes
    rw [nestedEntries] at he
    rcases List.mem_cons.mp he with rfl | he
    · exact ⟨v, List.mem_cons_self⟩
    · obtain ⟨w, hw⟩ := ih hes he
      exact ⟨w, List.mem_cons_of_mem _ hw⟩

mutual

theorem keyed_nestedOf (env : DumpsEnv φ) (v : PyValue φ) (hv : Serialisable env v) :
    (nestedOf v).Keyed := by
  cases v with
  | dict es =>
    rw [Serialisable] at hv
    rw [nestedOf, Keyed]
    exact keyed_nestedEntries env es hv
  | atom a => trivial
  | list items => trivial
  | tuple items => trivial
  | enum name value => trivial
  | object => trivial

theorem keyed_nestedEntries (env : DumpsEnv φ) (es : List (PyKey φ × PyValue φ))
    (hes : SerialisableDict env es) : KeyedEntries (nestedEntries es) := by
  cases es with
  | nil => trivial
  | cons e es =>
    obtain ⟨k, v⟩ := e
    rw [SerialisableDict] at hes
    obtain ⟨⟨key, rfl, -⟩, hkeys, hv, hes⟩ := hes
    rw [nestedEntries, KeyedEntries]
    refine ⟨fun e he hk => ?_, keyed_nestedOf env v hv, keyed_nestedEntries env es hes⟩
    obtain ⟨w, hw⟩ := mem_nestedEntries hes he
    exact hkeys _ hw (congrArg PyKey.str hk)

end

/-! ## What comes back -/

section Back

variable (env : DumpsEnv φ) {d : List (PyKey φ × PyValue φ)} (hd : SerialisableDict env d)

include hd

theorem split_leaf {e : List PyStr × NestedDict PyStr (PyValue φ)}
    (he : e ∈ leavesOf (nestedEntries d)) :
    PyStr.split dictSep (PyStr.join dictSep e.1) = e.1 := by
  obtain ⟨k, ks, hpath, -⟩ := head_of_mem_leavesOf he
  refine split_join_of_free dictSep_ne_nil unbordered_dictSep ?_
    (leafFacts_leavesOf env d hd e he).free
  rw [hpath]
  exact List.cons_ne_nil _ _

/-- Different leaves are under different joined keys. -/
theorem nodup_leafTexts : ((leafTexts env d).map Prod.fst).Nodup := by
  unfold leafTexts
  rw [List.map_map]
  refine List.pairwise_map.mpr
    ((pairwise_apart_leavesOf _ (keyed_nestedEntries env d hd)).imp_of_mem ?_)
  intro e e' he he' hapart heq
  have hpaths : e.1 = e'.1 := by
    rw [← split_leaf env hd he, ← split_leaf env hd he']
    exact congrArg _ heq
  exact hapart.1 (hpaths ▸ List.prefix_rfl)

theorem flattenSerialized_eq : flattenSerialized env d = .ok (flatTexts (leafTexts env d)) := by
  have hnodup : (([] ++ (flatTexts (leafTexts env d) : Entries PyStr (PyAtom φ))).map
      Prod.fst).Nodup := by
    rw [List.nil_append, flatTexts, List.map_map]
    exact nodup_leafTexts env hd
  have hall : insertAll [] (flatTexts (leafTexts env d)) =
      (flatTexts (leafTexts env d) : Entries PyStr (PyAtom φ)) := foldl_insertKey_of_nodup hnodup
  unfold flattenSerialized
  rw [serializeEntries_eq env [] [] d hd, ← hall]
  unfold flatTexts leafTexts
  rw [List.map_map]
  rfl

/-- **What comes back**: the dictionary with its leaves as they come back, without the
dictionaries that have none. -/
theorem unflatten_flattenSerialized :
    unflattenedDict env.toJsonEnv dictSep (flatTexts (leafTexts env d)) =
      .ok (prune (leafBack env) (nestedEntries d)) := by
  have hparse : ∀ e ∈ leavesOf (nestedEntries d),
      parseLeaf env.toJsonEnv (.str (leafText env e.2)) = .ok (leafBack env e.2) := by
    intro e he
    obtain ⟨-, v, hv, hwritten⟩ := leafFacts_leavesOf env d hd e he
    rw [hv]
    exact parse_leafText hwritten
  have hparsed : ∀ e ∈ leavesOf (nestedEntries d),
      parsedText env.toJsonEnv (leafText env e.2) = leafBack env e.2 := by
    intro e he
    unfold parsedText
    rw [hparse e he]
    rfl
  rw [unflattenedDict_parsed env.toJsonEnv dictSep]
  · rw [← build_leavesOf (leafBack env) (keyed_nestedEntries env d hd)]
    refine congrArg (fun pairs => Except.ok (build [] pairs)) ?_
    unfold leafTexts leavesWith
    rw [List.map_map]
    refine List.map_congr_left fun e he => ?_
    show (PyStr.split dictSep (PyStr.join dictSep e.1), _) = _
    rw [split_leaf env hd he]
    exact congrArg (Prod.mk e.1) (hparsed e he)
  · intro e he
    obtain ⟨e₀, he₀, rfl⟩ := List.mem_map.mp he
    rw [hparsed e₀ he₀]
    exact hparse e₀ he₀

end Back

theorem length_prune_le {env : DumpsEnv φ} (f : NestedDict PyStr (PyValue φ) → PyJson φ)
    {es : List (PyKey φ × PyValue φ)} (hes : SerialisableDict env es) :
    (prune f (nestedEntries es)).length ≤ es.length := by
  induction es with
  | nil => exact le_rfl
  | cons e es ih =>
    obtain ⟨k, v⟩ := e
    rw [SerialisableDict] at hes
    obtain ⟨⟨key, rfl, -⟩, -, -, hes⟩ := hes
    have hrest := ih hes
    rw [nestedEntries, prune_cons, List.length_append, List.length_cons]
    cases pruneItem f (nestedOf v) with
    | none =>
      rw [Option.map_none, Option.toList_none, List.length_nil]
      omega
    | some t =>
      rw [Option.map_some, Option.toList_some, List.length_singleton]
      omega

/-- A leaf comes back exactly if it is of the kinds that a document has. -/
theorem restores_leaf {env : DumpsEnv φ} {v : PyValue φ} (hv : WrittenLeaf env v) :
    (∃ t, some (leafBack env (.atom v)) = some t ∧ ofJson t = v) ↔ PlainValue v := by
  rw [← ofJson_decoded_iff env v hv.1]
  constructor
  · rintro ⟨t, ht, h⟩
    cases ht
    exact h
  · intro h
    exact ⟨_, rfl, h⟩

mutual

theorem restores_iff (env : DumpsEnv φ) (v : PyValue φ) (hv : Serialisable env v) :
    (∃ t, pruneItem (leafBack env) (nestedOf v) = some t ∧ ofJson t = v) ↔ Restores v := by
  cases v with
  | dict es =>
    rw [Serialisable] at hv
    rw [nestedOf, pruneItem, Restores, ← restoresDict_iff env es hv]
    cases hprune : prune (leafBack env) (nestedEntries es) with
    | nil =>
      rw [ofEntries]
      constructor
      · rintro ⟨t, ht, -⟩
        cases ht
      · rintro ⟨hne, h⟩
        exact absurd h.symm hne
    | cons e es' =>
      constructor
      · rintro ⟨t, ht, h⟩
        cases ht
        rw [ofJson] at h
        have hes := PyValue.dict.inj h
        refine ⟨?_, hes⟩
        rw [← hes, show e = (e.1, e.2) from rfl, ofEntries]
        exact List.cons_ne_nil _ _
      · rintro ⟨-, h⟩
        refine ⟨_, rfl, ?_⟩
        rw [ofJson, h]
  | atom a =>
    rw [Serialisable] at hv
    rw [nestedOf, pruneItem, Restores]
    exact restores_leaf hv
  | list items =>
    rw [Serialisable] at hv
    rw [nestedOf, pruneItem, Restores]
    exact restores_leaf hv
  | tuple items =>
    rw [Serialisable] at hv
    rw [nestedOf, pruneItem, Restores, restores_leaf hv, PlainValue]
  | enum name value =>
    rw [Serialisable] at hv
    rw [nestedOf, pruneItem, Restores, restores_leaf hv, PlainValue]
  | object =>
    rw [Serialisable] at hv
    rw [nestedOf, pruneItem, Restores, restores_leaf hv, PlainValue]

/-- **The dictionaries that come back as they were.** -/
theorem restoresDict_iff (env : DumpsEnv φ) (es : List (PyKey φ × PyValue φ))
    (hes : SerialisableDict env es) :
    ofEntries (prune (leafBack env) (nestedEntries es)) = es ↔ RestoresDict es := by
  cases es with
  | nil => exact iff_of_true rfl trivial
  | cons e es =>
    obtain ⟨k, v⟩ := e
    rw [SerialisableDict] at hes
    obtain ⟨⟨key, rfl, -⟩, -, hv, hes⟩ := hes
    rw [nestedEntries, prune_cons, RestoresDict, ← restores_iff env v hv,
      ← restoresDict_iff env es hes]
    cases pruneItem (leafBack env) (nestedOf v) with
    | none =>
      -- an entry is gone, so that there are fewer
      have hlen := length_prune_le (leafBack env) hes
      refine iff_of_false ?_ ?_
      · intro h
        have hlengths := congrArg List.length h
        rw [Option.map_none, Option.toList_none, List.nil_append, length_ofEntries,
          List.length_cons] at hlengths
        omega
      · rintro ⟨⟨t, ht, -⟩, -⟩
        cases ht
    | some t =>
      rw [Option.map_some, Option.toList_some, List.singleton_append, ofEntries, List.cons.injEq,
        Prod.mk.injEq]
      constructor
      · rintro ⟨⟨-, ht⟩, h⟩
        exact ⟨⟨t, rfl, ht⟩, h⟩
      · rintro ⟨⟨t', ht', h'⟩, h⟩
        cases ht'
        exact ⟨⟨rfl, h'⟩, h⟩

end

/-! ## Which dictionary it was -/

mutual

theorem full_nestedOf (env : DumpsEnv φ) (v : PyValue φ) (hv : Serialisable env v)
    (h : Restores v) : (nestedOf v).Full ∧ ∀ e ∈ (nestedOf v).leaves, PlainValue (leafOf e.2) := by
  cases v with
  | dict es =>
    rw [Serialisable] at hv
    rw [Restores] at h
    obtain ⟨hfull, hplain⟩ := full_nestedEntries env es hv h.2
    rw [nestedOf, Full, leaves]
    refine ⟨⟨?_, hfull⟩, hplain⟩
    obtain ⟨e, es', rfl⟩ := List.exists_cons_of_ne_nil h.1
    obtain ⟨k, w⟩ := e
    rw [SerialisableDict] at hv
    obtain ⟨⟨key, rfl, -⟩, -⟩ := hv
    rw [nestedEntries]
    exact List.cons_ne_nil _ _
  | atom a =>
    rw [nestedOf, leaves]
    exact ⟨trivial, List.forall_mem_singleton.mpr h⟩
  | list items =>
    rw [nestedOf, leaves]
    exact ⟨trivial, List.forall_mem_singleton.mpr h⟩
  | tuple items =>
    rw [Restores] at h
    exact h.elim
  | enum name value =>
    rw [Restores] at h
    exact h.elim
  | object =>
    rw [Restores] at h
    exact h.elim

theorem full_nestedEntries (env : DumpsEnv φ) (es : List (PyKey φ × PyValue φ))
    (hes : SerialisableDict env es) (h : RestoresDict es) :
    FullEntries (nestedEntries es) ∧
      ∀ e ∈ leavesOf (nestedEntries es), PlainValue (leafOf e.2) := by
  cases es with
  | nil => exact ⟨trivial, fun _ he => absurd he List.not_mem_nil⟩
  | cons e es =>
    have hkeyed := keyed_nestedEntries env _ hes
    obtain ⟨k, v⟩ := e
    rw [SerialisableDict] at hes
    obtain ⟨⟨key, rfl, -⟩, -, hv, hes⟩ := hes
    rw [RestoresDict] at h
    rw [nestedEntries, KeyedEntries] at hkeyed
    obtain ⟨hfull, hplain⟩ := full_nestedOf env v hv h.1
    obtain ⟨hfulls, hplains⟩ := full_nestedEntries env es hes h.2
    rw [nestedEntries, FullEntries, leavesOf]
    refine ⟨⟨hkeyed.1, hfull, hfulls⟩, fun e he => ?_⟩
    rcases List.mem_append.mp he with he | he
    · obtain ⟨e₀, he₀, rfl⟩ := List.mem_map.mp he
      exact hplain e₀ he₀
    · exact hplains e he

end

/-- A leaf of one dictionary is one of another that flattens to the same texts. -/
theorem mem_leavesOf_of_flat (env : DumpsEnv φ) {d d' : List (PyKey φ × PyValue φ)}
    (hd : SerialisableDict env d) (hd' : SerialisableDict env d') (h : RestoresDict d)
    (h' : RestoresDict d') (hflat : ∀ e ∈ leafTexts env d, e ∈ leafTexts env d')
    {e : List PyStr × NestedDict PyStr (PyValue φ)} (he : e ∈ leavesOf (nestedEntries d)) :
    e ∈ leavesOf (nestedEntries d') := by
  obtain ⟨e', he', heq⟩ := List.mem_map.mp (hflat _ (List.mem_map.mpr ⟨e, he, rfl⟩))
  obtain ⟨hjoin, htext⟩ := Prod.mk.inj heq
  have hpath : e'.1 = e.1 := by
    rw [← split_leaf env hd he, ← split_leaf env hd' he']
    exact congrArg _ hjoin
  obtain ⟨-, v, hv, hwritten⟩ := leafFacts_leavesOf env d hd e he
  obtain ⟨-, v', hv', hwritten'⟩ := leafFacts_leavesOf env d' hd' e' he'
  have hplain := (full_nestedEntries env d hd h).2 e he
  have hplain' := (full_nestedEntries env d' hd' h').2 e' he'
  rw [hv] at hplain htext
  rw [hv'] at hplain' htext
  -- the text says what the leaf was
  have hback : leafBack env (.atom v') = leafBack env (.atom v) := by
    have hparse := parse_leafText hwritten
    rw [← htext, parse_leafText hwritten'] at hparse
    exact Except.ok.inj hparse
  have hvalue : v' = v := by
    rw [← (ofJson_decoded_iff env v hwritten.1).mpr hplain,
      ← (ofJson_decoded_iff env v' hwritten'.1).mpr hplain']
    exact congrArg ofJson hback
  have hsame : e = e' := Prod.ext hpath.symm (by rw [hv, hv', hvalue])
  exact hsame ▸ he'

theorem sameDict_of_perm (env : DumpsEnv φ) {d d' : List (PyKey φ × PyValue φ)}
    (hd : SerialisableDict env d) (hd' : SerialisableDict env d') (h : RestoresDict d)
    (h' : RestoresDict d')
    (hperm : (flatTexts (leafTexts env d) : Entries PyStr (PyAtom φ)).Perm
      (flatTexts (leafTexts env d'))) : SameDict d d' := by
  have hmem : ∀ (d : List (PyKey φ × PyValue φ)) (e : PyStr × PyStr),
      e ∈ leafTexts env d ↔
        (e.1, (.atom (.str e.2) : PyJson φ)) ∈ flatTexts (leafTexts env d) := by
    intro d e
    unfold flatTexts
    rw [List.mem_map]
    constructor
    · intro he
      exact ⟨e, he, rfl⟩
    · rintro ⟨e', he', heq⟩
      obtain ⟨hkey, htext⟩ := Prod.mk.inj heq
      have hsame : e' = e := Prod.ext hkey (PyAtom.str.inj (NestedDict.atom.inj htext))
      exact hsame ▸ he'
  intro p t
  rw [← mem_leavesOf_iff _ (full_nestedEntries env d hd h).1,
    ← mem_leavesOf_iff _ (full_nestedEntries env d' hd' h').1]
  constructor
  · refine mem_leavesOf_of_flat env hd hd' h h' fun e he => ?_
    exact (hmem d' e).mpr (hperm.mem_iff.mp ((hmem d e).mp he))
  · refine mem_leavesOf_of_flat env hd' hd h' h fun e he => ?_
    exact (hmem d e).mpr (hperm.mem_iff.mpr ((hmem d' e).mp he))

/-- **The classes of dictionaries that all come back, and in which none flattens like another.** -/
theorem flattenRight_iff (env : DumpsEnv φ) (C : Set (SerialDict env)) :
    FlattenRight env C ↔ ∀ d ∈ C, RestoresDict d.entries := by
  constructor
  · intro h d hdC
    obtain ⟨flat, es, hflat, hback, hes⟩ := h.back d hdC
    rw [flattenSerialized_eq env d.serialisable] at hflat
    cases hflat
    rw [unflatten_flattenSerialized env d.serialisable] at hback
    cases hback
    exact (restoresDict_iff env d.entries d.serialisable).mp hes
  · intro h
    refine ⟨fun d hdC => ?_, fun d hdC d' hdC' flat flat' hflat hflat' hperm => ?_⟩
    · exact ⟨_, _, flattenSerialized_eq env d.serialisable,
        unflatten_flattenSerialized env d.serialisable,
        (restoresDict_iff env d.entries d.serialisable).mpr (h d hdC)⟩
    · rw [flattenSerialized_eq env d.serialisable] at hflat
      rw [flattenSerialized_eq env d'.serialisable] at hflat'
      cases hflat
      cases hflat'
      exact sameDict_of_perm env d.serialisable d'.serialisable (h d hdC) (h d' hdC') hperm

/-- A dictionary with an empty one in it. -/
def emptyInside : SerialDict zeroEnv where
  entries := [(.str (pyText "a"), .dict [])]
  serialisable := ⟨⟨pyText "a", rfl, by decide⟩,
    fun _ he => absurd he List.not_mem_nil, trivial, trivial⟩

/-- It comes back without it. -/
theorem not_flattenRight_univ : ¬ FlattenRight zeroEnv Set.univ := by
  intro h
  obtain ⟨flat, es, hflat, hback, hes⟩ := h.back emptyInside trivial
  have hflat' : flattenSerialized zeroEnv emptyInside.entries = .ok [] := rfl
  rw [hflat'] at hflat
  cases hflat
  cases hback
  cases hes

end Notifyr
