import Notifyr.Runtime.JsonLoads
import Notifyr.Theory.Inherit

/-!
# The definitions of a cost file

`load_file_into_objects` of `CostService` (`app/services/cost_service.py`), with `flatten_dict`
(`app/utils/helper.py`) as it is called there.

- `flattenDict`: the definitions under their types and names.
- `loadDefinition`, `loadLoop`, `loadFileIntoObjects`: the table of definitions is filled.
- `Loaded`: each definition is in the table, with its own fields and those it takes;
  `loaded_iff`: the files that are loaded so, in their order.
- `LoadsRight`: a file is loaded so, or else reported, and the order does not matter.
- `loadsRight_iff`: the files of which that is true.
-/

namespace Notifyr

open Theory

namespace CostDefinitions

variable {φ : Type}

/-! ## Cost files -/

/-- The fields of a definition. -/
abbrev Fields (φ : Type) := Dict PyStr (PyJson φ)

/-- The table of definitions, by name. -/
abbrev CostsDefinition (φ : Type) := Dict PyStr (Fields φ)

/-- The data of a cost file: the definitions by type and name, and whether there are rules. -/
structure CostsFile (φ : Type) where
  cost : Option (Dict PyStr (Dict PyStr (Fields φ)))
  hasRules : Bool

/-- How loading ends, if not well; each is printed. -/
inductive LoadError
  | buildFailure
  | buildWarning
  | keyError
  | valueError
  | attributeError
  | typeError
  deriving DecidableEq

/-- `DICT_SEP`. -/
def dictSep : ℕ := ord '/'

/-- `flatten_dict` at the last level, under the keys that lead to it. -/
def flattenItems {α : Type} (fromKeys : PyStr) (flattened : Dict PyStr α) :
    List (PyStr × α) → Except LoadError (Dict PyStr α)
  | [] => .ok flattened
  | (key, item) :: rest =>
    if dictSep ∈ key then .error .keyError
    else flattenItems fromKeys (flattened.set (fromKeys ++ key) item) rest

/-- `flatten_dict(cost, dict_sep='/', _key_builder=lambda p: p + '/', max_level=1)`. -/
def flattenDict {α : Type} (flattened : Dict PyStr α) :
    List (PyStr × Dict PyStr α) → Except LoadError (Dict PyStr α)
  | [] => .ok flattened
  | (key, item) :: rest =>
    if dictSep ∈ key then .error .keyError
    else
      match flattenItems (key ++ [dictSep]) flattened item.entries with
      | .error e => .error e
      | .ok flattened => flattenDict flattened rest

/-! ## Loading -/

/-- `'__copy__'`. -/
def copyKey : PyStr := pyText "__copy__"

/-- The mode and the `from` of the rules for copying. -/
def copyRules : PyJson φ → Except LoadError (PyJson φ × PyJson φ)
  | .atom (.str copyFrom) => .ok (.atom (.str (pyText "hard")), .atom (.str copyFrom))
  | .dict rules =>
    .ok ((rules.lookup (pyText "mode")).getD (.atom (.str (pyText "hard"))),
      (rules.lookup (pyText "from")).getD (.atom .none))
  | _ => .error .attributeError

/-- `self.costs_definition[copy_from]`, where it is in; lists and dictionaries cannot be keys. -/
def findSource (table : CostsDefinition φ) : PyJson φ → Except LoadError (Option (Fields φ))
  | .atom (.str name) => .ok (table.get? name)
  | .atom _ => .ok none
  | _ => .error .typeError

/-- `mode == 'soft'`. -/
def isSoft : PyJson φ → Bool
  | .atom (.str mode) => mode = pyText "soft"
  | _ => false

/-- `key.startswith('__')`. -/
def isDunder (key : PyStr) : Bool := pyText "__" <+: key

/-- `base.update(v)`. -/
def Fields.update (base v : Fields φ) : Fields φ := v.entries.foldl (fun d e => d.set e.1 e.2) base

/-- What a definition starts from; `none` where it is passed over. -/
def copyBase (table : CostsDefinition φ) (v : Fields φ) : Except LoadError (Option (Fields φ)) :=
  match v.get? copyKey with
  | none => .ok (some Dict.empty)
  | some rules =>
    match copyRules rules with
    | .error e => .error e
    | .ok (mode, copyFrom) =>
      match findSource table copyFrom with
      | .error e => .error e
      | .ok none => .ok none
      | .ok (some source) => .ok (some (
          -- the fields of `v`, not those of the source
          if isSoft mode then
            v.filterMapValues fun key value => if isDunder key then some value else none
          else source))

/-- The definition that is stored. The classes are dictionaries. -/
def storedDefinition (costType name : PyStr) (base v : Fields φ) : Fields φ :=
  if costType = pyText "task" then
    if pyText "email" <+: name then base
    else if pyText "sms" <+: name then base
    else if pyText "phone" <+: name then base
    else v
  else if costType = pyText "simple-task" then base
  else if costType = pyText "file" then base
  else v

/-- One round of the loop. -/
def loadDefinition (table : CostsDefinition φ) (k : PyStr) (v : Fields φ) :
    Except LoadError (CostsDefinition φ) :=
  match copyBase table v with
  | .error e => .error e
  | .ok none => .ok table
  | .ok (some base) =>
    match PyStr.split [dictSep] k with
    | [costType, name] => .ok (table.set name (storedDefinition costType name (base.update v) v))
    | _ => .error .valueError

/-- The loop over the definitions. -/
def loadLoop (table : CostsDefinition φ) :
    List (PyStr × Fields φ) → CostsDefinition φ × Option LoadError
  | [] => (table, none)
  | (k, v) :: rest =>
    match loadDefinition table k v with
    | .error e => (table, some e)
    | .ok table => loadLoop table rest

/-- `load_file_into_objects`: the table, and the exception that is printed. -/
def loadFileIntoObjects (table : CostsDefinition φ) (file : CostsFile φ) :
    CostsDefinition φ × Option LoadError :=
  match file.cost with
  | none => (table, some .buildFailure)
  | some cost =>
    match flattenDict Dict.empty cost.entries with
    | .error e => (table, some e)
    | .ok definition =>
      match loadLoop table definition.entries with
      | (table, some e) => (table, some e)
      | (table, none) => (table, if file.hasRules then none else some .buildWarning)

/-- A cost file, loaded when the service is built. -/
def load (file : CostsFile φ) : CostsDefinition φ × Option LoadError :=
  loadFileIntoObjects Dict.empty file

/-! ## What a file says -/

/-- A definition of a file. -/
structure Definition (φ : Type) where
  costType : PyStr
  name : PyStr
  fields : Fields φ

/-- The definitions of a file, in their order. -/
def definitions (file : CostsFile φ) : List (Definition φ) :=
  match file.cost with
  | none => []
  | some cost => cost.entries.flatMap fun s => s.2.entries.map fun d => ⟨s.1, d.1, d.2⟩

/-- A definition as one that takes fields from another: all of them, or the dunder fields. -/
def Definition.node (x : Definition φ) : Node (PyJson φ) PyStr (PyJson φ) where
  own := x.fields.get?
  parent := (x.fields.get? copyKey).map fun rules =>
    match copyRules rules with
    | .ok (mode, copyFrom) => (copyFrom, fun key => !isSoft mode || isDunder key)
    | .error _ => (.atom .none, fun _ => false)

/-- The definitions of a name. -/
def nodes (file : CostsFile φ) (name : PyJson φ) (node : Node (PyJson φ) PyStr (PyJson φ)) : Prop :=
  ∃ x ∈ definitions file, name = .atom (.str x.name) ∧ node = x.node

/-- No reference is dangling or on a cycle. -/
def Resolvable (file : CostsFile φ) : Prop :=
  ∀ x ∈ definitions file, ∃ values, Resolves (nodes file) x.node values

/-- Each definition is in the table, with its fields, and there are as many of them. -/
structure Loaded (file : CostsFile φ) (table : CostsDefinition φ) : Prop where
  fields : ∀ x ∈ definitions file, ∃ e, table.get? x.name = some e ∧
    Resolves (nodes file) x.node e.get?
  length : table.entries.length = (definitions file).length

/-- The same definitions, in some order. -/
def SameDefinitions (file file' : CostsFile φ) : Prop :=
  file.hasRules = file'.hasRules ∧
    Option.Rel (fun cost cost' => ∀ t, Option.Rel (fun s s' => ∀ n, s.get? n = s'.get? n)
      (cost.get? t) (cost'.get? t)) file.cost file'.cost

/-- The same fields under the same names. -/
def SameTable (table table' : CostsDefinition φ) : Prop :=
  ∀ n, (table.get? n).map Dict.get? = (table'.get? n).map Dict.get?

/-- A file is loaded if its references are sound, and else reported and not loaded in part; and
another order of its definitions gives the same. -/
structure LoadsRight (file : CostsFile φ) : Prop where
  loaded : Resolvable file → Loaded file (load file).1
  reported : ¬ Resolvable file → (load file).2 ≠ none ∧ (load file).1 = Dict.empty
  order : ∀ file', SameDefinitions file file' → SameTable (load file).1 (load file').1

/-! ## When it is right -/

/-- A separator in the name of a type or of a definition. -/
def HasSep (file : CostsFile φ) : Prop :=
  ∃ cost, file.cost = some cost ∧ ∃ s ∈ cost.entries,
    dictSep ∈ s.1 ∨ ∃ d ∈ s.2.entries, dictSep ∈ d.1

/-- The key of a definition in the flattened file. -/
def Definition.key (x : Definition φ) : PyStr := x.costType ++ dictSep :: x.name

/-- The definitions that are made of the base: the others are stored as they stand in the file. -/
def isBuilt (costType name : PyStr) : Bool :=
  costType = pyText "task" ∧
      (pyText "email" <+: name ∨ pyText "sms" <+: name ∨ pyText "phone" <+: name) ∨
    costType = pyText "simple-task" ∨ costType = pyText "file"

/-- A rule for copying that cannot be read, or a source that cannot be a key. -/
def Definition.Raises (x : Definition φ) : Prop :=
  ∃ rules e, x.fields.get? copyKey = some rules ∧
    (copyRules rules = .error e ∨ ∃ mode copyFrom, copyRules rules = .ok (mode, copyFrom) ∧
      findSource (Dict.empty : CostsDefinition φ) copyFrom = .error e)

/-- A hard copy of a type for which it is made. -/
def Definition.copiesAll (x : Definition φ) : Bool :=
  isBuilt x.costType x.name && match x.fields.get? copyKey with
    | none => false
    | some rules =>
      match copyRules rules with
      | .ok (mode, _) => !isSoft mode
      | .error _ => false

/-- No two definitions have one name, whatever their types. -/
def DistinctNames (file : CostsFile φ) : Prop := ((definitions file).map Definition.name).Nodup

/-- Each definition that takes fields stands after the one that it takes them from, and if it is
not copied as a whole, it has all that it would take. -/
def CopiesWell (file : CostsFile φ) : Prop :=
  ∀ before x after, definitions file = before ++ x :: after →
    ∀ name keys, x.node.parent = some (name, keys) →
      ∃ y ∈ before, name = .atom (.str y.name) ∧ (x.copiesAll = false →
        ∀ values, Resolves (nodes file) y.node values →
          ∀ k, keys k = true → values k ≠ none → x.fields.get? k ≠ none)

/-! ## The flattened file -/

section Flatten

variable {α : Type}

theorem flattenItems_of_free (fromKeys : PyStr) {flattened : Dict PyStr α}
    {items : List (PyStr × α)} (hfree : ∀ d ∈ items, dictSep ∉ d.1) :
    flattenItems fromKeys flattened items =
      .ok ((items.map fun d => (fromKeys ++ d.1, d.2)).foldl (fun d e => d.set e.1 e.2)
        flattened) := by
  induction items generalizing flattened with
  | nil => rfl
  | cons d items ih =>
    obtain ⟨hd, hitems⟩ := List.forall_mem_cons.mp hfree
    rw [flattenItems, if_neg hd, ih hitems]
    rfl

theorem flattenItems_of_sep (fromKeys : PyStr) {flattened : Dict PyStr α}
    {items : List (PyStr × α)} (hsep : ∃ d ∈ items, dictSep ∈ d.1) :
    flattenItems fromKeys flattened items = .error .keyError := by
  induction items generalizing flattened with
  | nil =>
    obtain ⟨_, hmem, -⟩ := hsep
    cases hmem
  | cons d items ih =>
    rw [flattenItems]
    split_ifs with hd
    · rfl
    · obtain ⟨d', hmem, hd'⟩ := hsep
      rcases List.mem_cons.mp hmem with rfl | hmem
      · exact absurd hd' hd
      · exact ih ⟨d', hmem, hd'⟩

theorem flattenDict_of_free {flattened : Dict PyStr α} {sections : List (PyStr × Dict PyStr α)}
    (hfree : ∀ s ∈ sections, dictSep ∉ s.1 ∧ ∀ d ∈ s.2.entries, dictSep ∉ d.1) :
    flattenDict flattened sections =
      .ok ((sections.flatMap fun s => s.2.entries.map fun d => (s.1 ++ dictSep :: d.1, d.2)).foldl
        (fun d e => d.set e.1 e.2) flattened) := by
  induction sections generalizing flattened with
  | nil => rfl
  | cons s sections ih =>
    obtain ⟨⟨hs, hitems⟩, hsections⟩ := List.forall_mem_cons.mp hfree
    rw [flattenDict, if_neg hs, flattenItems_of_free _ hitems]
    dsimp only
    rw [ih hsections, List.flatMap_cons, List.foldl_append]
    simp only [List.append_assoc, List.singleton_append]

theorem flattenDict_of_sep {flattened : Dict PyStr α} {sections : List (PyStr × Dict PyStr α)}
    (hsep : ∃ s ∈ sections, dictSep ∈ s.1 ∨ ∃ d ∈ s.2.entries, dictSep ∈ d.1) :
    flattenDict flattened sections = .error .keyError := by
  induction sections generalizing flattened with
  | nil =>
    obtain ⟨_, hmem, -⟩ := hsep
    cases hmem
  | cons s sections ih =>
    rw [flattenDict]
    split_ifs with hs
    · rfl
    · by_cases hitems : ∃ d ∈ s.2.entries, dictSep ∈ d.1
      · rw [flattenItems_of_sep _ hitems]
      · rw [flattenItems_of_free _ fun d hd hkey => hitems ⟨d, hd, hkey⟩]
        obtain ⟨s', hmem, hs'⟩ := hsep
        rcases List.mem_cons.mp hmem with rfl | hmem
        · exact absurd hs' (not_or.mpr ⟨hs, hitems⟩)
        · exact ih ⟨s', hmem, hs'⟩

end Flatten

/-! ## The definitions of a file -/

section Definitions

variable {file file' : CostsFile φ}

theorem mem_definitions_iff {x : Definition φ} :
    x ∈ definitions file ↔ ∃ cost s, file.cost = some cost ∧ cost.get? x.costType = some s ∧
      s.get? x.name = some x.fields := by
  unfold definitions
  cases hcost : file.cost with
  | none => exact iff_of_false List.not_mem_nil fun ⟨_, _, h, _⟩ => by cases h
  | some cost =>
    dsimp only
    rw [List.mem_flatMap]
    constructor
    · rintro ⟨s, hs, hx⟩
      obtain ⟨d, hd, rfl⟩ := List.mem_map.mp hx
      exact ⟨cost, s.2, rfl, (cost.mem_entries_iff s.1 s.2).mp hs,
        (s.2.mem_entries_iff d.1 d.2).mp hd⟩
    · rintro ⟨_, s, ⟨⟩, hs, hx⟩
      exact ⟨(x.costType, s), (cost.mem_entries_iff _ _).mpr hs,
        List.mem_map.mpr ⟨(x.name, x.fields), (s.mem_entries_iff _ _).mpr hx, rfl⟩⟩

/-- A definition is found by its type and name. -/
theorem definition_eq {x y : Definition φ} (hx : x ∈ definitions file) (hy : y ∈ definitions file)
    (htype : x.costType = y.costType) (hname : x.name = y.name) : x = y := by
  obtain ⟨cost, s, hcost, hs, hd⟩ := mem_definitions_iff.mp hx
  obtain ⟨cost', s', hcost', hs', hd'⟩ := mem_definitions_iff.mp hy
  cases hcost.symm.trans hcost'
  rw [htype] at hs
  cases hs.symm.trans hs'
  rw [hname] at hd
  obtain ⟨tx, nx, fx⟩ := x
  obtain ⟨ty, ny, fy⟩ := y
  obtain rfl : tx = ty := htype
  obtain rfl : nx = ny := hname
  cases hd.symm.trans hd'
  rfl

theorem nodup_definitions (file : CostsFile φ) : (definitions file).Nodup := by
  unfold definitions
  cases file.cost with
  | none => exact List.nodup_nil
  | some cost =>
    refine List.nodup_flatMap.mpr ⟨fun s _ => ?_, ?_⟩
    · refine List.Nodup.of_map (f := Definition.name) ?_
      rw [List.map_map]
      exact s.2.nodup
    · refine (List.pairwise_map.mp cost.nodup).imp fun hne => ?_
      intro x hx hx'
      obtain ⟨d, -, rfl⟩ := List.mem_map.mp hx
      obtain ⟨d', -, heq⟩ := List.mem_map.mp hx'
      exact hne (congrArg Definition.costType heq).symm

theorem hasSep_iff : HasSep file ↔ ∃ cost t s, file.cost = some cost ∧ cost.get? t = some s ∧
    (dictSep ∈ t ∨ ∃ n d, s.get? n = some d ∧ dictSep ∈ n) := by
  constructor
  · rintro ⟨cost, hcost, s, hs, hsep⟩
    refine ⟨cost, s.1, s.2, hcost, (cost.mem_entries_iff _ _).mp hs, hsep.imp_right ?_⟩
    rintro ⟨d, hd, hkey⟩
    exact ⟨d.1, d.2, (s.2.mem_entries_iff _ _).mp hd, hkey⟩
  · rintro ⟨cost, t, s, hcost, hs, hsep⟩
    refine ⟨cost, hcost, (t, s), (cost.mem_entries_iff _ _).mpr hs, hsep.imp_right ?_⟩
    rintro ⟨n, d, hd, hkey⟩
    exact ⟨(n, d), (s.mem_entries_iff _ _).mpr hd, hkey⟩

theorem sep_not_mem (hsep : ¬ HasSep file) {x : Definition φ} (hx : x ∈ definitions file) :
    dictSep ∉ x.costType ∧ dictSep ∉ x.name := by
  obtain ⟨cost, s, hcost, hs, hd⟩ := mem_definitions_iff.mp hx
  exact ⟨fun h => hsep (hasSep_iff.mpr ⟨cost, _, s, hcost, hs, .inl h⟩),
    fun h => hsep (hasSep_iff.mpr ⟨cost, _, s, hcost, hs, .inr ⟨_, _, hd, h⟩⟩)⟩

/-- The key of a definition is taken apart into its type and name. -/
theorem split_key {x : Definition φ} (htype : dictSep ∉ x.costType) (hname : dictSep ∉ x.name) :
    PyStr.split [dictSep] x.key = [x.costType, x.name] := by
  have hkey : x.key = PyStr.join [dictSep] [x.costType, x.name] := by
    simp [Definition.key, PyStr.join]
  rw [hkey]
  refine split_join (List.cons_ne_nil _ _) ?_
  rw [List.forall_mem_cons, List.forall_mem_singleton]
  exact ⟨htype, hname⟩

theorem nodup_keys (hsep : ¬ HasSep file) : ((definitions file).map Definition.key).Nodup := by
  refine List.Nodup.map_on (fun x hx y hy hkey => ?_) (nodup_definitions file)
  obtain ⟨htx, hnx⟩ := sep_not_mem hsep hx
  obtain ⟨hty, hny⟩ := sep_not_mem hsep hy
  have hsplit := congrArg (PyStr.split [dictSep]) hkey
  rw [split_key htx hnx, split_key hty hny] at hsplit
  injection hsplit with htype hrest
  injection hrest with hname
  exact definition_eq hx hy htype hname

/-- The loop over some definitions. -/
def run (table : CostsDefinition φ) (xs : List (Definition φ)) :
    CostsDefinition φ × Option LoadError :=
  loadLoop table (xs.map fun x => (x.key, x.fields))

/-- A file with a separator in a name is not loaded. -/
theorem load_of_sep (hsep : HasSep file) : load file = (Dict.empty, some .keyError) := by
  obtain ⟨cost, hcost, hsections⟩ := hsep
  unfold load loadFileIntoObjects
  rw [hcost]
  dsimp only
  rw [flattenDict_of_sep hsections]

/-- Any other is flattened to its definitions, in their order. -/
theorem flattenDict_definitions (hsep : ¬ HasSep file)
    {cost : Dict PyStr (Dict PyStr (Fields φ))} (hcost : file.cost = some cost) :
    ∃ definition, flattenDict Dict.empty cost.entries = .ok definition ∧
      definition.entries = (definitions file).map fun x => (x.key, x.fields) := by
  have hfree : ∀ s ∈ cost.entries, dictSep ∉ s.1 ∧ ∀ d ∈ s.2.entries, dictSep ∉ d.1 :=
    fun s hs => ⟨fun h => hsep ⟨cost, hcost, s, hs, .inl h⟩,
      fun d hd h => hsep ⟨cost, hcost, s, hs, .inr ⟨d, hd, h⟩⟩⟩
  have hpairs : (cost.entries.flatMap fun s =>
      s.2.entries.map fun d => (s.1 ++ dictSep :: d.1, d.2)) =
      (definitions file).map fun x => (x.key, x.fields) := by
    unfold definitions
    rw [hcost]
    dsimp only
    rw [List.map_flatMap]
    simp only [List.map_map]
    rfl
  rw [flattenDict_of_free hfree, hpairs]
  refine ⟨_, rfl, Dict.entries_foldl_set (d := Dict.empty) ?_⟩
  show (((definitions file).map fun x => (x.key, x.fields)).map Prod.fst).Nodup
  rw [List.map_map]
  exact nodup_keys hsep

/-- And it is loaded definition by definition. -/
theorem load_of_free (hsep : ¬ HasSep file) :
    (load file).1 = (run Dict.empty (definitions file)).1 ∧
      ((load file).2 = none ↔ file.cost ≠ none ∧ file.hasRules = true ∧
        (run Dict.empty (definitions file)).2 = none) := by
  unfold load loadFileIntoObjects
  cases hcost : file.cost with
  | none =>
    unfold definitions
    rw [hcost]
    exact ⟨rfl, iff_of_false nofun fun h => h.1 rfl⟩
  | some cost =>
    obtain ⟨definition, hflatten, hentries⟩ := flattenDict_definitions hsep hcost
    dsimp only
    rw [hflatten]
    dsimp only
    rw [hentries]
    unfold run
    generalize loadLoop Dict.empty _ = loop
    obtain ⟨table, _ | e⟩ := loop
    · refine ⟨rfl, ?_⟩
      cases file.hasRules with
      | true => exact iff_of_true rfl ⟨Option.some_ne_none _, rfl, rfl⟩
      | false => exact iff_of_false nofun fun h => Bool.false_ne_true h.2.1
    · exact ⟨rfl, iff_of_false nofun fun h => Option.some_ne_none _ h.2.2⟩

end Definitions

/-! ## One definition -/

section Step

variable {x : Definition φ} {table : CostsDefinition φ}

theorem storedDefinition_eq (costType name : PyStr) (base v : Fields φ) :
    storedDefinition costType name base v = if isBuilt costType name = true then base else v := by
  unfold storedDefinition isBuilt
  by_cases htask : costType = pyText "task"
  · have hsimple : costType ≠ pyText "simple-task" := by rw [htask]; decide
    have hfile : costType ≠ pyText "file" := by rw [htask]; decide
    rw [if_pos htask]
    split_ifs <;> simp_all
  · rw [if_neg htask]
    split_ifs <;> simp_all

/-- Own fields first. -/
theorem get?_update (base v : Fields φ) (k : PyStr) :
    (base.update v).get? k = (v.get? k).or (base.get? k) := by
  unfold Fields.update
  rw [Dict.get?_foldl_set v.nodup]
  rfl

theorem parent_eq_none_iff : x.node.parent = none ↔ x.fields.get? copyKey = none := by
  unfold Definition.node
  rw [Option.map_eq_none_iff]

theorem copiesAll_eq {rules mode copyFrom : PyJson φ} (hrules : x.fields.get? copyKey = some rules)
    (hcopy : copyRules rules = .ok (mode, copyFrom)) :
    x.copiesAll = (isBuilt x.costType x.name && !isSoft mode) := by
  unfold Definition.copiesAll
  rw [hrules]
  dsimp only
  rw [hcopy]

/-- What is copied as a whole may be. -/
theorem keys_of_copiesAll (h : x.copiesAll = true) {name : PyJson φ} {keys : PyStr → Bool}
    (hparent : x.node.parent = some (name, keys)) (k : PyStr) : keys k = true := by
  obtain ⟨rules, hrules, heq⟩ := Option.map_eq_some_iff.mp hparent
  cases hcopy : copyRules rules with
  | error e =>
    unfold Definition.copiesAll at h
    rw [hrules] at h
    dsimp only at h
    rw [hcopy, Bool.and_false] at h
    exact absurd h Bool.false_ne_true
  | ok r =>
    rw [copiesAll_eq hrules hcopy] at h
    rw [hcopy] at heq
    cases heq
    show (!isSoft r.1 || isDunder k) = true
    rw [(Bool.and_eq_true_iff.mp h).2, Bool.true_or]

/-- Whether a source can be a key does not depend on the table. -/
theorem findSource_error_iff (copyFrom : PyJson φ) (e : LoadError) :
    findSource table copyFrom = .error e ↔
      findSource (Dict.empty : CostsDefinition φ) copyFrom = .error e := by
  cases copyFrom with
  | atom a =>
    cases a with
    | str s => exact iff_of_false nofun nofun
    | _ => exact Iff.rfl
  | _ => exact Iff.rfl

/-- A source that is found is named by a text. -/
theorem findSource_eq_some {copyFrom : PyJson φ} {source : Fields φ}
    (h : findSource table copyFrom = .ok (some source)) :
    ∃ name, copyFrom = .atom (.str name) ∧ table.get? name = some source := by
  cases copyFrom with
  | atom a =>
    cases a with
    | str name => exact ⟨name, rfl, Except.ok.inj h⟩
    | _ => cases h
  | _ => cases h

/-- What a round of the loop does with a definition. -/
inductive Step (table : CostsDefinition φ) (x : Definition φ) :
    Except LoadError (CostsDefinition φ) → Prop
  | plain {e : Fields φ} (plain : x.node.parent = none) (fields : e.get? = x.fields.get?) :
      Step table x (.ok (table.set x.name e))
  | raised {er : LoadError} (raises : x.Raises) : Step table x (.error er)
  | passed {name : PyJson φ} {keys : PyStr → Bool} (parent : x.node.parent = some (name, keys))
      (reads : ¬ x.Raises) (missing : ∀ s, name = .atom (.str s) → table.get? s = none) :
      Step table x (.ok table)
  | copied {name : PyStr} {keys : PyStr → Bool} {source e : Fields φ}
      (parent : x.node.parent = some (.atom (.str name), keys)) (reads : ¬ x.Raises)
      (found : table.get? name = some source)
      (fields : e.get? = inherit x.fields.get? (fun _ => x.copiesAll) source.get?) :
      Step table x (.ok (table.set x.name e))

theorem loadDefinition_step (table : CostsDefinition φ) (htype : dictSep ∉ x.costType)
    (hname : dictSep ∉ x.name) :
    Step table x (loadDefinition table x.key x.fields) := by
  unfold loadDefinition copyBase
  rw [split_key htype hname]
  cases hrules : x.fields.get? copyKey with
  | none =>
    refine .plain (parent_eq_none_iff.mpr hrules) (funext fun k => ?_)
    rw [storedDefinition_eq]
    split_ifs
    · rw [get?_update, Dict.get?_empty, Option.or_none]
    · rfl
  | some rules =>
    dsimp only
    have hparent : x.node.parent = some (match copyRules rules with
        | .ok (mode, copyFrom) => (copyFrom, fun key => !isSoft mode || isDunder key)
        | .error _ => (.atom .none, fun _ => false)) := by
      unfold Definition.node
      rw [hrules]
      rfl
    cases hcopy : copyRules rules with
    | error e => exact .raised ⟨rules, e, hrules, .inl hcopy⟩
    | ok r =>
      obtain ⟨mode, copyFrom⟩ := r
      rw [hcopy] at hparent
      dsimp only at hparent ⊢
      have hreads {o : Option (Fields φ)} (hfind : findSource table copyFrom = .ok o) :
          ¬ x.Raises := by
        rintro ⟨rules', e, hrules', herror⟩
        cases hrules.symm.trans hrules'
        rcases herror with herror | ⟨mode', copyFrom', hcopy', herror⟩
        · cases hcopy.symm.trans herror
        · cases hcopy.symm.trans hcopy'
          cases hfind.symm.trans ((findSource_error_iff _ _).mpr herror)
      cases hfind : findSource table copyFrom with
      | error e =>
        exact .raised ⟨rules, e, hrules, .inr ⟨mode, copyFrom, hcopy,
          (findSource_error_iff _ _).mp hfind⟩⟩
      | ok o =>
        cases o with
        | none =>
          refine .passed hparent (hreads hfind) fun s hs => ?_
          rw [hs] at hfind
          exact Except.ok.inj hfind
        | some source =>
          obtain ⟨name, rfl, hfound⟩ := findSource_eq_some hfind
          refine .copied hparent (hreads hfind) hfound (funext fun k => ?_)
          rw [storedDefinition_eq]
          unfold inherit
          rw [copiesAll_eq hrules hcopy]
          cases isBuilt x.costType x.name with
          | false => exact (Option.or_none).symm
          | true =>
            cases hsoft : isSoft mode with
            | false => exact get?_update source x.fields k
            | true =>
              rw [if_pos rfl, get?_update, if_pos rfl, Dict.get?_filterMapValues]
              cases x.fields.get? k <;> rfl

end Step

/-! ## The loop -/

section Loop

variable {table : CostsDefinition φ}

theorem run_cons (table : CostsDefinition φ) (x : Definition φ) (xs : List (Definition φ)) :
    run table (x :: xs) = match loadDefinition table x.key x.fields with
      | .error e => (table, some e)
      | .ok table => run table xs := rfl

theorem run_append (table : CostsDefinition φ) (xs ys : List (Definition φ)) :
    run table (xs ++ ys) = match run table xs with
      | (table, some e) => (table, some e)
      | (table, none) => run table ys := by
  induction xs generalizing table with
  | nil => rfl
  | cons x xs ih =>
    rw [List.cons_append, run_cons, run_cons]
    cases loadDefinition table x.key x.fields with
    | error e => rfl
    | ok table' => exact ih table'

/-- Definitions without separators in their names. -/
def Free (xs : List (Definition φ)) : Prop :=
  ∀ x ∈ xs, dictSep ∉ x.costType ∧ dictSep ∉ x.name

/-- The loop leaves other names as they are. -/
theorem get?_run {xs : List (Definition φ)} (hfree : Free xs) {n : PyStr}
    (hn : ∀ x ∈ xs, x.name ≠ n) : (run table xs).1.get? n = table.get? n := by
  induction xs generalizing table with
  | nil => rfl
  | cons x xs ih =>
    obtain ⟨⟨htype, hname⟩, hfree⟩ := List.forall_mem_cons.mp hfree
    obtain ⟨hx, hn⟩ := List.forall_mem_cons.mp hn
    rw [run_cons]
    have hstep := loadDefinition_step table htype hname
    generalize loadDefinition table x.key x.fields = r at hstep
    cases hstep with
    | raised => rfl
    | passed => exact ih hfree hn
    | plain => exact (ih hfree hn).trans (Dict.get?_set_ne _ _ (Ne.symm hx))
    | copied => exact (ih hfree hn).trans (Dict.get?_set_ne _ _ (Ne.symm hx))

/-- The names of the table are those that it had and those of definitions. -/
theorem mem_keys_run {xs : List (Definition φ)} (hfree : Free xs) {n : PyStr}
    (h : n ∈ (run table xs).1.keys) : n ∈ table.keys ∨ n ∈ xs.map Definition.name := by
  by_contra hnot
  obtain ⟨htable, hxs⟩ := not_or.mp hnot
  have hsame : (run table xs).1.get? n = table.get? n :=
    get?_run hfree fun x hx hname => hxs (List.mem_map.mpr ⟨x, hx, hname⟩)
  rw [Dict.mem_keys_iff, hsame, ← Dict.mem_keys_iff] at h
  exact htable h

/-- A name in the table stays there. -/
theorem mem_keys_run_of_mem {xs : List (Definition φ)} (hfree : Free xs) {n : PyStr}
    (h : n ∈ table.keys) : n ∈ (run table xs).1.keys := by
  induction xs generalizing table with
  | nil => exact h
  | cons x xs ih =>
    obtain ⟨⟨htype, hname⟩, hfree⟩ := List.forall_mem_cons.mp hfree
    rw [run_cons]
    have hstep := loadDefinition_step table htype hname
    generalize loadDefinition table x.key x.fields = r at hstep
    cases hstep with
    | raised => exact h
    | passed => exact ih hfree h
    | plain => exact ih hfree ((Dict.mem_keys_set _ _ _ _).mpr (.inr h))
    | copied => exact ih hfree ((Dict.mem_keys_set _ _ _ _).mpr (.inr h))

end Loop

/-! ## The files whose references are sound -/

section Sound

variable {file : CostsFile φ}

theorem free_definitions (hsep : ¬ HasSep file) : Free (definitions file) :=
  fun _ hx => sep_not_mem hsep hx

/-- A definition that names a text can be read. -/
theorem not_raises_of_named {x : Definition φ} {name : PyStr} {keys : PyStr → Bool}
    (hparent : x.node.parent = some (.atom (.str name), keys)) : ¬ x.Raises := by
  rintro ⟨rules, e, hrules, herror⟩
  obtain ⟨rules', hrules', heq⟩ := Option.map_eq_some_iff.mp hparent
  cases hrules.symm.trans hrules'
  rcases herror with herror | ⟨mode, copyFrom, hcopy, herror⟩
  · rw [herror] at heq
    cases heq
  · rw [hcopy] at heq
    cases heq
    cases herror

/-- Where names are distinct, each is of one node. -/
theorem nodes_unique (hdistinct : DistinctNames file) (name : PyJson φ)
    (node node' : Node (PyJson φ) PyStr (PyJson φ)) :
    nodes file name node → nodes file name node' → node = node' := by
  rintro ⟨x, hx, rfl, rfl⟩ ⟨y, hy, hname, rfl⟩
  have hxy : x.name = y.name := by
    injection hname with hatom
    injection hatom
  rw [List.inj_on_of_nodup_map hdistinct hx hy hxy]

/-- The table after the first definitions, if all goes well. -/
structure Filled (file : CostsFile φ) (before : List (Definition φ)) (table : CostsDefinition φ) :
    Prop where
  fields : ∀ y ∈ before, ∃ e, table.get? y.name = some e ∧ Resolves (nodes file) y.node e.get?
  keys : table.keys = before.map Definition.name

theorem Filled.set {before : List (Definition φ)} {table : CostsDefinition φ}
    (h : Filled file before table) {x : Definition φ} (hnew : x.name ∉ before.map Definition.name)
    {e : Fields φ} (hresolves : Resolves (nodes file) x.node e.get?) :
    Filled file (before ++ [x]) (table.set x.name e) where
  fields y hy := by
    rcases List.mem_append.mp hy with hy | hy
    · obtain ⟨e', he', hy'⟩ := h.fields y hy
      have hne : y.name ≠ x.name := fun hname => hnew (hname ▸ List.mem_map_of_mem hy)
      exact ⟨e', (Dict.get?_set_ne _ _ hne).trans he', hy'⟩
    · cases List.mem_singleton.mp hy
      exact ⟨e, Dict.get?_set_self _ _ _, hresolves⟩
  keys := by
    have hkey : x.name ∉ table.keys := by rwa [h.keys]
    have hkeys : table.entries.map Prod.fst = before.map Definition.name := h.keys
    unfold Dict.keys
    rw [Dict.entries_set_of_not_mem _ _ hkey, List.map_append, hkeys, List.map_append]
    rfl

/-- One definition that copies well. -/
theorem filled_step {before after : List (Definition φ)} {table : CostsDefinition φ}
    {x : Definition φ} (hsep : ¬ HasSep file) (hdistinct : DistinctNames file)
    (hcopies : CopiesWell file) (hfile : definitions file = before ++ x :: after)
    (h : Filled file before table) : ∃ table', loadDefinition table x.key x.fields = .ok table' ∧
      Filled file (before ++ [x]) table' := by
  have hx : x ∈ definitions file := by
    rw [hfile]
    exact List.mem_append_right _ List.mem_cons_self
  have hnew : x.name ∉ before.map Definition.name := by
    unfold DistinctNames at hdistinct
    rw [hfile, List.map_append, List.map_cons] at hdistinct
    intro hmem
    exact (List.nodup_append.mp hdistinct).2.2 _ hmem _ List.mem_cons_self rfl
  have hsource {name : PyJson φ} {keys : PyStr → Bool}
      (hparent : x.node.parent = some (name, keys)) :
      ∃ y ∈ before, name = .atom (.str y.name) ∧ (x.copiesAll = false →
        ∀ values, Resolves (nodes file) y.node values →
          ∀ k, keys k = true → values k ≠ none → x.fields.get? k ≠ none) :=
    hcopies before x after hfile name keys hparent
  obtain ⟨htype, hname⟩ := sep_not_mem hsep hx
  have hstep := loadDefinition_step table htype hname
  generalize loadDefinition table x.key x.fields = r at hstep
  cases hstep with
  | @plain e plain fields =>
    refine ⟨_, rfl, h.set hnew ?_⟩
    rw [fields]
    exact .root plain
  | raised raises =>
    cases hparent : x.node.parent with
    | none =>
      obtain ⟨rules, -, hrules, -⟩ := raises
      cases hrules.symm.trans (parent_eq_none_iff.mp hparent)
    | some r =>
      obtain ⟨y, -, hr, -⟩ := hsource hparent
      have hparent' : x.node.parent = some (.atom (.str y.name), r.2) := by rw [hparent, ← hr]
      exact absurd raises (not_raises_of_named hparent')
  | passed parent _ missing =>
    obtain ⟨y, hy, hr, -⟩ := hsource parent
    obtain ⟨e, he, -⟩ := h.fields y hy
    cases he.symm.trans (missing y.name hr)
  | @copied name keys source e parent _ found fields =>
    refine ⟨_, rfl, h.set hnew ?_⟩
    obtain ⟨y, hy, hr, htakes⟩ := hsource parent
    obtain rfl : name = y.name := by
      injection hr with hatom
      injection hatom
    obtain ⟨source', hsource', hresolves⟩ := h.fields y hy
    cases found.symm.trans hsource'
    have hnamed : nodes file (.atom (.str y.name)) y.node :=
      ⟨y, by rw [hfile]; exact List.mem_append_left _ hy, rfl, rfl⟩
    have hfields : e.get? = inherit x.node.own keys source.get? := by
      rw [fields]
      cases hall : x.copiesAll with
      | true =>
        rw [funext (keys_of_copiesAll hall parent)]
        rfl
      | false =>
        rw [inherit_nothing]
        exact (inherit_eq_own.mpr (htakes hall _ hresolves)).symm
    rw [hfields]
    exact .step parent hnamed hresolves

/-- All the definitions of a file that copies well. -/
theorem filled_run {before after : List (Definition φ)} {table : CostsDefinition φ}
    (hsep : ¬ HasSep file) (hdistinct : DistinctNames file) (hcopies : CopiesWell file)
    (hfile : definitions file = before ++ after) (h : Filled file before table) :
    Filled file (definitions file) (run table after).1 := by
  induction after generalizing before table with
  | nil =>
    rw [hfile, List.append_nil]
    exact h
  | cons x after ih =>
    obtain ⟨table', hload, h'⟩ := filled_step hsep hdistinct hcopies hfile h
    rw [run_cons, hload]
    exact ih (by rw [hfile, List.append_assoc]; rfl) h'

/-- A definition that copies and is in the table at the end stands after its source, and has got
from it what the source has there. -/
theorem stored_of_copy {before after : List (Definition φ)} {x : Definition φ}
    (hsep : ¬ HasSep file) (hdistinct : DistinctNames file)
    (hfile : definitions file = before ++ x :: after)
    (hsome : x.name ∈ (run Dict.empty (definitions file)).1.keys)
    {name : PyJson φ} {keys : PyStr → Bool} (hparent : x.node.parent = some (name, keys)) :
    ∃ y ∈ before, name = .atom (.str y.name) ∧ ∃ source e,
      (run Dict.empty (definitions file)).1.get? y.name = some source ∧
      (run Dict.empty (definitions file)).1.get? x.name = some e ∧
      e.get? = inherit x.fields.get? (fun _ => x.copiesAll) source.get? := by
  have hfree : Free (before ++ x :: after) := hfile ▸ free_definitions hsep
  obtain ⟨hbefore, hrest⟩ := List.forall_mem_append.mp hfree
  obtain ⟨⟨htype, hname⟩, hafter⟩ := List.forall_mem_cons.mp hrest
  have hnames : ((before ++ x :: after).map Definition.name).Nodup := hfile ▸ hdistinct
  rw [List.map_append, List.map_cons] at hnames
  obtain ⟨-, hcons, hapart⟩ := List.nodup_append.mp hnames
  have hlast : ∀ y ∈ after, y.name ≠ x.name := fun y hy hname =>
    (List.nodup_cons.mp hcons).1 (List.mem_map.mpr ⟨y, hy, hname⟩)
  -- the table before the definition has none of its name
  have hnew : x.name ∉ (run Dict.empty before).1.keys := fun h => by
    rcases mem_keys_run hbefore h with h | h
    · cases h
    · exact hapart _ h _ List.mem_cons_self rfl
  have hrun : run Dict.empty (definitions file) = match run Dict.empty before with
      | (table, some e) => (table, some e)
      | (table, none) => run table (x :: after) := by rw [hfile, run_append]
  cases hfirst : run Dict.empty before with
  | mk table ended =>
    rw [hfirst] at hrun hnew
    cases ended with
    | some er =>
      rw [hrun] at hsome
      exact absurd hsome hnew
    | none =>
      dsimp only at hrun hnew
      rw [run_cons] at hrun
      have hstep := loadDefinition_step table htype hname
      generalize loadDefinition table x.key x.fields = r at hstep hrun
      cases hstep with
      | plain plain => cases plain.symm.trans hparent
      | raised =>
        rw [hrun] at hsome
        exact absurd hsome hnew
      | passed =>
        dsimp only at hrun
        rw [hrun, Dict.mem_keys_iff, get?_run hafter hlast, ← Dict.mem_keys_iff] at hsome
        exact absurd hsome hnew
      | @copied s keys' source e parent _ found fields =>
        dsimp only at hrun
        cases hparent.symm.trans parent
        -- the source is one of the definitions before, and stays as it is
        have hs : s ∈ (run Dict.empty before).1.keys := by
          rw [hfirst]
          exact (Dict.mem_keys_iff _ _).mpr ⟨source, found⟩
        obtain ⟨y, hy, rfl⟩ : ∃ y ∈ before, y.name = s := by
          rcases mem_keys_run hbefore hs with h | h
          · cases h
          · exact List.mem_map.mp h
        refine ⟨y, hy, rfl, source, e, ?_, ?_, fields⟩
        · rw [hrun, get?_run hafter fun z hz hname => ?_, Dict.get?_set_ne, found]
          · exact hapart _ (List.mem_map_of_mem hy) _ List.mem_cons_self
          · exact hapart _ (List.mem_map_of_mem hy) _
              (List.mem_cons_of_mem _ (List.mem_map_of_mem hz)) hname.symm
        · rw [hrun, get?_run hafter hlast, Dict.get?_set_self]

/-- Where all have the fields that they should, each definition copies well. -/
theorem copiesWell_of_fields (hsep : ¬ HasSep file) (hdistinct : DistinctNames file)
    (hloaded : ∀ y ∈ definitions file, ∃ e,
      (run Dict.empty (definitions file)).1.get? y.name = some e ∧
        Resolves (nodes file) y.node e.get?) : CopiesWell file := by
  intro before x after hfile name keys hparent
  have hx : x ∈ definitions file := by
    rw [hfile]
    exact List.mem_append_right _ List.mem_cons_self
  obtain ⟨e, he, hresolves⟩ := hloaded x hx
  obtain ⟨y, hy, rfl, source, e', hsource, he', hfields⟩ := stored_of_copy hsep hdistinct hfile
    ((Dict.mem_keys_iff _ _).mpr ⟨e, he⟩) hparent
  cases he.symm.trans he'
  have hy' : y ∈ definitions file := by
    rw [hfile]
    exact List.mem_append_left _ hy
  refine ⟨y, hy, rfl, fun hall values hvalues => ?_⟩
  obtain ⟨e', he', hy''⟩ := hloaded y hy'
  cases hsource.symm.trans he'
  obtain ⟨z, values', hnamed, hz, hinherit⟩ := hresolves.of_parent hparent
  rw [nodes_unique hdistinct _ _ _ hnamed ⟨y, hy', rfl, rfl⟩] at hz
  rw [hz.unique (nodes_unique hdistinct) hy'', hfields, hall, inherit_nothing] at hinherit
  rw [hvalues.unique (nodes_unique hdistinct) hy'']
  exact inherit_eq_own.mp hinherit.symm

/-- A file is loaded exactly if names are distinct and each definition copies well. -/
theorem loaded_iff (hsep : ¬ HasSep file) :
    Loaded file (load file).1 ↔ DistinctNames file ∧ CopiesWell file := by
  rw [(load_of_free hsep).1]
  constructor
  · intro h
    -- as many keys as definitions, and only names of definitions
    have hdistinct : DistinctNames file := by
      have hsub : (run Dict.empty (definitions file)).1.keys ⊆
          (definitions file).map Definition.name := fun n hn =>
        (mem_keys_run (free_definitions hsep) hn).resolve_left List.not_mem_nil
      have hlength : ((definitions file).map Definition.name).length ≤
          (run Dict.empty (definitions file)).1.keys.length := by
        unfold Dict.keys
        rw [List.length_map, List.length_map, h.length]
      exact ((List.subperm_of_subset (Dict.nodup _) hsub).perm_of_length_le hlength).nodup_iff.mp
        (Dict.nodup _)
    exact ⟨hdistinct, copiesWell_of_fields hsep hdistinct h.fields⟩
  · rintro ⟨hdistinct, hcopies⟩
    have h : Filled file (definitions file) (run Dict.empty (definitions file)).1 :=
      filled_run hsep hdistinct hcopies (List.nil_append _).symm ⟨List.forall_mem_nil _, rfl⟩
    refine ⟨h.fields, ?_⟩
    rw [← List.length_map (f := Definition.name), ← h.keys, ← List.length_map (f := Prod.fst)]
    rfl

end Sound

/-! ## The order of a file -/

section Order

variable {file file' : CostsFile φ}

theorem SameDefinitions.refl (file : CostsFile φ) : SameDefinitions file file := by
  refine ⟨rfl, ?_⟩
  cases file.cost with
  | none => exact .none
  | some cost =>
    refine .some fun t => ?_
    cases cost.get? t with
    | none => exact .none
    | some s => exact .some fun n => rfl

theorem SameDefinitions.symm (h : SameDefinitions file file') : SameDefinitions file' file := by
  refine ⟨h.1.symm, ?_⟩
  have hcost := h.2
  generalize file.cost = o at hcost
  generalize file'.cost = o' at hcost
  cases hcost with
  | none => exact .none
  | some hsections =>
    refine .some fun t => ?_
    have ht := hsections t
    generalize Dict.get? _ t = o at ht
    generalize Dict.get? _ t = o' at ht
    cases ht with
    | none => exact .none
    | some hitems => exact .some fun n => (hitems n).symm

/-- A type of one file is one of the other, with the same definitions. -/
theorem SameDefinitions.section_of (h : SameDefinitions file file')
    {cost : Dict PyStr (Dict PyStr (Fields φ))} {t : PyStr} {s : Dict PyStr (Fields φ)}
    (hcost : file.cost = some cost) (hs : cost.get? t = some s) :
    ∃ cost' s', file'.cost = some cost' ∧ cost'.get? t = some s' ∧ ∀ n, s.get? n = s'.get? n := by
  have hrel := h.2
  rw [hcost] at hrel
  generalize file'.cost = o at hrel
  cases hrel with
  | @some _ cost' hsections =>
    have ht := hsections t
    rw [hs] at ht
    generalize hs' : cost'.get? t = o at ht
    cases ht with
    | @some _ s' hitems => exact ⟨cost', s', rfl, hs', hitems⟩

theorem SameDefinitions.mem (h : SameDefinitions file file') {x : Definition φ}
    (hx : x ∈ definitions file) : x ∈ definitions file' := by
  obtain ⟨cost, s, hcost, hs, hd⟩ := mem_definitions_iff.mp hx
  obtain ⟨cost', s', hcost', hs', hitems⟩ := h.section_of hcost hs
  exact mem_definitions_iff.mpr ⟨cost', s', hcost', hs', by rw [← hitems, hd]⟩

theorem SameDefinitions.mem_iff (h : SameDefinitions file file') (x : Definition φ) :
    x ∈ definitions file ↔ x ∈ definitions file' := ⟨h.mem, h.symm.mem⟩

theorem SameDefinitions.hasSep (h : SameDefinitions file file') (hsep : HasSep file) :
    HasSep file' := by
  obtain ⟨cost, t, s, hcost, hs, hkey⟩ := hasSep_iff.mp hsep
  obtain ⟨cost', s', hcost', hs', hitems⟩ := h.section_of hcost hs
  refine hasSep_iff.mpr ⟨cost', t, s', hcost', hs', hkey.imp_right ?_⟩
  rintro ⟨n, d, hd, hn⟩
  exact ⟨n, d, by rw [← hitems, hd], hn⟩

theorem SameDefinitions.perm (h : SameDefinitions file file') :
    (definitions file).Perm (definitions file') :=
  (List.perm_ext_iff_of_nodup (nodup_definitions file) (nodup_definitions file')).mpr h.mem_iff

theorem SameDefinitions.resolves (h : SameDefinitions file file')
    {node : Node (PyJson φ) PyStr (PyJson φ)} {values : PyStr → Option (PyJson φ)}
    (hvalues : Resolves (nodes file) node values) : Resolves (nodes file') node values := by
  refine hvalues.mono ?_
  rintro name node ⟨x, hx, hname, hnode⟩
  exact ⟨x, h.mem hx, hname, hnode⟩

/-- A definition can be put in front of the others. -/
theorem exists_first {x : Definition φ} (hx : x ∈ definitions file) :
    ∃ file' rest, SameDefinitions file file' ∧ definitions file' = x :: rest := by
  obtain ⟨cost, s, hcost, hs, hd⟩ := mem_definitions_iff.mp hx
  obtain ⟨s', items, hitems, hsame⟩ := s.exists_front hd
  obtain ⟨cost', sections, hsections, hcost'⟩ :=
    (cost.set x.costType s').exists_front (Dict.get?_set_self _ _ _)
  have hfirst : ∃ rest, definitions ⟨some cost', file.hasRules⟩ = x :: rest := by
    unfold definitions
    dsimp only
    rw [hsections, List.flatMap_cons, hitems]
    exact ⟨_, rfl⟩
  obtain ⟨rest, hfirst⟩ := hfirst
  refine ⟨⟨some cost', file.hasRules⟩, rest, ⟨rfl, ?_⟩, hfirst⟩
  rw [hcost]
  refine .some fun t => ?_
  rw [hcost', Dict.get?_set]
  split_ifs with ht
  · rw [ht, hs]
    exact .some fun n => (hsame n).symm
  · cases cost.get? t with
    | none => exact .none
    | some s => exact .some fun n => rfl

end Order

/-! ## The files that are loaded right -/

section Right

variable {file file' : CostsFile φ}

/-- Where all definitions copy, none is loaded, and the loop raises exactly at one that cannot be
read. -/
theorem run_of_copies {xs : List (Definition φ)} (hfree : Free xs)
    (hcopy : ∀ x ∈ xs, x.fields.get? copyKey ≠ none) :
    (run Dict.empty xs).1 = Dict.empty ∧
      ((run Dict.empty xs).2 = none ↔ ∀ x ∈ xs, ¬ x.Raises) := by
  induction xs with
  | nil => exact ⟨rfl, iff_of_true rfl (List.forall_mem_nil _)⟩
  | cons x xs ih =>
    obtain ⟨⟨htype, hname⟩, hfree⟩ := List.forall_mem_cons.mp hfree
    obtain ⟨hx, hcopy⟩ := List.forall_mem_cons.mp hcopy
    rw [run_cons, List.forall_mem_cons]
    have hstep := loadDefinition_step Dict.empty htype hname
    generalize loadDefinition Dict.empty x.key x.fields = r at hstep
    cases hstep with
    | plain plain => exact absurd (parent_eq_none_iff.mp plain) hx
    | raised raises => exact ⟨rfl, iff_of_false (Option.some_ne_none _) fun h => h.1 raises⟩
    | passed _ reads =>
      obtain ⟨htable, hended⟩ := ih hfree hcopy
      exact ⟨htable, hended.trans (and_iff_right reads).symm⟩
    | copied _ _ found => cases found

/-- The first definition is loaded if it copies nothing, and passed over if it copies. -/
theorem run_first {x : Definition φ} {rest : List (Definition φ)} (hfree : Free (x :: rest))
    (hplain : x.fields.get? copyKey = none) : x.name ∈ (run Dict.empty (x :: rest)).1.keys := by
  obtain ⟨⟨htype, hname⟩, hrest⟩ := List.forall_mem_cons.mp hfree
  rw [run_cons]
  have hstep := loadDefinition_step Dict.empty htype hname
  generalize loadDefinition Dict.empty x.key x.fields = r at hstep
  cases hstep with
  | plain => exact mem_keys_run_of_mem hrest ((Dict.mem_keys_set _ _ _ _).mpr (.inl rfl))
  | raised raises =>
    obtain ⟨rules, -, hrules, -⟩ := raises
    cases hrules.symm.trans hplain
  | passed parent => cases (parent_eq_none_iff.mpr hplain).symm.trans parent
  | copied parent => cases (parent_eq_none_iff.mpr hplain).symm.trans parent

/-- Where all definitions copy, none has fields. -/
theorem not_resolvable (hne : definitions file ≠ [])
    (hcopy : ∀ x ∈ definitions file, x.fields.get? copyKey ≠ none) : ¬ Resolvable file := by
  intro h
  obtain ⟨x, hx⟩ := List.exists_mem_of_ne_nil _ hne
  obtain ⟨values, hvalues⟩ := h x hx
  refine Resolves.not_of_parents ?_ (fun hnone => hcopy x hx (parent_eq_none_iff.mp hnone)) hvalues
  rintro name node ⟨y, hy, -, rfl⟩ hnone
  exact hcopy y hy (parent_eq_none_iff.mp hnone)

/-- The table has the same names as another one. -/
theorem SameTable.mem_keys {table table' : CostsDefinition φ} (h : SameTable table table')
    {n : PyStr} (hn : n ∈ table.keys) : n ∈ table'.keys := by
  obtain ⟨e, he⟩ := (Dict.mem_keys_iff _ _).mp hn
  have hsame := h n
  rw [he] at hsame
  obtain ⟨e', he', -⟩ := Option.map_eq_some_iff.mp hsame.symm
  exact (Dict.mem_keys_iff _ _).mpr ⟨e', he'⟩

/-- What is loaded right is so in another order, if the tables are the same. -/
theorem Loaded.of_same (hfile : SameDefinitions file file') {table table' : CostsDefinition φ}
    (htable : SameTable table table') (h : Loaded file table) : Loaded file' table' := by
  refine ⟨fun x hx => ?_, ?_⟩
  · obtain ⟨e, he, hresolves⟩ := h.fields x (hfile.symm.mem hx)
    have hsame := htable x.name
    rw [he] at hsame
    obtain ⟨e', he', hfields⟩ := Option.map_eq_some_iff.mp hsame.symm
    exact ⟨e', he', hfields ▸ hfile.resolves hresolves⟩
  · have hkeys : table.keys.Perm table'.keys :=
      (List.perm_ext_iff_of_nodup table.nodup table'.nodup).mpr fun n =>
        ⟨htable.mem_keys, SameTable.mem_keys fun n => (htable n).symm⟩
    have hlength := hkeys.length_eq
    unfold Dict.keys at hlength
    rw [List.length_map, List.length_map] at hlength
    rw [← hlength, h.length, hfile.perm.length_eq]

theorem mem_keys_load (hsep : ¬ HasSep file) {n : PyStr} (hn : n ∈ (load file).1.keys) :
    ∃ x ∈ definitions file, x.name = n := by
  rw [(load_of_free hsep).1] at hn
  exact List.mem_map.mp
    ((mem_keys_run (free_definitions hsep) hn).resolve_left List.not_mem_nil)

/-- Orders in which a file is loaded right give the same table. -/
theorem sameTable_of_loaded (hfile : SameDefinitions file file') (hsep : ¬ HasSep file)
    (h : Loaded file (load file).1) (h' : Loaded file' (load file').1) :
    SameTable (load file).1 (load file').1 := by
  have hsep' : ¬ HasSep file' := fun hsep' => hsep (hfile.symm.hasSep hsep')
  intro n
  by_cases hn : ∃ x ∈ definitions file, x.name = n
  · obtain ⟨x, hx, rfl⟩ := hn
    obtain ⟨e, he, hresolves⟩ := h.fields x hx
    obtain ⟨e', he', hresolves'⟩ := h'.fields x (hfile.mem hx)
    rw [he, he', Option.map_some, Option.map_some]
    exact congrArg some (hresolves.unique (nodes_unique ((loaded_iff hsep).mp h).1)
      (hfile.symm.resolves hresolves'))
  · have hnone : (load file).1.get? n = none :=
      (Dict.not_mem_keys_iff _ _).mp fun hmem => hn (mem_keys_load hsep hmem)
    have hnone' : (load file').1.get? n = none := (Dict.not_mem_keys_iff _ _).mp fun hmem => by
      obtain ⟨x, hx, hname⟩ := mem_keys_load hsep' hmem
      exact hn ⟨x, hfile.symm.mem hx, hname⟩
    rw [hnone, hnone']

/-- Without copies, each order is loaded right. -/
theorem loaded_of_plain (hfile : SameDefinitions file file') (hsep : ¬ HasSep file)
    (hdistinct : DistinctNames file)
    (hplain : ∀ x ∈ definitions file, x.fields.get? copyKey = none) :
    Loaded file' (load file').1 := by
  refine (loaded_iff fun h => hsep (hfile.symm.hasSep h)).mpr
    ⟨(hfile.perm.map _).nodup_iff.mp hdistinct, fun before x after hdefs name keys hparent => ?_⟩
  have hx : x ∈ definitions file := hfile.symm.mem (by
    rw [hdefs]
    exact List.mem_append_right _ List.mem_cons_self)
  cases (parent_eq_none_iff.mpr (hplain x hx)).symm.trans hparent

/-- A file of which nothing is loaded, in any order. -/
theorem loadsRight_of_empty
    (htable : ∀ file', SameDefinitions file file' → (load file').1 = Dict.empty)
    (hsound : Resolvable file → definitions file = [])
    (hreported : ¬ Resolvable file → (load file).2 ≠ none) : LoadsRight file where
  loaded h := by
    rw [htable file (.refl file)]
    refine ⟨fun x hx => ?_, by rw [hsound h]; rfl⟩
    rw [hsound h] at hx
    cases hx
  reported h := ⟨hreported h, htable file (.refl file)⟩
  order file' h := by
    rw [htable file (.refl file), htable file' h]
    exact fun n => rfl

theorem load_of_copies (hcopy : ∀ x ∈ definitions file, x.fields.get? copyKey ≠ none) :
    (load file).1 = Dict.empty := by
  by_cases hsep : HasSep file
  · rw [load_of_sep hsep]
  · rw [(load_of_free hsep).1, (run_of_copies (free_definitions hsep) hcopy).1]

/-- A file with sound references that is loaded right has no separators, distinct names, and no
copies: put in front of the others, a definition that copies would have no source. -/
theorem plain_of_loadsRight (h : LoadsRight file) (hres : Resolvable file)
    (hne : definitions file ≠ []) : ¬ HasSep file ∧ DistinctNames file ∧
      ∀ x ∈ definitions file, x.fields.get? copyKey = none := by
  have hloaded := h.loaded hres
  have hsep : ¬ HasSep file := fun hsep => by
    have hlength := hloaded.length
    rw [load_of_sep hsep] at hlength
    exact hne (List.length_eq_zero_iff.mp hlength.symm)
  refine ⟨hsep, ((loaded_iff hsep).mp hloaded).1, fun x hx => ?_⟩
  obtain ⟨file', rest, hfile, hfirst⟩ := exists_first hx
  have hcopies := ((loaded_iff fun hsep' => hsep (hfile.symm.hasSep hsep')).mp
    (hloaded.of_same hfile (h.order file' hfile))).2
  by_contra hcopy
  obtain ⟨⟨name, keys⟩, hparent⟩ := Option.ne_none_iff_exists'.mp fun hnone =>
    hcopy (parent_eq_none_iff.mp hnone)
  obtain ⟨y, hy, -⟩ := hcopies [] x rest hfirst name keys hparent
  cases hy

/-- A file with an unsound reference that is reported and not loaded has only copies: put in front
of the others, a definition that copies nothing would be loaded. -/
theorem copies_of_loadsRight (h : LoadsRight file) (hres : ¬ Resolvable file)
    (hsep : ¬ HasSep file) : (∀ x ∈ definitions file, x.fields.get? copyKey ≠ none) ∧
      (file.hasRules = false ∨ ∃ x ∈ definitions file, x.Raises) := by
  obtain ⟨hreported, htable⟩ := h.reported hres
  have hcopy : ∀ x ∈ definitions file, x.fields.get? copyKey ≠ none := fun x hx hplain => by
    obtain ⟨file', rest, hfile, hfirst⟩ := exists_first hx
    have hsep' : ¬ HasSep file' := fun hsep' => hsep (hfile.symm.hasSep hsep')
    have hmem : x.name ∈ (load file').1.keys := by
      rw [(load_of_free hsep').1, hfirst]
      exact run_first (hfirst ▸ free_definitions hsep') hplain
    have hmem' := SameTable.mem_keys (fun n => (h.order file' hfile n).symm) hmem
    rw [htable] at hmem'
    cases hmem'
  refine ⟨hcopy, ?_⟩
  by_contra hnot
  obtain ⟨hrules, hraises⟩ := not_or.mp hnot
  refine hreported ((load_of_free hsep).2.mpr ⟨fun hcost => hres fun x hx => ?_,
    by simpa using hrules,
    (run_of_copies (free_definitions hsep) hcopy).2.mpr fun x hx hr => hraises ⟨x, hx, hr⟩⟩)
  unfold definitions at hx
  rw [hcost] at hx
  cases hx

/-- **A cost file is loaded right exactly if it has no definitions; or no separators, distinct names
and no copies; or a separator and an unsound reference; or only copies and another error.** -/
theorem loadsRight_iff (file : CostsFile φ) : LoadsRight file ↔
    definitions file = [] ∨
    (¬ HasSep file ∧ DistinctNames file ∧
      ∀ x ∈ definitions file, x.fields.get? copyKey = none) ∨
    (HasSep file ∧ ¬ Resolvable file) ∨
    ((∀ x ∈ definitions file, x.fields.get? copyKey ≠ none) ∧
      (file.hasRules = false ∨ ∃ x ∈ definitions file, x.Raises)) := by
  constructor
  · intro h
    by_cases hne : definitions file = []
    · exact .inl hne
    by_cases hres : Resolvable file
    · exact .inr (.inl (plain_of_loadsRight h hres hne))
    by_cases hsep : HasSep file
    · exact .inr (.inr (.inl ⟨hsep, hres⟩))
    · exact .inr (.inr (.inr (copies_of_loadsRight h hres hsep)))
  · rintro (hnil | ⟨hsep, hdistinct, hplain⟩ | ⟨hsep, hres⟩ | ⟨hcopy, herror⟩)
    · refine loadsRight_of_empty (fun file' hfile => load_of_copies fun x hx => ?_)
        (fun _ => hnil) fun hres => absurd (fun x hx => ?_) hres
      · have hmem := hfile.symm.mem hx
        rw [hnil] at hmem
        cases hmem
      · rw [hnil] at hx
        cases hx
    · have hloaded {file' : CostsFile φ} (hfile : SameDefinitions file file') :
          Loaded file' (load file').1 := loaded_of_plain hfile hsep hdistinct hplain
      refine ⟨fun _ => hloaded (.refl file), fun hres => absurd (fun x hx => ?_) hres,
        fun file' hfile => sameTable_of_loaded hfile hsep (hloaded (.refl file)) (hloaded hfile)⟩
      exact ⟨_, .root (parent_eq_none_iff.mpr (hplain x hx))⟩
    · refine loadsRight_of_empty (fun file' hfile => ?_) (fun h => absurd h hres) fun _ => ?_
      · rw [load_of_sep (hfile.hasSep hsep)]
      · rw [load_of_sep hsep]
        exact Option.some_ne_none _
    · refine loadsRight_of_empty
        (fun file' hfile => load_of_copies fun x hx => hcopy x (hfile.symm.mem hx))
        (fun hres => by_contra fun hne => not_resolvable hne hcopy hres) fun _ hended => ?_
      by_cases hsep : HasSep file
      · rw [load_of_sep hsep] at hended
        cases hended
      · obtain ⟨-, hrules, hrun⟩ := (load_of_free hsep).2.mp hended
        rcases herror with hno | ⟨x, hx, hraises⟩
        · exact Bool.false_ne_true (hno.symm.trans hrules)
        · exact (run_of_copies (free_definitions hsep) hcopy).2.mp hrun x hx hraises

/-! ## Files that are not -/

/-- A file with rules, from its definitions by type and name. -/
def exampleFile (sections : List (String × List (String × List (String × PyJson Unit)))) :
    CostsFile Unit where
  cost := some (Dict.ofEntries (sections.map fun s => (pyText s.1,
    Dict.ofEntries (s.2.map fun d => (pyText d.1,
      Dict.ofEntries (d.2.map fun f => (pyText f.1, f.2)))))))
  hasRules := true

/-- A text of a file. -/
def exampleText (s : String) : PyJson Unit := .atom (.str (pyText s))

/-- A soft copy. -/
def softFile : CostsFile Unit := exampleFile [("task",
  [("sms_message", [("__credit_key__", exampleText "sms")]),
    ("sms_template", [("__copy__", .dict [(pyText "from", exampleText "sms_message"),
      (pyText "mode", exampleText "soft")])])])]

/-- A copy of a definition that follows. -/
def forwardFile : CostsFile Unit := exampleFile [("task",
  [("sms_template", [("__copy__", exampleText "sms_message")]),
    ("sms_message", [("__credit_key__", exampleText "sms")])])]

/-- Two definitions of one name. -/
def equalFile : CostsFile Unit :=
  exampleFile [("task", [("object", [])]), ("file", [("object", [])])]

/-- Two definitions that copy each other, and a third one. -/
def cyclicFile : CostsFile Unit := exampleFile [("task",
  [("sms_a", [("__copy__", exampleText "sms_b")]), ("sms_b", [("__copy__", exampleText "sms_a")]),
    ("sms_c", [])])]

/-- A file is not loaded right if nothing is reported and a definition is not in the table. -/
theorem not_loadsRight_of_length (hended : (load file).2 = none)
    (hlength : (load file).1.entries.length ≠ (definitions file).length) : ¬ LoadsRight file := by
  intro h
  by_cases hres : Resolvable file
  · exact hlength (h.loaded hres).length
  · exact (h.reported hres).1 hended

/-- A soft copy gets nothing, a copy of a definition that follows is not loaded, of two definitions
of one name one is left, and a cycle is passed over without a report. -/
theorem not_loadsRight_examples : ¬ LoadsRight softFile ∧ ¬ LoadsRight forwardFile ∧
    ¬ LoadsRight equalFile ∧ ¬ LoadsRight cyclicFile := by
  refine ⟨fun h => ?_, not_loadsRight_of_length ?_ ?_, not_loadsRight_of_length ?_ ?_,
    not_loadsRight_of_length ?_ ?_⟩
  · have hended : (load softFile).2 = none := by decide +kernel
    have hsep : ¬ HasSep softFile := fun hsep => by
      rw [load_of_sep hsep] at hended
      cases hended
    have hres : Resolvable softFile := by_contra fun hres => (h.reported hres).1 hended
    obtain ⟨y, hy, -, htakes⟩ := ((loaded_iff hsep).mp (h.loaded hres)).2
      [(definitions softFile).get ⟨0, by decide +kernel⟩]
      ((definitions softFile).get ⟨1, by decide +kernel⟩) [] rfl _ _ rfl
    cases List.mem_singleton.mp hy
    exact htakes (by decide +kernel) _ (.root rfl) (pyText "__credit_key__") (by decide +kernel)
      (by decide +kernel) (by decide +kernel)
  all_goals decide +kernel

end Right

end CostDefinitions

end Notifyr
