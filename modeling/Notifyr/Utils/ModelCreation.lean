import Notifyr.Runtime.Python

/-!
# Models from Cerberus schemas

`cerberus_schema_to_pydantic` (`app/utils/model_creation.py`).

- `Rules`, `Schema`: the rules of a field, and a schema.
- `FieldType`, `Model`: what `create_model` is given; `Model.accepts` is when it takes a value.
- `cerberusSchemaToPydantic`: the translation, on the registry of models.
- `fitsSchema`: when a document is one of a schema.
- `Extends`, `Right`: registries that grow, and models that have the documents of a schema.
-/

namespace Notifyr

/-! ## Schemas and models -/

/-- The types of `CERBERUS_TYPE_MAP`, and `Any`. -/
inductive PyType
  | str | int | float | bool | dict | list | set | any
  deriving DecidableEq, Repr

/-- `CERBERUS_TYPE_MAP`. -/
def cerberusTypeMap : List (String × PyType) :=
  [("string", .str), ("integer", .int), ("float", .float), ("number", .float), ("boolean", .bool),
    ("dict", .dict), ("list", .list), ("set", .set)]

/-- `CERBERUS_TYPE_MAP.get(type, Any)`. -/
def typeOf (type : Option String) : PyType :=
  (type.bind fun t => cerberusTypeMap.lookup t).getD .any

/-- The constraints of `Field`. -/
inductive FieldArg (V : Type)
  | ge (v : V) | le (v : V) | minLength (v : V) | maxLength (v : V) | pattern (v : V) | enum (v : V)

/-- The kinds of types a constraint is put on. -/
inductive TypeKind
  | type (t : PyType) | list | model
  deriving DecidableEq, Repr

mutual

/-- The type of a field, without `Optional`. `Set[Any]` is read as `set`. -/
inductive FieldType (V : Type)
  | type (t : PyType)
  | list (item : FieldType V)
  | model (m : Model V)

/-- A field: its type, whether it is optional, its default (`none` for `...`), the constraints and
the validators that run before the others. -/
inductive FieldDef (V : Type)
  | mk (fieldType : FieldType V) (optional : Bool) (default : Option V)
      (constraints : List (FieldArg V)) (validators : List (V → Option V))

/-- A model. -/
inductive Model (V : Type)
  | mk (name : String) (fields : List (String × FieldDef V))

end

/-- What `_schema` refers to. -/
inductive SchemaRef (V : Type)
  | model (m : Model V)
  | name (name : String)
  | other

/-- The rules of a field that do not nest. A validator that raises gives `none`. -/
structure RuleFlags (V : Type) where
  required : Bool := false
  nullable : Bool := false
  default : Option V := none
  readonly : Bool := false
  min : Option V := none
  max : Option V := none
  minlength : Option V := none
  maxlength : Option V := none
  regex : Option V := none
  allowed : Option V := none
  coerce : List (V → Option V) := []

mutual

/-- The rules of a field. -/
inductive Rules (V : Type)
  | mk (flags : RuleFlags V) (type : RuleType V)

/-- `_schema`, or else `type` with the `schema` that goes with it; both may be missing. -/
inductive RuleType (V : Type)
  | ref (ref : SchemaRef V)
  | dict (schema : List (String × Rules V))
  | list (item : Rules V)
  | set
  | other (type : Option String)

end

/-- A schema: its fields with their rules. The keys of a dictionary are distinct. -/
abbrev Schema (V : Type) := List (String × Rules V)

/-- `MODEL_REGISTRY`: models under their names. -/
abbrev Models (V : Type) := List (String × Model V)

/-- What the code takes from `str` and from `pydantic`. -/
structure ModelEnv (V : Type) where
  /-- `str.capitalize`. -/
  capitalize : String → String
  /-- `None`. -/
  none : V
  isNone : V → Bool
  /-- The fields a model finds in a value, if it takes the value for a dictionary. -/
  mapping? : V → Option (String → Option V)
  /-- The items of a value, if a list takes it. -/
  items? : V → Option (List V)
  /-- Whether a value is taken for a type, apart from `Any` and `list`. -/
  takes : PyType → V → Bool
  /-- Whether a value of such a type meets the constraints. -/
  meets : TypeKind → List (FieldArg V) → V → Bool
  /-- What `create_model` raises. -/
  refuses : String → List (String × FieldDef V) → Option PyErr

variable {V : Type}

/-- The kind of a type. -/
def FieldType.kind : FieldType V → TypeKind
  | .type t => .type t
  | .list _ => .list
  | .model _ => .model

/-! ## The translation -/

/-- `resolve_schema_ref`. -/
def resolveSchemaRef (registry : Models V) : SchemaRef V → Py (Model V)
  | .model m => .ok m
  | .name name =>
    match registry.lookup name with
    | some m => .ok m
    | none => .error .keyError
  | .other => .error .typeError

/-- The constraints for `Field`. -/
def RuleFlags.constraints (flags : RuleFlags V) : List (FieldArg V) :=
  (flags.min.map .ge).toList ++ (flags.max.map .le).toList ++
    (flags.minlength.map .minLength).toList ++ (flags.maxlength.map .maxLength).toList ++
    (flags.regex.map .pattern).toList ++ (flags.allowed.map .enum).toList

/-- The validators of a field: that of `readonly` changes nothing. -/
def RuleFlags.validators (flags : RuleFlags V) : List (V → Option V) :=
  flags.coerce ++ if flags.readonly then [some] else []

/-- The field, once its type is known. -/
def RuleFlags.toField (env : ModelEnv V) (flags : RuleFlags V) (fieldType : FieldType V) :
    FieldDef V :=
  if !flags.required || flags.nullable then
    .mk fieldType true (some (flags.default.getD env.none)) flags.constraints flags.validators
  else .mk fieldType false flags.default flags.constraints flags.validators

/-- `rules.get("type")` of an item that is no dictionary. -/
def RuleType.name : RuleType V → Option String
  | .ref _ => none
  | .dict _ => some "dict"
  | .list _ => some "list"
  | .set => some "set"
  | .other type => type

/-- `f"{parent}_{field_name.capitalize()}"`. -/
def nestedName (env : ModelEnv V) (parent fieldName : String) : String :=
  parent ++ "_" ++ env.capitalize fieldName

/-- What `cerberus_schema_to_pydantic` does around its loop over the fields. -/
def registered (env : ModelEnv V) (name : String)
    (loop : Models V → Py (List (String × FieldDef V)) × Models V) (registry : Models V) :
    Py (Model V) × Models V :=
  match registry.lookup name with
  | some m => (.ok m, registry)
  | none =>
    match loop registry with
    | (.error e, registry) => (.error e, registry)
    | (.ok fields, registry) =>
      match env.refuses name fields with
      | some e => (.error e, registry)
      | none => (.ok (.mk name fields), (name, .mk name fields) :: registry)

mutual

/-- The first part of `build_field`: `field_type`. -/
def buildType (env : ModelEnv V) (parent fieldName : String) :
    RuleType V → Models V → Py (FieldType V) × Models V
  | .ref ref, registry => ((resolveSchemaRef registry ref).map .model, registry)
  | .dict schema, registry =>
    let name := nestedName env parent fieldName
    let out := registered env name (buildFields env name schema) registry
    (out.1.map .model, out.2)
  | .list item, registry =>
    let out := buildItem env parent fieldName item registry
    (out.1.map .list, out.2)
  | .set, registry => (.ok (.type .set), registry)
  | .other type, registry => (.ok (.type (typeOf type)), registry)

/-- `item_type`. -/
def buildItem (env : ModelEnv V) (parent fieldName : String) :
    Rules V → Models V → Py (FieldType V) × Models V
  | .mk _ (.ref ref), registry => ((resolveSchemaRef registry ref).map .model, registry)
  | .mk _ (.dict schema), registry =>
    let name := nestedName env parent fieldName ++ "Item"
    let out := registered env name (buildFields env name schema) registry
    (out.1.map .model, out.2)
  | .mk _ type, registry => (.ok (.type (typeOf type.name)), registry)

/-- The loop over the fields, with the rest of `build_field`. -/
def buildFields (env : ModelEnv V) (parent : String) :
    List (String × Rules V) → Models V → Py (List (String × FieldDef V)) × Models V
  | [], registry => (.ok [], registry)
  | (fieldName, .mk flags type) :: rest, registry =>
    match buildType env parent fieldName type registry with
    | (.error e, registry) => (.error e, registry)
    | (.ok fieldType, registry) =>
      let out := buildFields env parent rest registry
      (out.1.map fun fields => (fieldName, flags.toField env fieldType) :: fields, out.2)

end

/-- `cerberus_schema_to_pydantic`. -/
def cerberusSchemaToPydantic (env : ModelEnv V) (schema : Schema V) (name : String)
    (registry : Models V) : Py (Model V) × Models V :=
  registered env name (buildFields env name schema) registry

/-! ## What a model accepts -/

/-- Whether a value is taken for a type. -/
def ModelEnv.takesType (env : ModelEnv V) : PyType → V → Bool
  | .any, _ => true
  | .list, v => (env.items? v).isSome
  | t, v => env.takes t v

/-- Whether a value meets the constraints, if there are any. -/
def ModelEnv.meetsAll (env : ModelEnv V) (kind : TypeKind) (constraints : List (FieldArg V))
    (v : V) : Bool := constraints.isEmpty || env.meets kind constraints v

/-- What is asked of a value, after the validators that run first. -/
def checked (validators : List (V → Option V)) (v : V) (p : V → Bool) : Bool :=
  match validators.foldlM (fun v f => f v) v with
  | some v => p v
  | none => false

mutual

def FieldType.accepts (env : ModelEnv V) : FieldType V → V → Bool
  | .type t, v => env.takesType t v
  | .list item, v =>
    match env.items? v with
    | some vs => vs.all (item.accepts env)
    | none => false
  | .model m, v => m.accepts env v

/-- The model validates the value; it passes over what is no field. -/
def Model.accepts (env : ModelEnv V) : Model V → V → Bool
  | .mk _ fields, v =>
    match env.mapping? v with
    | some get => acceptsFields env fields get
    | none => false

def acceptsFields (env : ModelEnv V) : List (String × FieldDef V) → (String → Option V) → Bool
  | [], _ => true
  | (name, field) :: rest, get => field.accepts env (get name) && acceptsFields env rest get

/-- A field that is missing needs a default, which is not validated. -/
def FieldDef.accepts (env : ModelEnv V) : FieldDef V → Option V → Bool
  | .mk _ _ default _ _, none => default.isSome
  | .mk fieldType optional _ constraints validators, some v =>
    checked validators v fun v => (optional && env.isNone v) ||
      (fieldType.accepts env v && env.meetsAll fieldType.kind constraints v)

end

/-! ## The documents of a schema -/

def Rules.flags : Rules V → RuleFlags V
  | .mk flags _ => flags

def Rules.type : Rules V → RuleType V
  | .mk _ type => type

/-- The kind of the type that rules ask for. -/
def RuleType.kind : RuleType V → TypeKind
  | .ref _ => .model
  | .dict _ => .model
  | .list _ => .list
  | .set => .type .set
  | .other type => .type (typeOf type)

mutual

/-- A value of the type that is asked for. A reference stands for the model it leads to. -/
def RuleType.fits (env : ModelEnv V) (registry : Models V) : RuleType V → V → Bool
  | .ref ref, v =>
    match resolveSchemaRef registry ref with
    | .ok m => m.accepts env v
    | .error _ => false
  | .dict schema, v =>
    match env.mapping? v with
    | some get => fitsFields env registry schema get
    | none => false
  | .list item, v =>
    match env.items? v with
    | some vs => vs.all (item.fits env registry false)
    | none => false
  | .set, v => env.takesType .set v
  | .other type, v => env.takesType (typeOf type) v

/-- A value the rules allow: `None` if they are nullable or the value is `optional`. -/
def Rules.fits (env : ModelEnv V) (registry : Models V) (optional : Bool) :
    Rules V → V → Bool
  | .mk flags type, v =>
    checked flags.coerce v fun v => ((flags.nullable || optional) && env.isNone v) ||
      (type.fits env registry v && env.meetsAll type.kind flags.constraints v)

/-- Fields the rules allow: one is missing only if it is not required or has a default. -/
def fitsFields (env : ModelEnv V) (registry : Models V) :
    List (String × Rules V) → (String → Option V) → Bool
  | [], _ => true
  | (name, rules) :: rest, get =>
    (match get name with
      | some v => rules.fits env registry (!rules.flags.required) v
      | none => !rules.flags.required || rules.flags.default.isSome) &&
      fitsFields env registry rest get

end

/-- A document of the schema. -/
def fitsSchema (env : ModelEnv V) (registry : Models V) (schema : Schema V) (v : V) : Bool :=
  RuleType.fits env registry (.dict schema) v

/-! ## Registries -/

/-- The second registry has the models of the first. -/
def Extends (R R' : Models V) : Prop := ∀ n m, R.lookup n = some m → R'.lookup n = some m

theorem Extends.refl (R : Models V) : Extends R R := fun _ _ h => h

theorem Extends.trans {R R' R'' : Models V} (h : Extends R R') (h' : Extends R' R'') :
    Extends R R'' := fun n m hm => h' n m (h n m hm)

theorem Extends.cons {R : Models V} {name : String} (h : R.lookup name = none) (m : Model V) :
    Extends R ((name, m) :: R) := by
  intro n m' hm
  rw [List.lookup_cons]
  by_cases hn : n = name
  · subst hn
    rw [h] at hm
    cases hm
  · rw [beq_false_of_ne hn]
    exact hm

theorem Extends.lookup_none {R R' : Models V} (h : Extends R R') {n : String}
    (hn : R'.lookup n = none) : R.lookup n = none := by
  cases hm : R.lookup n with
  | none => rfl
  | some m =>
    rw [h n m hm] at hn
    cases hn

/-- The model accepts the documents of the schema, and will when more models are there. -/
def Right (env : ModelEnv V) (R : Models V) (schema : Schema V) (m : Model V) : Prop :=
  ∀ R', Extends R R' → ∀ v, m.accepts env v = fitsSchema env R' schema v

theorem Right.mono {env : ModelEnv V} {R R' : Models V} {schema : Schema V} {m : Model V}
    (h : Right env R schema m) (hR : Extends R R') : Right env R' schema m :=
  fun _ hR' => h _ (hR.trans hR')

/-- The two schemas have the same documents, and will when more models are there. -/
def SameDocs (env : ModelEnv V) (R : Models V) (s s' : Schema V) : Prop :=
  ∀ R', Extends R R' → ∀ v, fitsSchema env R' s v = fitsSchema env R' s' v

theorem SameDocs.right {env : ModelEnv V} {R R' : Models V} {s s' : Schema V} {m : Model V}
    (h : SameDocs env R s s') (hR : Extends R R') (hm : Right env R' s m) :
    Right env R' s' m := by
  intro R'' hR'' v
  rw [hm R'' hR'' v, h R'' (hR.trans hR'') v]

end Notifyr
