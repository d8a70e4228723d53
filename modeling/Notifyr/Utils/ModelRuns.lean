import Notifyr.Utils.ModelCreation

/-!
# Runs of `cerberus_schema_to_pydantic`

Sequences of calls, as those of `CustomService` (`app/services/custom_service.py`).

- `visits`: the names a translation asks the registry for, with the schemas it has for them.
- `FieldsKept`: schemas whose rules survive the translation.
- `registered_built`, `buildFields_built`: what a translation adds to the registry, and that it
  returns the model of its schema if names are used for one schema each.
- `RunMeets`, `ModelsRight`, `modelsRight_run`: the same for whole runs.
-/

namespace Notifyr

variable {V : Type}

/-! ## Names -/

/-- The name of a model and, unless it is registered, those within it. -/
def visitsOf (R : Models V) (name : String) (schema : Schema V)
    (nested : List (String × Schema V)) : List (String × Schema V) :=
  (name, schema) :: if (R.lookup name).isSome then [] else nested

mutual

/-- The names for a field of this type. -/
def typeVisits (env : ModelEnv V) (R : Models V) (parent fieldName : String) :
    RuleType V → List (String × Schema V)
  | .dict schema =>
    let name := nestedName env parent fieldName
    visitsOf R name schema (fieldVisits env R name schema)
  | .list item => itemVisits env R parent fieldName item
  | _ => []

/-- The names for the items of a list. -/
def itemVisits (env : ModelEnv V) (R : Models V) (parent fieldName : String) :
    Rules V → List (String × Schema V)
  | .mk _ (.dict schema) =>
    let name := nestedName env parent fieldName ++ "Item"
    visitsOf R name schema (fieldVisits env R name schema)
  | _ => []

/-- The names for fields. -/
def fieldVisits (env : ModelEnv V) (R : Models V) (parent : String) :
    List (String × Rules V) → List (String × Schema V)
  | [] => []
  | (fieldName, .mk _ type) :: rest =>
    typeVisits env R parent fieldName type ++ fieldVisits env R parent rest

end

/-- The names a call asks for, in its order, with the schemas it has for them. -/
def visits (env : ModelEnv V) (R : Models V) (name : String) (schema : Schema V) :
    List (String × Schema V) :=
  visitsOf R name schema (fieldVisits env R name schema)

/-- A name stands for one schema. -/
def Consistent (env : ModelEnv V) (R : Models V) (es : List (String × Schema V)) : Prop :=
  ∀ n s s', (n, s) ∈ es → (n, s') ∈ es → SameDocs env R s s'

/-- The models that are registered under such names are those of the schemas. -/
def Known (env : ModelEnv V) (R : Models V) (es : List (String × Schema V)) : Prop :=
  ∀ n s, (n, s) ∈ es → ∀ m, R.lookup n = some m → Right env R s m

/-- A part of a translation keeps what is registered, and adds models of the schemas it visits. -/
structure Adds (env : ModelEnv V) (es : List (String × Schema V)) (R R' : Models V) : Prop where
  keeps : Extends R R'
  new : ∀ n m, R'.lookup n = some m →
    R.lookup n = some m ∨ ∃ s, (n, s) ∈ es ∧ Right env R' s m

theorem Adds.refl (env : ModelEnv V) (es : List (String × Schema V)) (R : Models V) :
    Adds env es R R := ⟨Extends.refl R, fun _ _ h => .inl h⟩

theorem Adds.trans {env : ModelEnv V} {es es' : List (String × Schema V)} {R R' R'' : Models V}
    (h : Adds env es R R') (h' : Adds env es' R' R'') : Adds env (es ++ es') R R'' := by
  refine ⟨h.keeps.trans h'.keeps, fun n m hm => ?_⟩
  rcases h'.new n m hm with hm | ⟨s, hs, hright⟩
  · rcases h.new n m hm with hm | ⟨s, hs, hright⟩
    · exact .inl hm
    · exact .inr ⟨s, List.mem_append_left _ hs, hright.mono h'.keeps⟩
  · exact .inr ⟨s, List.mem_append_right _ hs, hright⟩

theorem Adds.subset {env : ModelEnv V} {es es' : List (String × Schema V)} {R R' : Models V}
    (h : Adds env es R R') (hsub : ∀ e ∈ es, e ∈ es') : Adds env es' R R' := by
  refine ⟨h.keeps, fun n m hm => ?_⟩
  rcases h.new n m hm with hm | ⟨s, hs, hright⟩
  · exact .inl hm
  · exact .inr ⟨s, hsub _ hs, hright⟩

/-- After one part of a translation the models for the next one are still those of its schemas. -/
theorem Known.after {env : ModelEnv V} {all es es' : List (String × Schema V)}
    {R₀ R R' : Models V} (hall : Consistent env R₀ all) (hR : Extends R₀ R)
    (hes : ∀ e ∈ es, e ∈ all) (hes' : ∀ e ∈ es', e ∈ all) (hknown : Known env R es')
    (h : Adds env es R R') : Known env R' es' := by
  intro n s hs m hm
  rcases h.new n m hm with hm | ⟨s', hs', hright⟩
  · exact (hknown n s hs m hm).mono h.keeps
  · exact (hall n s' s (hes _ hs') (hes' _ hs)).right (hR.trans h.keeps) hright

/-! ## Schemas that survive -/

/-- What is asked of the items by their type alone. -/
def Rules.fitsBare (env : ModelEnv V) (registry : Models V) : Rules V → V → Bool
  | .mk _ (.ref ref), v => RuleType.fits env registry (.ref ref) v
  | .mk _ (.dict schema), v => fitsSchema env registry schema v
  | .mk _ type, v => env.takesType (typeOf type.name) v

/-- The rules of a required field that may be `None` name a default. -/
def RuleFlags.Kept (flags : RuleFlags V) : Prop :=
  flags.required = true → flags.nullable = true → flags.default.isSome

/-- The items of a list are asked for no more than their type. -/
def RuleType.Kept (env : ModelEnv V) (R : Models V) : RuleType V → Prop
  | .list item => ∀ R', Extends R R' → ∀ v, item.fits env R' false v = item.fitsBare env R' v
  | _ => True

theorem typeOf_set : typeOf (some "set") = .set := by decide

/-- Items of which a type is asked and nothing else survive, unless it is a list. -/
theorem fits_eq_fitsBare {env : ModelEnv V} {R : Models V} {type : RuleType V}
    (h : ∀ item, type ≠ .list item) (v : V) :
    (Rules.mk {} type).fits env R false v = (Rules.mk {} type).fitsBare env R v := by
  have hplain : (Rules.mk {} type).fits env R false v = type.fits env R v := by
    simp [Rules.fits, checked, ModelEnv.meetsAll, RuleFlags.constraints]
  rw [hplain]
  cases type with
  | ref ref => rfl
  | dict schema => rfl
  | list item => exact absurd rfl (h item)
  | set =>
    rw [RuleType.fits, ← typeOf_set]
    rfl
  | other type =>
    rw [RuleType.fits]
    rfl

/-- The fields of a schema, apart from the schemas within it. -/
def FieldsKept (env : ModelEnv V) (R : Models V) (schema : Schema V) : Prop :=
  ∀ e ∈ schema, e.2.flags.Kept ∧ e.2.type.Kept env R

/-- The schemas that are translated have such fields. -/
def SchemasKept (env : ModelEnv V) (R : Models V) (es : List (String × Schema V)) : Prop :=
  ∀ n s, (n, s) ∈ es → R.lookup n = none → FieldsKept env R s

theorem SchemasKept.subset {env : ModelEnv V} {R : Models V} {es es' : List (String × Schema V)}
    (h : SchemasKept env R es') (hsub : ∀ e ∈ es, e ∈ es') : SchemasKept env R es :=
  fun n s hs => h n s (hsub _ hs)

/-! ## Fields -/

/-- The type of a field accepts what its rules ask for, and will when more models are there. -/
structure TypeRight (env : ModelEnv V) (R : Models V) (type : RuleType V) (a : FieldType V) :
    Prop where
  kind : a.kind = type.kind
  accepts : ∀ R', Extends R R' → ∀ v, a.accepts env v = type.fits env R' v

/-- The same for the items of a list. -/
def ItemRight (env : ModelEnv V) (R : Models V) (item : Rules V) (a : FieldType V) : Prop :=
  ∀ R', Extends R R' → ∀ v, a.accepts env v = item.fitsBare env R' v

/-- The same for fields. -/
def FieldsRight (env : ModelEnv V) (R : Models V) (schema : Schema V)
    (fields : List (String × FieldDef V)) : Prop :=
  ∀ R', Extends R R' → ∀ get, acceptsFields env fields get = fitsFields env R' schema get

theorem foldlM_append_some (coerce : List (V → Option V)) (v : V) :
    (coerce ++ [some]).foldlM (fun v (f : V → Option V) => f v) v =
      coerce.foldlM (fun v f => f v) v := by
  rw [List.foldlM_append]
  cases coerce.foldlM (fun v f => f v) v <;> rfl

theorem checked_validators (flags : RuleFlags V) (v : V) (p : V → Bool) :
    checked flags.validators v p = checked flags.coerce v p := by
  unfold checked RuleFlags.validators
  cases flags.readonly with
  | false => rw [if_neg Bool.false_ne_true, List.append_nil]
  | true => rw [if_pos rfl, foldlM_append_some]

/-- A field accepts what its rules allow. -/
theorem toField_accepts {env : ModelEnv V} {R R' : Models V} {flags : RuleFlags V}
    {type : RuleType V} {a : FieldType V} (hflags : flags.Kept) (h : TypeRight env R type a)
    (hR : Extends R R') (value : Option V) :
    (flags.toField env a).accepts env value =
      match value with
      | some v => (Rules.mk flags type).fits env R' (!flags.required) v
      | none => !flags.required || flags.default.isSome := by
  cases value with
  | none =>
    unfold RuleFlags.toField
    by_cases hopt : (!flags.required || flags.nullable) = true
    · rw [if_pos hopt, FieldDef.accepts]
      cases hreq : flags.required with
      | false => simp
      | true =>
        have hnull : flags.nullable = true := by simpa [hreq] using hopt
        simp [hflags hreq hnull]
    · rw [if_neg hopt, FieldDef.accepts]
      have hreq : flags.required = true := by
        cases hreq : flags.required <;> simp [hreq] at hopt ⊢
      simp [hreq]
  | some v =>
    have hsame : ∀ v, a.accepts env v = type.fits env R' v := h.accepts R' hR
    show _ = (Rules.mk flags type).fits env R' (!flags.required) v
    rw [Rules.fits, ← checked_validators]
    unfold RuleFlags.toField
    by_cases hopt : (!flags.required || flags.nullable) = true
    · rw [if_pos hopt, FieldDef.accepts, h.kind]
      simp only [hsame, hopt, Bool.or_comm flags.nullable]
    · rw [if_neg hopt, FieldDef.accepts, h.kind]
      simp only [hsame, Bool.or_comm flags.nullable, Bool.eq_false_iff.mpr hopt]

/-! ## One translation -/

theorem resolve_mono {R R' : Models V} (h : Extends R R') {ref : SchemaRef V} {m : Model V}
    (hm : resolveSchemaRef R ref = .ok m) : resolveSchemaRef R' ref = .ok m := by
  cases ref with
  | model m' => exact hm
  | other => cases hm
  | name name =>
    cases hlook : R.lookup name with
    | none => simp [resolveSchemaRef, hlook] at hm
    | some m' =>
      simp only [resolveSchemaRef, hlook] at hm
      simp only [resolveSchemaRef, h name m' hlook]
      exact hm

/-- A reference is right. -/
theorem ref_right {env : ModelEnv V} {R : Models V} {ref : SchemaRef V} {m : Model V}
    (hm : resolveSchemaRef R ref = .ok m) : TypeRight env R (.ref ref) (.model m) := by
  refine ⟨rfl, fun R' hR v => ?_⟩
  rw [FieldType.accepts, RuleType.fits, resolve_mono hR hm]

theorem length_lt_nestedName (env : ModelEnv V) (parent fieldName : String) :
    parent.length < (nestedName env parent fieldName).length := by
  have hbar : "_".length = 1 := rfl
  simp only [nestedName, String.length_append, hbar]
  omega

/-- Registering a model leaves shorter names alone. -/
theorem registered_lookup {env : ModelEnv V} {name : String} {R : Models V}
    {loop : Models V → Py (List (String × FieldDef V)) × Models V}
    (hloop : ∀ n : String, n.length ≤ name.length → (loop R).2.lookup n = R.lookup n) {n : String}
    (hn : n.length < name.length) :
    (registered env name loop R).2.lookup n = R.lookup n := by
  have hsame := hloop n (Nat.le_of_lt hn)
  unfold registered
  cases R.lookup name with
  | some m => rfl
  | none =>
    dsimp only
    rcases hout : loop R with ⟨out, R₁⟩
    rw [hout] at hsame
    cases out with
    | error e => exact hsame
    | ok fields =>
      dsimp only
      cases env.refuses name fields with
      | some e => exact hsame
      | none =>
        have hne : n ≠ name := by
          rintro rfl
          exact absurd hn (Nat.lt_irrefl _)
        dsimp only
        rw [List.lookup_cons, beq_false_of_ne hne]
        exact hsame

mutual

theorem buildType_lookup (env : ModelEnv V) (parent fieldName : String) (type : RuleType V)
    (R : Models V) {n : String} (hn : n.length ≤ parent.length) :
    (buildType env parent fieldName type R).2.lookup n = R.lookup n := by
  cases type with
  | ref ref => rfl
  | dict schema =>
    rw [buildType]
    exact registered_lookup (fun k hk => buildFields_lookup env _ schema R hk)
      (Nat.lt_of_le_of_lt hn (length_lt_nestedName env parent fieldName))
  | list item =>
    rw [buildType]
    exact buildItem_lookup env parent fieldName item R hn
  | set => rfl
  | other type => rfl

theorem buildItem_lookup (env : ModelEnv V) (parent fieldName : String) (item : Rules V)
    (R : Models V) {n : String} (hn : n.length ≤ parent.length) :
    (buildItem env parent fieldName item R).2.lookup n = R.lookup n := by
  obtain ⟨flags, type⟩ := item
  cases type with
  | ref ref => rfl
  | dict schema =>
    have hlt := length_lt_nestedName env parent fieldName
    rw [buildItem]
    refine registered_lookup (fun k hk => buildFields_lookup env _ schema R hk) ?_
    rw [String.length_append]
    omega
  | list item => rfl
  | set => rfl
  | other type => rfl

/-- The names below a model are longer than its own. -/
theorem buildFields_lookup (env : ModelEnv V) (parent : String) (schema : List (String × Rules V))
    (R : Models V) {n : String} (hn : n.length ≤ parent.length) :
    (buildFields env parent schema R).2.lookup n = R.lookup n := by
  cases schema with
  | nil => rfl
  | cons e rest =>
    obtain ⟨fieldName, flags, type⟩ := e
    have htype := buildType_lookup env parent fieldName type R hn
    rw [buildFields]
    rcases hout : buildType env parent fieldName type R with ⟨out, R₁⟩
    rw [hout] at htype
    cases out with
    | error e => exact htype
    | ok fieldType => exact (buildFields_lookup env parent rest R₁ hn).trans htype

end

/-- What registering a model does, from what its loop over the fields does. -/
theorem registered_built {env : ModelEnv V} {R₀ R : Models V} {name : String}
    {schema : Schema V} {nested : List (String × Schema V)}
    {loop : Models V → Py (List (String × FieldDef V)) × Models V} (hR : Extends R₀ R)
    (hknown : Known env R (visitsOf R₀ name schema nested))
    (hfresh : ∀ n : String, n.length ≤ name.length → (loop R).2.lookup n = R.lookup n)
    (hloop : R₀.lookup name = none → (∀ e ∈ nested, e ∈ visitsOf R₀ name schema nested) →
      Adds env nested R (loop R).2 ∧
        ∀ fields, (loop R).1 = .ok fields → FieldsRight env (loop R).2 schema fields) :
    Adds env (visitsOf R₀ name schema nested) R (registered env name loop R).2 ∧
      ∀ m, (registered env name loop R).1 = .ok m →
        Right env (registered env name loop R).2 schema m := by
  unfold registered
  cases hlook : R.lookup name with
  | some m =>
    refine ⟨Adds.refl env _ R, fun m' hm => ?_⟩
    cases hm
    exact hknown name schema List.mem_cons_self m hlook
  | none =>
    have hnone := hR.lookup_none hlook
    have hvisits : visitsOf R₀ name schema nested = (name, schema) :: nested := by
      simp [visitsOf, hnone]
    rw [hvisits] at hloop ⊢
    obtain ⟨hbuilt, hfields⟩ := hloop hnone fun e he => List.mem_cons_of_mem _ he
    have hname := hfresh name (Nat.le_refl _)
    dsimp only
    rcases hout : loop R with ⟨out, R₁⟩
    rw [hout] at hbuilt hfields hname
    have hsub : ∀ e ∈ nested, e ∈ (name, schema) :: nested := fun e he =>
      List.mem_cons_of_mem _ he
    cases out with
    | error e => exact ⟨hbuilt.subset hsub, nofun⟩
    | ok fields =>
      dsimp only
      cases env.refuses name fields with
      | some e => exact ⟨hbuilt.subset hsub, nofun⟩
      | none =>
        have hadd : Extends R₁ ((name, .mk name fields) :: R₁) :=
          Extends.cons (hname.trans hlook) _
        have hright : Right env ((name, .mk name fields) :: R₁) schema (.mk name fields) := by
          intro R' hR' v
          rw [Model.accepts, fitsSchema, RuleType.fits]
          cases env.mapping? v with
          | none => rfl
          | some get => exact hfields fields rfl R' (hadd.trans hR') get
        refine ⟨⟨hbuilt.keeps.trans hadd, fun n m hm => ?_⟩, fun m hm => ?_⟩
        · dsimp only at hm
          rw [List.lookup_cons] at hm
          by_cases hn : n = name
          · subst hn
            rw [beq_self_eq_true] at hm
            cases hm
            exact .inr ⟨schema, List.mem_cons_self, hright⟩
          · rw [beq_false_of_ne hn] at hm
            rcases (hbuilt.subset hsub).new n m hm with hm | ⟨s, hs, hm⟩
            · exact .inl hm
            · exact .inr ⟨s, hs, hm.mono hadd⟩
        · cases hm
          exact hright

/-- A model in the place of its schema. -/
theorem Right.type {env : ModelEnv V} {R : Models V} {schema : Schema V} {m : Model V}
    (h : Right env R schema m) : TypeRight env R (.dict schema) (.model m) := by
  refine ⟨rfl, fun R' hR v => ?_⟩
  rw [FieldType.accepts]
  exact h R' hR v

theorem Known.subset {env : ModelEnv V} {R : Models V} {es es' : List (String × Schema V)}
    (h : Known env R es') (hsub : ∀ e ∈ es, e ∈ es') : Known env R es :=
  fun n s hs => h n s (hsub _ hs)

mutual

theorem buildType_built {env : ModelEnv V} {R₀ : Models V} {all : List (String × Schema V)}
    (hall : Consistent env R₀ all) (parent fieldName : String) (type : RuleType V)
    {R : Models V} (hR : Extends R₀ R)
    (hsub : ∀ e ∈ typeVisits env R₀ parent fieldName type, e ∈ all)
    (hknown : Known env R (typeVisits env R₀ parent fieldName type))
    (hschemas : SchemasKept env R₀ (typeVisits env R₀ parent fieldName type))
    (hkept : type.Kept env R₀) :
    Adds env (typeVisits env R₀ parent fieldName type) R
        (buildType env parent fieldName type R).2 ∧
      ∀ a, (buildType env parent fieldName type R).1 = .ok a →
        TypeRight env (buildType env parent fieldName type R).2 type a := by
  cases type with
  | ref ref =>
    refine ⟨Adds.refl env _ R, fun a ha => ?_⟩
    obtain ⟨m, hm, rfl⟩ := map_ok ha
    exact ref_right hm
  | dict schema =>
    rw [typeVisits] at hsub hknown hschemas ⊢
    rw [buildType]
    have hbuilt := registered_built hR hknown
      (fun n hn => buildFields_lookup env _ schema R hn) fun hnone hnested =>
        buildFields_built hall _ schema hR (fun e he => hsub e (hnested e he))
          (hknown.subset hnested) (hschemas.subset hnested)
          (hschemas _ schema List.mem_cons_self hnone)
    refine ⟨hbuilt.1, fun a ha => ?_⟩
    obtain ⟨m, hm, rfl⟩ := map_ok ha
    exact (hbuilt.2 m hm).type
  | list item =>
    rw [typeVisits] at hsub hknown hschemas ⊢
    rw [buildType]
    have hbuilt := buildItem_built hall parent fieldName item hR hsub hknown hschemas
    refine ⟨hbuilt.1, fun a ha => ?_⟩
    obtain ⟨item', hitem, rfl⟩ := map_ok ha
    refine ⟨rfl, fun R' hR' v => ?_⟩
    have hbare := hbuilt.2 item' hitem R' hR'
    have hfits := hkept R' ((hR.trans hbuilt.1.keeps).trans hR')
    rw [FieldType.accepts, RuleType.fits]
    cases env.items? v with
    | none => rfl
    | some vs =>
      have hsame : item'.accepts env = item.fits env R' false := by
        funext v
        rw [hbare, hfits]
      exact congrArg vs.all hsame
  | set =>
    refine ⟨Adds.refl env _ R, fun a ha => ?_⟩
    cases ha
    refine ⟨rfl, fun R' hR' v => ?_⟩
    rw [FieldType.accepts, RuleType.fits]
  | other type =>
    refine ⟨Adds.refl env _ R, fun a ha => ?_⟩
    cases ha
    refine ⟨rfl, fun R' hR' v => ?_⟩
    rw [FieldType.accepts, RuleType.fits]

theorem buildItem_built {env : ModelEnv V} {R₀ : Models V} {all : List (String × Schema V)}
    (hall : Consistent env R₀ all) (parent fieldName : String) (item : Rules V)
    {R : Models V} (hR : Extends R₀ R)
    (hsub : ∀ e ∈ itemVisits env R₀ parent fieldName item, e ∈ all)
    (hknown : Known env R (itemVisits env R₀ parent fieldName item))
    (hschemas : SchemasKept env R₀ (itemVisits env R₀ parent fieldName item)) :
    Adds env (itemVisits env R₀ parent fieldName item) R
        (buildItem env parent fieldName item R).2 ∧
      ∀ a, (buildItem env parent fieldName item R).1 = .ok a →
        ItemRight env (buildItem env parent fieldName item R).2 item a := by
  obtain ⟨flags, type⟩ := item
  cases type with
  | ref ref =>
    refine ⟨Adds.refl env _ R, fun a ha => ?_⟩
    obtain ⟨m, hm, rfl⟩ := map_ok ha
    exact (ref_right hm).accepts
  | dict schema =>
    rw [itemVisits] at hsub hknown hschemas ⊢
    rw [buildItem]
    have hbuilt := registered_built hR hknown
      (fun n hn => buildFields_lookup env _ schema R hn) fun hnone hnested =>
        buildFields_built hall _ schema hR (fun e he => hsub e (hnested e he))
          (hknown.subset hnested) (hschemas.subset hnested)
          (hschemas _ schema List.mem_cons_self hnone)
    refine ⟨hbuilt.1, fun a ha => ?_⟩
    obtain ⟨m, hm, rfl⟩ := map_ok ha
    exact (hbuilt.2 m hm).type.accepts
  | list item =>
    refine ⟨Adds.refl env _ R, fun a ha => ?_⟩
    cases ha
    intro R' hR' v
    rw [FieldType.accepts]
    rfl
  | set =>
    refine ⟨Adds.refl env _ R, fun a ha => ?_⟩
    cases ha
    intro R' hR' v
    rw [FieldType.accepts]
    rfl
  | other type =>
    refine ⟨Adds.refl env _ R, fun a ha => ?_⟩
    cases ha
    intro R' hR' v
    rw [FieldType.accepts]
    rfl

theorem buildFields_built {env : ModelEnv V} {R₀ : Models V} {all : List (String × Schema V)}
    (hall : Consistent env R₀ all) (parent : String) (schema : List (String × Rules V))
    {R : Models V} (hR : Extends R₀ R)
    (hsub : ∀ e ∈ fieldVisits env R₀ parent schema, e ∈ all)
    (hknown : Known env R (fieldVisits env R₀ parent schema))
    (hschemas : SchemasKept env R₀ (fieldVisits env R₀ parent schema))
    (hkept : FieldsKept env R₀ schema) :
    Adds env (fieldVisits env R₀ parent schema) R (buildFields env parent schema R).2 ∧
      ∀ fields, (buildFields env parent schema R).1 = .ok fields →
        FieldsRight env (buildFields env parent schema R).2 schema fields := by
  cases schema with
  | nil =>
    refine ⟨Adds.refl env _ R, fun fields hfields => ?_⟩
    cases hfields
    intro R' hR' get
    rw [acceptsFields, fitsFields]
  | cons e rest =>
    obtain ⟨fieldName, flags, type⟩ := e
    obtain ⟨hflags, htype⟩ : flags.Kept ∧ type.Kept env R₀ := hkept _ List.mem_cons_self
    rw [fieldVisits] at hsub hknown hschemas ⊢
    have hleft : ∀ e ∈ typeVisits env R₀ parent fieldName type,
        e ∈ typeVisits env R₀ parent fieldName type ++ fieldVisits env R₀ parent rest :=
      fun e he => List.mem_append_left _ he
    have hrest : ∀ e ∈ fieldVisits env R₀ parent rest,
        e ∈ typeVisits env R₀ parent fieldName type ++ fieldVisits env R₀ parent rest :=
      fun e he => List.mem_append_right _ he
    have hfirst := buildType_built hall parent fieldName type hR
      (fun e he => hsub e (hleft e he)) (hknown.subset hleft) (hschemas.subset hleft) htype
    rw [buildFields]
    rcases hout : buildType env parent fieldName type R with ⟨out, R₁⟩
    rw [hout] at hfirst
    cases out with
    | error e => exact ⟨hfirst.1.subset hleft, nofun⟩
    | ok fieldType =>
      -- the other fields start from the registry that this one leaves
      have hknown₁ := Known.after hall hR (fun e he => hsub e (hleft e he))
        (fun e he => hsub e (hrest e he)) (hknown.subset hrest) hfirst.1
      have hnext := buildFields_built hall parent rest (hR.trans hfirst.1.keeps)
        (fun e he => hsub e (hrest e he)) hknown₁ (hschemas.subset hrest)
        fun e he => hkept e (List.mem_cons_of_mem _ he)
      refine ⟨hfirst.1.trans hnext.1, fun fields hfields => ?_⟩
      obtain ⟨others, hothers, rfl⟩ := map_ok hfields
      intro R' hR' get
      have hfield := toField_accepts hflags (hfirst.2 fieldType rfl) (hnext.1.keeps.trans hR')
        (get fieldName)
      have hsame : acceptsFields env others get = fitsFields env R' rest get :=
        hnext.2 others hothers R' hR' get
      rw [acceptsFields, fitsFields, hsame, hfield]
      rfl

end

/-- **A translation returns the model of its schema**, if the models it finds are those of their
schemas and each name stands for one schema. -/
theorem cerberusSchemaToPydantic_built {env : ModelEnv V} {R : Models V} {name : String}
    {schema : Schema V} (hall : Consistent env R (visits env R name schema))
    (hknown : Known env R (visits env R name schema))
    (hschemas : SchemasKept env R (visits env R name schema)) :
    Adds env (visits env R name schema) R (cerberusSchemaToPydantic env schema name R).2 ∧
      ∀ m, (cerberusSchemaToPydantic env schema name R).1 = .ok m →
        Right env (cerberusSchemaToPydantic env schema name R).2 schema m :=
  registered_built (Extends.refl R) hknown
    (fun _ hn => buildFields_lookup env name schema R hn) fun hnone hnested =>
      buildFields_built hall name schema (Extends.refl R) hnested (hknown.subset hnested)
        (hschemas.subset hnested) (hschemas name schema List.mem_cons_self hnone)

/-! ## Runs -/

/-- A call of `cerberus_schema_to_pydantic`. -/
structure ModelCall (V : Type) where
  schema : Schema V
  name : String

/-- The registry after a call. -/
def ModelCall.after (env : ModelEnv V) (R : Models V) (c : ModelCall V) : Models V :=
  (cerberusSchemaToPydantic env c.schema c.name R).2

/-- The names a call registers, with their schemas. -/
def ModelCall.registers (env : ModelEnv V) (R : Models V) (c : ModelCall V) :
    List (String × Schema V) :=
  (visits env R c.name c.schema).filter fun e =>
    (R.lookup e.1).isNone && ((c.after env R).lookup e.1).isSome

/-- The calls of a run: each that returns returns a model that accepts the documents of its
schema. -/
def ModelsRight (env : ModelEnv V) : Models V → List (ModelCall V) → Prop
  | _, [] => True
  | R, c :: calls =>
    (∀ m, (cerberusSchemaToPydantic env c.schema c.name R).1 = .ok m →
      ∀ v, m.accepts env v = fitsSchema env (c.after env R) c.schema v) ∧
      ModelsRight env (c.after env R) calls

/-- The condition on a call: the schemas for the names it asks for have the documents of those the
names were registered for, and of each other if they have one name, and those that are translated
have fields that survive. -/
structure CallMeets (env : ModelEnv V) (R : Models V) (history : List (String × Schema V))
    (c : ModelCall V) : Prop where
  same : ∀ n s s', (n, s) ∈ visits env R c.name c.schema →
    (n, s') ∈ history ++ visits env R c.name c.schema → SameDocs env R s' s
  kept : SchemasKept env R (visits env R c.name c.schema)

/-- A run all of whose calls meet the condition; the history has what was registered. -/
def RunMeets (env : ModelEnv V) : Models V → List (String × Schema V) → List (ModelCall V) → Prop
  | _, _, [] => True
  | R, history, c :: calls =>
    CallMeets env R history c ∧
      RunMeets env (c.after env R) (history ++ c.registers env R) calls

/-- What is registered is the model of its schema. -/
def Recorded (env : ModelEnv V) (R : Models V) (history : List (String × Schema V)) : Prop :=
  ∀ n m, R.lookup n = some m → ∃ s, (n, s) ∈ history ∧ Right env R s m

theorem recorded_nil (env : ModelEnv V) : Recorded env [] [] := nofun

/-- One call: it returns the right model, and leaves a registry of right models. -/
theorem Recorded.step {env : ModelEnv V} {R : Models V} {history : List (String × Schema V)}
    {c : ModelCall V} (h : Recorded env R history) (hc : CallMeets env R history c) :
    Recorded env (c.after env R) (history ++ c.registers env R) ∧
      ∀ m, (cerberusSchemaToPydantic env c.schema c.name R).1 = .ok m →
        Right env (c.after env R) c.schema m := by
  have hall : Consistent env R (visits env R c.name c.schema) := fun n s s' hs hs' =>
    hc.same n s' s hs' (List.mem_append_right _ hs)
  have hknown : Known env R (visits env R c.name c.schema) := by
    intro n s hs m hm
    obtain ⟨s', hs', hright⟩ := h n m hm
    exact (hc.same n s s' hs (List.mem_append_left _ hs')).right (Extends.refl R) hright
  obtain ⟨hbuilt, hreturns⟩ := cerberusSchemaToPydantic_built hall hknown hc.kept
  refine ⟨fun n m hm => ?_, hreturns⟩
  cases hlook : R.lookup n with
  | some m' =>
    have hsame : m' = m := Option.some.inj ((hbuilt.keeps n m' hlook).symm.trans hm)
    obtain ⟨s, hs, hright⟩ := h n m' hlook
    exact ⟨s, List.mem_append_left _ hs, hsame ▸ hright.mono hbuilt.keeps⟩
  | none =>
    rcases hbuilt.new n m hm with hold | ⟨s, hs, hright⟩
    · rw [hlook] at hold
      cases hold
    · refine ⟨s, List.mem_append_right _ (List.mem_filter.mpr ⟨hs, ?_⟩), hright⟩
      rw [hlook, hm]
      rfl

theorem Recorded.run {env : ModelEnv V} {calls : List (ModelCall V)} {R : Models V}
    {history : List (String × Schema V)} (h : Recorded env R history)
    (hcalls : RunMeets env R history calls) : ModelsRight env R calls := by
  induction calls generalizing R history with
  | nil => trivial
  | cons c calls ih =>
    obtain ⟨hc, hcalls⟩ := hcalls
    obtain ⟨hnext, hright⟩ := h.step hc
    exact ⟨fun m hm => hright m hm _ (Extends.refl _), ih hnext hcalls⟩

/-- `_create_models` of `CustomService`: what a document does not validate to, or raises, is passed
over. The registry keeps what it has when the service is built again. -/
def createModels {D : Type} (env : ModelEnv V) (validate : D → Option (ModelCall V))
    (models : List D) (R : Models V) : Models V :=
  models.foldl (fun R d => (validate d).elim R fun c => c.after env R) R

/-- The models a service finds are those of the schemas they were registered for. -/
theorem createModels_recorded {D : Type} {env : ModelEnv V} {validate : D → Option (ModelCall V)}
    {models : List D} {R : Models V} {history : List (String × Schema V)}
    (h : Recorded env R history)
    (hcalls : RunMeets env R history (models.filterMap validate)) :
    ∃ history', Recorded env (createModels env validate models R) history' := by
  induction models generalizing R history with
  | nil => exact ⟨history, h⟩
  | cons d models ih =>
    rw [createModels, List.foldl_cons]
    cases hd : validate d with
    | none =>
      rw [List.filterMap_cons_none hd] at hcalls
      exact ih h hcalls
    | some c =>
      rw [List.filterMap_cons_some hd] at hcalls
      exact ih (h.step hcalls.1).1 hcalls.2

/-- **In a run whose calls meet the condition every model accepts the documents of its schema.** -/
theorem modelsRight_run (env : ModelEnv V) (calls : List (ModelCall V))
    (h : RunMeets env [] [] calls) : ModelsRight env [] calls :=
  (recorded_nil env).run h

/-- Names that are used once are used for one schema. -/
theorem CallMeets.of_nodup {env : ModelEnv V} {R : Models V}
    {history : List (String × Schema V)} {c : ModelCall V}
    (h : ((history ++ visits env R c.name c.schema).map Prod.fst).Nodup)
    (hkept : SchemasKept env R (visits env R c.name c.schema)) : CallMeets env R history c := by
  refine ⟨fun n s s' hs hs' => ?_, hkept⟩
  have heq : (n, s) = (n, s') :=
    List.inj_on_of_nodup_map h (List.mem_append_right _ hs) hs' rfl
  obtain ⟨-, rfl⟩ := Prod.mk.inj heq
  exact fun _ _ _ => rfl

/-! ## Schemas without references -/

mutual

/-- No name of a model is referred to. -/
def RuleType.Closed : RuleType V → Prop
  | .ref (.name _) => False
  | .dict schema => fieldsClosed schema
  | .list item => item.Closed
  | _ => True

def Rules.Closed : Rules V → Prop
  | .mk _ type => type.Closed

def fieldsClosed : List (String × Rules V) → Prop
  | [] => True
  | (_, rules) :: rest => rules.Closed ∧ fieldsClosed rest

end

mutual

theorem RuleType.fits_closed (env : ModelEnv V) (R R' : Models V) (type : RuleType V)
    (h : type.Closed) (v : V) : type.fits env R v = type.fits env R' v := by
  cases type with
  | ref ref =>
    cases ref with
    | model m => rfl
    | name name => exact absurd h (by rw [RuleType.Closed]; exact id)
    | other => rfl
  | dict schema =>
    rw [RuleType.Closed] at h
    rw [RuleType.fits, RuleType.fits]
    cases env.mapping? v with
    | none => rfl
    | some get => exact fitsFields_closed env R R' schema h get
  | list item =>
    rw [RuleType.Closed] at h
    rw [RuleType.fits, RuleType.fits]
    have hsame : item.fits env R false = item.fits env R' false := by
      funext v
      exact Rules.fits_closed env R R' item h false v
    rw [hsame]
  | set => rw [RuleType.fits, RuleType.fits]
  | other type => rw [RuleType.fits, RuleType.fits]

theorem Rules.fits_closed (env : ModelEnv V) (R R' : Models V) (rules : Rules V)
    (h : rules.Closed) (optional : Bool) (v : V) :
    rules.fits env R optional v = rules.fits env R' optional v := by
  obtain ⟨flags, type⟩ := rules
  rw [Rules.Closed] at h
  rw [Rules.fits, Rules.fits]
  simp only [RuleType.fits_closed env R R' type h]

theorem fitsFields_closed (env : ModelEnv V) (R R' : Models V) (schema : List (String × Rules V))
    (h : fieldsClosed schema) (get : String → Option V) :
    fitsFields env R schema get = fitsFields env R' schema get := by
  cases schema with
  | nil => rw [fitsFields, fitsFields]
  | cons e rest =>
    obtain ⟨name, rules⟩ := e
    rw [fieldsClosed] at h
    rw [fitsFields, fitsFields, fitsFields_closed env R R' rest h.2 get]
    cases get name with
    | none => rfl
    | some v =>
      dsimp only
      rw [Rules.fits_closed env R R' rules h.1]

end

/-- What a right model of a schema without references accepts does not depend on the calls before:
after any others it is the same. -/
theorem Right.independent {env : ModelEnv V} {R R' : Models V} {schema : Schema V}
    {m m' : Model V} (h : Right env R schema m) (h' : Right env R' schema m')
    (hclosed : fieldsClosed schema) (v : V) : m.accepts env v = m'.accepts env v := by
  rw [h R (Extends.refl R), h' R' (Extends.refl R')]
  exact RuleType.fits_closed env R R' (.dict schema) (by rw [RuleType.Closed]; exact hclosed) v

/-! ## Two runs -/

/-- Documents. -/
inductive Doc
  | null
  | text (s : String)
  | list (items : List Doc)
  | map (entries : List (String × Doc))

/-- `str.capitalize` on letters without accents. -/
def asciiCapitalize (s : String) : String :=
  match s.toList with
  | [] => ""
  | c :: cs => .ofList (c.toUpper :: cs.map Char.toLower)

/-- Documents under `pydantic`. -/
def docEnv : ModelEnv Doc where
  capitalize := asciiCapitalize
  none := .null
  isNone
    | .null => true
    | _ => false
  mapping?
    | .map entries => some fun name => entries.lookup name
    | _ => none
  items?
    | .list items => some items
    | _ => none
  takes
    | .str, .text _ => true
    | .dict, .map _ => true
    | .set, .list _ => true
    | _, _ => false
  meets _ _ _ := true
  refuses _ _ := none

/-- A field that holds a text. -/
def textField : Rules Doc := .mk { required := true } (.other (some "string"))

/-- A schema with a dictionary and a list in it. -/
def citySchema : Schema Doc :=
  [("name", textField), ("mayor", .mk {} (.dict [("name", textField)])),
    ("streets", .mk {} (.list (.mk {} (.other (some "string")))))]

/-- A schema that refers to it. -/
def personSchema : Schema Doc := [("home", .mk { required := true } (.ref (.name "City")))]

/-- A schema, and one that refers to it. -/
theorem modelsRight_run_cities :
    ModelsRight docEnv [] [⟨citySchema, "City"⟩, ⟨personSchema, "Person"⟩] := by
  have hitem : (RuleType.list (.mk {} (.other (some "string")))).Kept docEnv [] :=
    fun _ _ v => fits_eq_fitsBare (by rintro item ⟨⟩) v
  refine modelsRight_run docEnv _ ⟨.of_nodup (by decide) ?_, .of_nodup (by decide) ?_, trivial⟩
  · intro n s hs _
    have hvisits : (n, s) ∈ [("City", citySchema), ("City_Mayor", [("name", textField)])] := hs
    rcases List.mem_cons.mp hvisits with h | h
    · obtain ⟨-, rfl⟩ := Prod.mk.inj h
      intro e he
      simp only [citySchema, List.mem_cons, List.not_mem_nil, or_false] at he
      rcases he with rfl | rfl | rfl
      · exact ⟨nofun, trivial⟩
      · exact ⟨nofun, trivial⟩
      · exact ⟨nofun, hitem⟩
    · obtain ⟨-, rfl⟩ := Prod.mk.inj (List.mem_singleton.mp h)
      intro e he
      rw [List.mem_singleton.mp he]
      exact ⟨nofun, trivial⟩
  · intro n s hs _
    have hcase : (n, s) = ("Person", personSchema) :=
      List.mem_singleton.mp (hs : (n, s) ∈ [("Person", personSchema)])
    obtain ⟨-, rfl⟩ := Prod.mk.inj hcase
    intro e he
    rw [List.mem_singleton.mp he]
    exact ⟨nofun, trivial⟩

/-- Two fields whose names differ in case only: one has a field of its own, the other none. -/
def caseSiblings : Schema Doc :=
  [("home", .mk { required := true } (.dict [("city", textField)])),
    ("HOME", .mk { required := true } (.dict []))]

/-- A document of this schema. -/
def caseDocument : Doc := .map [("home", .map [("city", .text "Paris")]), ("HOME", .map [])]

/-- Both are given the first one's model, which refuses the second. -/
theorem not_modelsRight_siblings : ¬ ModelsRight docEnv [] [⟨caseSiblings, "Person"⟩] := by
  rintro ⟨h, -⟩
  have hsame := h _ rfl caseDocument
  revert hsame
  decide

end Notifyr
