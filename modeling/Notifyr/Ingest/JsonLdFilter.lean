import Notifyr.Runtime.JsonLoads
import Notifyr.Theory.AndOr

/-!
# The JSON-LD filter of a crawl

`JSONLDFilterRule` and `JSONLDFilterGroup` of `app/classes/url.py`: rules about the value at a
dotted path, joined by `AND` and `OR` to any depth, and matched against the JSON-LD objects of a
page.

- `JSONLDFilterRule.construct`: the validators of a rule.
- `getNested`, `evaluateRule`, `matchOne` (`_match`), `matchItems` (`match`).
- `holds`, `Satisfies`: what a rule and a tree of rules ask of one item.
- `FilterRight`: constructing succeeds, and each part of the tree is read as it was given.
- `filterRight_iff`: when that is so.

The validator of `value` asks `isinstance(v, List[str])`, which raises `TypeError` for any value
that is no text; the mode `equals` for texts reads `self.value`, which a group does not have; a
nested group is given one item where it slices a list; and a pattern is lower-cased, escapes
included. What raises makes the whole group false.
-/

namespace Notifyr

open Theory

namespace JsonLd

variable {φ : Type}

/-! ## Rules -/

/-- `ValueType`. -/
inductive ValueType
  | string | number | boolean
  deriving DecidableEq, Repr

/-- `StringMode`, `NumberMode` and `BoolMode`. -/
inductive CompareMode
  | equals | contains | regex | exists_ | in_list
  | gt | gte | lt | lte | eq | bt
  deriving DecidableEq, Repr

/-- `MODE`. -/
def MODE : ValueType → List CompareMode
  | .string => [.equals, .contains, .regex, .exists_, .in_list]
  | .boolean => [.equals, .exists_]
  | .number => [.gt, .gte, .lt, .lte, .eq, .bt]

/-- The value of a rule. -/
inductive RuleValue (φ : Type)
  | str (s : PyStr)
  | float (x : φ)
  | bool (b : Bool)
  | strs (l : List PyStr)
  | floats (x y : φ)
  | none

/-- `JSONLDFilterRule`. -/
structure JSONLDFilterRule (φ : Type) where
  field : PyStr
  type : ValueType
  compareMode : CompareMode
  value : RuleValue φ

/-- What the interpreter does: `str.lower`, `str` of a value that is no text, `bool`, `float`,
the comparisons of floats, and `re.search` with or without `re.IGNORECASE`. -/
structure FilterEnv (φ : Type) where
  lower : PyStr → PyStr
  repr : PyJson φ → PyStr
  truth : PyJson φ → Bool
  /-- `float(v)`; `none` if it raises. -/
  float : PyJson φ → Option φ
  lt : φ → φ → Bool
  le : φ → φ → Bool
  eq : φ → φ → Bool
  /-- Whether the pattern is found in the text; `none` if `re` refuses the pattern. -/
  search : (ignoreCase : Bool) → (pattern text : PyStr) → Option Bool

variable (env : FilterEnv φ)

/-- `normalize_value`: for a value that is no text, `isinstance(v, List[str])` raises. -/
def normalizeValue : RuleValue φ → Py (RuleValue φ)
  | .str s => .ok (.str (env.lower s))
  | _ => .error .typeError

/-- `coerce_value`. -/
def coerceValue (type : ValueType) (mode : CompareMode) (value : RuleValue φ) : RuleValue φ :=
  match type, mode, value with
  | .string, .equals, .str s => .strs [s]
  | _, _, value => value

/-- `validate_value`. -/
def validateValue (type : ValueType) (mode : CompareMode) (value : RuleValue φ) :
    Py (RuleValue φ) :=
  match mode with
  | .eq | .gt | .gte | .lt | .lte =>
    match value with
    | .float _ => .ok value
    | _ => .error .valueError
  | .bt =>
    match value with
    | .floats _ _ => .ok value
    | _ => .error .valueError
  | .exists_ => .ok .none
  | .equals | .in_list =>
    match type, value with
    | .string, .strs _ => .ok value
    | .string, _ => .error .valueError
    | .boolean, .bool _ => .ok value
    | .boolean, _ => .error .valueError
    | .number, _ => .ok value
  | .contains | .regex =>
    match value with
    | .str _ => .ok value
    | _ => .error .valueError

/-- Validating a rule. An error of `validate_mode` is collected, and comes after the `TypeError`
of `normalize_value`, which is not. -/
def JSONLDFilterRule.construct (r : JSONLDFilterRule φ) : Py (JSONLDFilterRule φ) := do
  let value ← normalizeValue env r.value
  if r.compareMode ∉ MODE r.type then .error .valueError
  let value ← validateValue r.type r.compareMode (coerceValue r.type r.compareMode value)
  return { r with value }

/-! ## Evaluating a rule -/

/-- A JSON-LD object. -/
abbrev Item (φ : Type) := NestedDict.Entries PyStr (PyAtom φ)

/-- `get_nested`; a missing path gives `None`. -/
def getNested (data : Item φ) (path : PyStr) : PyJson φ :=
  ((NestedDict.dict data).get? (PyStr.split [ord '.'] path)).getD (.atom .none)

/-- `value is None`. -/
def isNone : PyJson φ → Bool
  | .atom .none => true
  | _ => false

/-- `str(value)`. -/
def FilterEnv.str : PyJson φ → PyStr
  | .atom (.str s) => s
  | value => env.repr value

/-- `text in value`. -/
def inValue (text : PyStr) : RuleValue φ → Option Bool
  | .str s => some (decide (text <:+: s))
  | .strs l => some (decide (text ∈ l))
  | .floats _ _ => some false
  | _ => none

/-- The modes for texts; `none` is an exception. -/
def evaluateString (mode : CompareMode) (ruleValue : RuleValue φ) (value : PyStr) : Option Bool :=
  match mode with
  | .exists_ => some true
  -- the code reads `self.value`, and `self` is the group
  | .equals => none
  | .contains =>
    match ruleValue with
    | .str p => some (decide (p <:+: value))
    | _ => none
  | .regex =>
    match ruleValue with
    | .str p => env.search false p value
    | _ => none
  | .in_list => inValue value ruleValue
  | _ => some false

/-- The modes for numbers, for the values that `validate_value` lets pass. -/
def evaluateNumber (mode : CompareMode) (ruleValue : RuleValue φ) (num : φ) : Option Bool :=
  match mode, ruleValue with
  | .gt, .float x => some (env.lt x num)
  | .gte, .float x => some (env.le x num)
  | .lt, .float x => some (env.lt num x)
  | .lte, .float x => some (env.le num x)
  | .eq, .float x => some (env.eq num x)
  | .bt, .floats x y => some (env.le x num && env.le num y)
  | _, _ => none

/-- The modes for booleans. -/
def evaluateBoolean (mode : CompareMode) (ruleValue : RuleValue φ) (value : PyJson φ) :
    Option Bool :=
  match mode, ruleValue with
  | .exists_, _ => some (!isNone value)
  | .equals, .bool b => some (env.truth value == b)
  | _, _ => some false

/-- `evaluate_rule`; `none` is an exception. -/
def evaluateRule (rule : JSONLDFilterRule φ) (data : Item φ) : Option Bool :=
  let value := getNested data rule.field
  match rule.type with
  | .string =>
    if isNone value then some false
    else evaluateString env rule.compareMode rule.value (env.lower (env.str value))
  | .number =>
    match env.float value with
    -- the only exception that is caught where it is raised
    | none => some false
    | some num => evaluateNumber env rule.compareMode rule.value num
  | .boolean => evaluateBoolean env rule.compareMode rule.value value

/-! ## Matching -/

/-- What `match` is given: a list of items, or one item where a group is nested. -/
inductive JsonLdInput (φ : Type)
  | items (l : List (Item φ))
  | object (data : Item φ)

/-- `any(matches)` over `jsonld[:5]`; a dictionary is not sliced. -/
def anyOfFive (f : Item φ → Bool) : JsonLdInput φ → Option Bool
  | .items l => some ((l.take 5).any f)
  | .object _ => none

/-- `_match`, from the results of the rules: an exception makes the group false. -/
def verdict (operator : Connective) (results : Option (List Bool)) : Bool :=
  match results with
  | some bs => operator.combine bs
  | none => false

mutual

/-- One of the `results`. -/
def result : AndOr (JSONLDFilterRule φ) → Item φ → Option Bool
  | .rule r, data => evaluateRule env r data
  | .group operator rules, data =>
    -- `rule.match(data)`: the group is handed the item, where `match` takes a list of items
    anyOfFive (fun d => verdict operator (results rules d)) (.object data)

/-- The loop of `_match`. -/
def results : List (AndOr (JSONLDFilterRule φ)) → Item φ → Option (List Bool)
  | [], _ => some []
  | rule :: rules, data => do
    let b ← result rule data
    return b :: (← results rules data)

end

/-- `_match`. -/
def matchOne (operator : Connective) (rules : List (AndOr (JSONLDFilterRule φ)))
    (data : Item φ) : Bool :=
  verdict operator (results env rules data)

/-- `match`. -/
def matchItems (operator : Connective) (rules : List (AndOr (JSONLDFilterRule φ)))
    (jsonld : JsonLdInput φ) : Option Bool :=
  anyOfFive (matchOne env operator rules) jsonld

/-! ## What a filter asks -/

/-- The value of a rule has the shape its mode documents. -/
def JSONLDFilterRule.wellTyped (r : JSONLDFilterRule φ) : Bool :=
  match r.type, r.compareMode, r.value with
  | .string, .exists_, _ | .boolean, .exists_, _ => true
  | .string, .equals, .str _ | .string, .equals, .strs _ | .string, .in_list, .strs _ => true
  | .string, .contains, .str _ | .string, .regex, .str _ => true
  | .boolean, .equals, .bool _ => true
  | .number, .bt, .floats _ _ => true
  | .number, .gt, .float _ | .number, .gte, .float _ | .number, .lt, .float _ => true
  | .number, .lte, .float _ | .number, .eq, .float _ => true
  | _, _, _ => false

/-- A rule whose value has the shape its mode documents. -/
structure TypedRule (φ : Type) where
  rule : JSONLDFilterRule φ
  typed : rule.wellTyped = true

/-- What a text is asked for, without regard to case. -/
def holdsString (mode : CompareMode) (ruleValue : RuleValue φ) (text : PyStr) : Bool :=
  match mode, ruleValue with
  | .exists_, _ => true
  | .equals, .str w => env.lower text = env.lower w
  | .equals, .strs l | .in_list, .strs l => env.lower text ∈ l.map env.lower
  | .contains, .str w => env.lower w <:+: env.lower text
  | .regex, .str p => env.search true p text = some true
  | _, _ => false

/-- The comparison of a rule for the value at its path. A text is read off any value, a number off
those `float` accepts; a missing path, and a value that cannot be read, make the rule false. -/
def holds (r : JSONLDFilterRule φ) (data : Item φ) : Bool :=
  let value := getNested data r.field
  match r.type with
  | .string => !isNone value && holdsString env r.compareMode r.value (env.str value)
  | .number =>
    match env.float value with
    | none => false
    | some num => evaluateNumber env r.compareMode r.value num = some true
  | .boolean =>
    match r.compareMode, r.value, value with
    | .exists_, _, value => !isNone value
    | .equals, .bool b, .atom (.bool b') => b = b'
    | _, _, _ => false

/-- The tree holds of an item. -/
def Satisfies (t : AndOr (TypedRule φ)) (data : Item φ) : Bool :=
  t.eval fun r => holds env r.rule data

/-- Constructing the rules of a group. -/
def constructRules (rules : List (AndOr (TypedRule φ))) :
    Py (List (AndOr (JSONLDFilterRule φ))) :=
  AndOr.mapMList (fun r => r.rule.construct env) rules

/-- A part of a tree is constructed and does what it says: a rule is evaluated as its comparison,
a group holds of an item as its tree does. -/
def NodeRight : AndOr (TypedRule φ) → Prop
  | .rule r => ∃ rule, r.rule.construct env = .ok rule ∧
      ∀ data, evaluateRule env rule data = some (holds env r.rule data)
  | .group operator rules => ∃ built, constructRules env rules = .ok built ∧
      ∀ data, matchOne env operator built data = Satisfies env (.group operator rules) data

/-- The filter is constructed, it matches a list of items when one of the first five satisfies it,
and so does each of its parts. -/
def FilterRight (operator : Connective) (rules : List (AndOr (TypedRule φ))) : Prop :=
  (∃ built, constructRules env rules = .ok built ∧
    ∀ items, matchItems env operator built (.items items) = some true ↔
      ∃ data ∈ items.take 5, Satisfies env (.group operator rules) data = true) ∧
  ∀ n, AndOr.Node n (.group operator rules) → NodeRight env n

/-! ## The condition -/

/-- Lower-casing the pattern and the text does not change what the pattern finds. -/
def LowerSafe (p : PyStr) : Prop :=
  ∀ text, env.search false (env.lower p) (env.lower text) =
    some (decide (env.search true p text = some true))

/-- A rule with a text for a value and one of the modes that do not fail. -/
def PlainRule (r : JSONLDFilterRule φ) : Prop :=
  ∃ s, r.value = .str s ∧
    (r.compareMode = .exists_ ∨ r.compareMode = .contains ∨
      r.compareMode = .regex ∧ LowerSafe env s)

/-- All rules are plain, and no item satisfies a group with a group in it. -/
structure Plain (operator : Connective) (rules : List (AndOr (TypedRule φ))) : Prop where
  plain : ∀ r, AndOr.Node (.rule r) (.group operator rules) → PlainRule env r.rule
  flat : ∀ op cs, AndOr.Node (.group op cs) (.group operator rules) →
    (∀ c ∈ cs, c.IsRule) ∨ ∀ data, Satisfies env (.group op cs) data = false

/-! ## One rule -/

/-- Each path has an item with a given value there. -/
theorem exists_getNested (path : PyStr) (v : PyJson φ) : ∃ data, getNested data path = v := by
  refine ⟨NestedDict.setAt [] (PyStr.split [ord '.'] path) v, ?_⟩
  rw [getNested, NestedDict.get?_setAt_self [] (split_ne_nil _ _)]
  rfl

/-- Only a rule with a text for a value is constructed. -/
theorem value_of_construct {r rule : JSONLDFilterRule φ} (h : r.construct env = .ok rule) :
    ∃ s, r.value = .str s := by
  obtain ⟨value, hvalue, -⟩ := bind_ok h
  cases hr : r.value with
  | str s => exact ⟨s, rfl⟩
  | _ =>
    rw [hr] at hvalue
    cases hvalue

/-- The rule that is left after `exists`. -/
theorem construct_exists {r : JSONLDFilterRule φ} {s : PyStr} (hv : r.value = .str s)
    (hm : r.compareMode = .exists_) (ht : r.wellTyped = true) :
    r.construct env = .ok { r with value := .none } := by
  obtain ⟨field, type, mode, value⟩ := r
  cases hv
  cases hm
  cases type with
  | number => cases ht
  | _ => rfl

/-- The rule that is left after `contains` and `regex`: its text is lower-cased. -/
theorem construct_text {r : JSONLDFilterRule φ} {s : PyStr} (hv : r.value = .str s)
    (hm : r.compareMode = .contains ∨ r.compareMode = .regex) (ht : r.wellTyped = true) :
    r.type = .string ∧ r.construct env = .ok { r with value := .str (env.lower s) } := by
  obtain ⟨field, type, mode, value⟩ := r
  cases hv
  rcases hm with hm | hm
  all_goals
    cases hm
    cases type with
    | string => exact ⟨rfl, rfl⟩
    | _ => cases ht

/-- The rule that is left after `equals`: a list with the text. -/
theorem construct_equals {r : JSONLDFilterRule φ} {s : PyStr} (hv : r.value = .str s)
    (hm : r.compareMode = .equals) (ht : r.wellTyped = true) :
    r.type = .string ∧ r.construct env = .ok { r with value := .strs [env.lower s] } := by
  obtain ⟨field, type, mode, value⟩ := r
  cases hv
  cases hm
  cases type with
  | string => exact ⟨rfl, rfl⟩
  | _ => cases ht

/-- The modes that a text can have. -/
theorem mode_of_str {r : JSONLDFilterRule φ} {s : PyStr} (hv : r.value = .str s)
    (ht : r.wellTyped = true) :
    r.compareMode = .exists_ ∨ r.compareMode = .contains ∨ r.compareMode = .regex ∨
      r.compareMode = .equals := by
  obtain ⟨field, type, mode, value⟩ := r
  cases hv
  cases mode
  all_goals first
    | exact .inl rfl
    | exact .inr (.inl rfl)
    | exact .inr (.inr (.inl rfl))
    | exact .inr (.inr (.inr rfl))
    | cases type <;> cases ht

/-- A rule of a mode for texts, on an item with something at its path. -/
theorem evaluateRule_string {r : JSONLDFilterRule φ} (ht : r.type = .string) {data : Item φ}
    (hv : isNone (getNested data r.field) = false) :
    evaluateRule env r data = evaluateString env r.compareMode r.value
      (env.lower (env.str (getNested data r.field))) := by
  rw [evaluateRule, ht]
  show (if _ then _ else _) = _
  rw [if_neg (by simp [hv])]

theorem evaluateRule_none {r : JSONLDFilterRule φ} (ht : r.type = .string) {data : Item φ}
    (hv : isNone (getNested data r.field) = true) : evaluateRule env r data = some false := by
  rw [evaluateRule, ht]
  show (if _ then _ else _) = _
  rw [if_pos hv]

theorem holds_string {r : JSONLDFilterRule φ} (ht : r.type = .string) (data : Item φ) :
    holds env r data = (!isNone (getNested data r.field) &&
      holdsString env r.compareMode r.value (env.str (getNested data r.field))) := by
  rw [holds, ht]

/-- The rule for texts that is left, with the value `v`, does what `r` asks when it does so for
each text it can be given. -/
theorem evaluate_eq_holds {r : JSONLDFilterRule φ} (ht : r.type = .string) (v : RuleValue φ)
    (h : ∀ text, evaluateString env r.compareMode v (env.lower text) =
      some (holdsString env r.compareMode r.value text)) (data : Item φ) :
    evaluateRule env { r with value := v } data = some (holds env r data) := by
  rw [holds_string env ht]
  cases hv : isNone (getNested data r.field) with
  | true =>
    rw [evaluateRule_none env (r := { r with value := v }) ht hv]
    rfl
  | false =>
    rw [evaluateRule_string env (r := { r with value := v }) ht hv, Bool.not_false, Bool.true_and]
    exact h _

/-- What such a rule does with a text at its path. -/
theorem evaluateString_of_right {r : JSONLDFilterRule φ} (ht : r.type = .string) {v : RuleValue φ}
    (h : ∀ data, evaluateRule env { r with value := v } data = some (holds env r data))
    (text : PyStr) :
    evaluateString env r.compareMode v (env.lower text) =
      some (holdsString env r.compareMode r.value text) := by
  obtain ⟨data, hdata⟩ : ∃ data : Item φ, getNested data r.field = .atom (.str text) :=
    exists_getNested r.field (.atom (.str text))
  have hnone : isNone (getNested data r.field) = false := by
    rw [hdata]
    rfl
  have hr := h data
  rw [evaluateRule_string env (r := { r with value := v }) ht hnone, holds_string env ht, hnone,
    Bool.not_false, Bool.true_and] at hr
  have htext : env.str (getNested data r.field) = text := by
    rw [hdata]
    rfl
  rw [← htext]
  exact hr

/-- A rule that asks whether there is something at its path. -/
theorem evaluate_exists {r : JSONLDFilterRule φ} {s : PyStr} (hv : r.value = .str s)
    (hm : r.compareMode = .exists_) (ht : r.wellTyped = true) (data : Item φ) :
    evaluateRule env { r with value := .none } data = some (holds env r data) := by
  have htype : r.type = .string ∨ r.type = .boolean := by
    obtain ⟨field, type, mode, value⟩ := r
    cases hm
    cases type with
    | string => exact .inl rfl
    | boolean => exact .inr rfl
    | number => cases ht
  rcases htype with htype | htype
  · refine evaluate_eq_holds env htype _ (fun text => ?_) data
    rw [hm]
    rfl
  · rw [evaluateRule, holds, htype, hm]
    rfl

/-- A rule is right when it is plain. -/
theorem nodeRight_rule_iff (r : TypedRule φ) :
    NodeRight env (.rule r) ↔ PlainRule env r.rule := by
  constructor
  · rintro ⟨rule, hc, hall⟩
    obtain ⟨s, hv⟩ := value_of_construct env hc
    refine ⟨s, hv, ?_⟩
    rcases mode_of_str hv r.typed with hm | hm | hm | hm
    · exact .inl hm
    · exact .inr (.inl hm)
    · refine .inr (.inr ⟨hm, ?_⟩)
      intro text
      obtain ⟨ht, hc'⟩ := construct_text env hv (.inr hm) r.typed
      cases hc.symm.trans hc'
      have h := evaluateString_of_right env ht hall text
      rw [hm, hv] at h
      exact h
    · -- `equals` raises on any text, also on the empty one
      obtain ⟨ht, hc'⟩ := construct_equals env hv hm r.typed
      cases hc.symm.trans hc'
      have h := evaluateString_of_right env ht hall []
      rw [hm] at h
      cases h
  · rintro ⟨s, hv, hm | hm | ⟨hm, hsafe⟩⟩
    · exact ⟨_, construct_exists env hv hm r.typed, evaluate_exists env hv hm r.typed⟩
    · obtain ⟨ht, hc⟩ := construct_text env hv (.inl hm) r.typed
      refine ⟨_, hc, evaluate_eq_holds env ht _ fun text => ?_⟩
      rw [hm, hv]
      rfl
    · obtain ⟨ht, hc⟩ := construct_text env hv (.inr hm) r.typed
      refine ⟨_, hc, evaluate_eq_holds env ht _ fun text => ?_⟩
      rw [hm, hv]
      exact hsafe text

/-! ## A group -/

/-- The rule that a plain rule becomes. -/
def made (r : TypedRule φ) : JSONLDFilterRule φ :=
  match r.rule.construct env with
  | .ok rule => rule
  | .error _ => r.rule

theorem construct_made {r : TypedRule φ} (h : PlainRule env r.rule) :
    r.rule.construct env = .ok (made env r) := by
  obtain ⟨rule, hrule, -⟩ := (nodeRight_rule_iff env r).2 h
  rw [made, hrule]

theorem evaluate_made {r : TypedRule φ} (h : PlainRule env r.rule) (data : Item φ) :
    evaluateRule env (made env r) data = some (holds env r.rule data) := by
  obtain ⟨rule, hrule, hall⟩ := (nodeRight_rule_iff env r).2 h
  rw [made, hrule]
  exact hall data

/-- Plain rules are constructed, at any depth. -/
theorem constructRules_ok {op : Connective} {cs : List (AndOr (TypedRule φ))}
    (h : ∀ r, AndOr.Node (.rule r) (.group op cs) → PlainRule env r.rule) :
    constructRules env cs = .ok (AndOr.mapList (made env) cs) := by
  have hmap := AndOr.mapM_eq_ok (f := fun r => r.rule.construct env) (g := made env)
    (t := .group op cs) fun r hr => construct_made env (h r hr)
  obtain ⟨bs, hbs, hlist⟩ := AndOr.mapM_group_ok hmap
  cases hbs
  exact hlist

/-- A group within a group raises, and the outer one is false. -/
theorem results_of_group {rules : List (AndOr (JSONLDFilterRule φ))}
    (h : ∃ b ∈ rules, ¬ b.IsRule) (data : Item φ) : results env rules data = none := by
  induction rules with
  | nil =>
    obtain ⟨b, hb, -⟩ := h
    cases hb
  | cons rule rules ih =>
    obtain ⟨b, hb, hg⟩ := h
    rw [results]
    rcases List.mem_cons.1 hb with rfl | hb
    · cases b with
      | rule r => exact absurd trivial hg
      | group op cs =>
        rw [result]
        rfl
    · rw [ih ⟨b, hb, hg⟩]
      cases result env rule data with
      | none => rfl
      | some b => rfl

theorem matchOne_of_group {op : Connective} {rules : List (AndOr (JSONLDFilterRule φ))}
    (h : ∃ b ∈ rules, ¬ b.IsRule) (data : Item φ) : matchOne env op rules data = false := by
  rw [matchOne, results_of_group env h]
  rfl

/-- The results of plain rules, where no group is nested. -/
theorem results_of_rules {cs : List (AndOr (TypedRule φ))} (hcs : ∀ c ∈ cs, c.IsRule)
    (h : ∀ r, .rule r ∈ cs → PlainRule env r.rule) (data : Item φ) :
    results env (AndOr.mapList (made env) cs) data =
      some (cs.map (AndOr.eval fun r => holds env r.rule data)) := by
  induction cs with
  | nil => rfl
  | cons c cs ih =>
    have hrest := ih (fun c' hc' => hcs c' (List.mem_cons_of_mem c hc'))
      fun r hr => h r (List.mem_cons_of_mem c hr)
    have hc := hcs c List.mem_cons_self
    cases c with
    | group op cs' => exact hc.elim
    | rule r =>
      have hr := evaluate_made env (h r List.mem_cons_self) data
      rw [AndOr.mapList, AndOr.map, results, result, hr, hrest]
      rfl

theorem matchOne_of_rules {op : Connective} {cs : List (AndOr (TypedRule φ))}
    (hcs : ∀ c ∈ cs, c.IsRule) (h : ∀ r, .rule r ∈ cs → PlainRule env r.rule) (data : Item φ) :
    matchOne env op (AndOr.mapList (made env) cs) data = Satisfies env (.group op cs) data := by
  rw [matchOne, results_of_rules env hcs h, Satisfies, AndOr.eval_group]
  rfl

/-! ## The main result -/

/-- A group of plain rules is right unless it has a group in it that matters. -/
theorem nodeRight_group_iff {op : Connective} {cs : List (AndOr (TypedRule φ))}
    (h : ∀ r, AndOr.Node (.rule r) (.group op cs) → PlainRule env r.rule) :
    NodeRight env (.group op cs) ↔
      (∀ c ∈ cs, c.IsRule) ∨ ∀ data, Satisfies env (.group op cs) data = false := by
  have hbuilt := constructRules_ok env h
  by_cases hcs : ∀ c ∈ cs, c.IsRule
  · refine iff_of_true ⟨_, hbuilt, matchOne_of_rules env hcs ?_⟩ (.inl hcs)
    intro r hr
    exact h r (.child hr (.self _))
  · -- what is built has a group in it as well, and so never matches
    have hgroup : ∃ c ∈ cs, ¬ c.IsRule := by
      simpa using hcs
    have hfalse : ∀ data, matchOne env op (AndOr.mapList (made env) cs) data = false :=
      matchOne_of_group env (AndOr.exists_group_of_mapMList hbuilt hgroup)
    constructor
    · rintro ⟨built, hb, hall⟩
      cases hb.symm.trans hbuilt
      refine .inr fun data => ?_
      rw [← hall data, hfalse data]
    · rintro (hrules | hnone)
      · exact absurd hrules hcs
      · refine ⟨_, hbuilt, fun data => ?_⟩
        rw [hfalse data, hnone data]

/-- Every part of a tree is right when the tree is plain. -/
theorem nodes_right_iff (op : Connective) (cs : List (AndOr (TypedRule φ))) :
    (∀ n, AndOr.Node n (.group op cs) → NodeRight env n) ↔ Plain env op cs := by
  constructor
  · intro h
    have hplain : ∀ r, AndOr.Node (.rule r) (.group op cs) → PlainRule env r.rule := by
      intro r hr
      exact (nodeRight_rule_iff env r).1 (h _ hr)
    refine ⟨hplain, fun op' cs' hn => (nodeRight_group_iff env ?_).1 (h _ hn)⟩
    intro r hr
    exact hplain r (hr.trans hn)
  · intro h n hn
    cases n with
    | rule r => exact (nodeRight_rule_iff env r).2 (h.plain r hn)
    | group op' cs' =>
      refine (nodeRight_group_iff env ?_).2 (h.flat op' cs' hn)
      intro r hr
      exact h.plain r (hr.trans hn)

/-- A filter is read as it was given exactly when it is plain. -/
theorem filterRight_iff (operator : Connective) (rules : List (AndOr (TypedRule φ))) :
    FilterRight env operator rules ↔ Plain env operator rules := by
  rw [← nodes_right_iff]
  constructor
  · rintro ⟨-, h⟩
    exact h
  · intro h
    refine ⟨?_, h⟩
    obtain ⟨built, hbuilt, hall⟩ := h _ (.self _)
    refine ⟨built, hbuilt, fun items => ?_⟩
    have hmatch : matchItems env operator built (.items items) =
        some ((items.take 5).any (Satisfies env (.group operator rules))) := by
      have hone : matchOne env operator built = Satisfies env (.group operator rules) := by
        funext data
        exact hall data
      rw [matchItems, hone]
      rfl
    rw [hmatch, Option.some.injEq, List.any_eq_true]

/-- An interpreter for the example below, for texts of ASCII letters. -/
def asciiEnv : FilterEnv ℤ where
  lower s := s.map fun c => if 65 ≤ c ∧ c ≤ 90 then c + 32 else c
  repr _ := []
  truth v := !isNone v
  float
    | .atom (.int n) => some n
    | .atom (.float x) => some x
    | _ => none
  lt x y := decide (x < y)
  le x y := decide (x ≤ y)
  eq x y := decide (x = y)
  search _ p text := some (decide (p <:+: text))

/-- The rule that there is a title. -/
def hasTitle : TypedRule ℤ where
  rule := ⟨pyText "title", .string, .exists_, .str []⟩
  typed := rfl

/-- A page with a title does not match a group with that rule in another group. -/
theorem nested_group_never_matches :
    ¬ FilterRight asciiEnv .and [.group .or [.rule hasTitle]] := by
  rintro ⟨⟨built, hbuilt, hall⟩, -⟩
  cases hbuilt
  have hmatch := (hall [[(pyText "title", .atom (.str (pyText "Bonjour")))]]).2
    ⟨_, List.mem_cons_self, rfl⟩
  cases hmatch

end JsonLd

end Notifyr
