import Mathlib.Data.Finset.Dedup
import Mathlib.Data.Finset.Erase
import Notifyr.Auth.Models
import Notifyr.Runtime.Python
import Notifyr.Theory.Grants

/-!
# The roles of a route

`UseRoles` of `app/definition/_ressource.py`, applied to a route or, through
`common_class_decorator`, to each mounted route of a class. The roles of a route are those that
may call it, its excludes those that may not, and its options are called with the permission of
the caller.

- `useRoles`: the decorator on a route; `useRolesOnClass`: on a class.
- `applyAll`: a sequence of applications on the routes that `HTTPRoute` set up.
- `RolesRight`: no role is both given and excluded, the order of the applications is of no
  consequence, and an application on the class is one on each of its routes.
- `rolesRight_iff`: when that is so.

Three things stand against it. Roles given later stay in the excludes of an earlier application;
on a class only the roles are passed on, its excludes and options are dropped; and a class
without a mounted route has no entry in `ROUTES`.
-/

namespace Notifyr

open Theory

namespace UseRoles

variable {ω : Type}

/-- What the metadata of a route says of roles; `ω` is the type of the options. `HTTPRoute`
sets the defaults. -/
@[ext] structure RouteMeta (ω : Type) where
  roles : Finset Role := {.PUBLIC}
  excludes : Finset Role := ∅
  options : List ω := []
  defaultRole : Bool := true
  deriving DecidableEq

/-- The arguments of `UseRoles`. -/
structure RolesArgs (ω : Type) where
  roles : List Role := []
  excludes : List Role := []
  options : List ω := []

/-- `UseRoles` on a function that has metadata. -/
def useRoles (a : RolesArgs ω) (m : RouteMeta ω) : RouteMeta ω :=
  let roles_ := a.roles.toFinset
  let excludes_ := a.excludes.toFinset \ roles_
  -- `CUSTOM` is not given, but its exclusion was taken away above
  let roles_ := roles_.erase .CUSTOM
  -- the role `PUBLIC` that a route starts with goes with the first application
  let before := if m.defaultRole then ∅ else m.roles
  let roles := before ∪ roles_
  { roles
    excludes := m.excludes ∪ (excludes_ \ roles)
    options := m.options ++ a.options
    defaultRole := false }

/-- The mounted routes of a class, by the names of their endpoints. -/
abbrev Routes (ω : Type) := List (String × RouteMeta ω)

/-- `UseRoles` on the endpoint `name`. -/
def useRolesOn (name : String) (a : RolesArgs ω) (routes : Routes ω) : Routes ω :=
  routes.map fun r => if r.1 = name then (r.1, useRoles a r.2) else r

/-- `UseRoles` on a class: `common_class_decorator` looks up `ROUTES`, where a class without a
mounted route is missing, and applies `UseRoles(roles=roles)` to each route. -/
def useRolesOnClass (a : RolesArgs ω) (routes : Routes ω) : Py (Routes ω) :=
  if routes = [] then .error .keyError
  else .ok (routes.map fun r => (r.1, useRoles { roles := a.roles } r.2))

/-- One application. -/
inductive Application (ω : Type)
  | route (name : String) (a : RolesArgs ω)
  | cls (a : RolesArgs ω)

def Application.apply : Application ω → Routes ω → Py (Routes ω)
  | .route name a, routes => .ok (useRolesOn name a routes)
  | .cls a, routes => useRolesOnClass a routes

/-- The routes as `HTTPRoute` leaves them. -/
def fresh (names : List String) : Routes ω :=
  names.map fun name => (name, {})

/-- The applications `run`, one after the other, on the routes `names`. -/
def applyAll (names : List String) (run : List (Application ω)) : Py (Routes ω) :=
  run.foldlM (fun routes app => app.apply routes) (fresh names)

/-! ## What is asked of a sequence of applications -/

/-- `UseRoles` with the arguments `a` on each route, one by one. -/
def useRolesOnEach (a : RolesArgs ω) (routes : Routes ω) : Routes ω :=
  routes.map fun r => (r.1, useRoles a r.2)

/-- The roles and excludes of each route. -/
def rolesAndExcludes (routes : Routes ω) : List (String × Finset Role × Finset Role) :=
  routes.map fun r => (r.1, r.2.roles, r.2.excludes)

/-- Each application on the class does what one on each route would do. -/
def ClassAsEach (names : List String) (run : List (Application ω)) : Prop :=
  ∀ before a after, run = before ++ .cls a :: after → ∃ routes,
    applyAll names before = .ok routes ∧
      useRolesOnClass a routes = .ok (useRolesOnEach a routes)

/-- The applications come to their end, roles and excludes stay apart, every order gives the
same of both, and an application on the class is one on each of its routes. -/
def RolesRight (names : List String) (run : List (Application ω)) : Prop :=
  ∃ routes, applyAll names run = .ok routes ∧
    (∀ r ∈ routes, Disjoint r.2.roles r.2.excludes) ∧
    (∀ run', run'.Perm run → ∃ routes', applyAll names run' = .ok routes' ∧
      rolesAndExcludes routes' = rolesAndExcludes routes) ∧
    ClassAsEach names run

/-! ## The condition -/

/-- The arguments that reach the endpoint `name`. -/
def argsFor (name : String) : Application ω → Option (RolesArgs ω)
  | .route n a => if n = name then some a else none
  | .cls a => some { roles := a.roles }

/-- An application with the arguments `a` gives the role `x`. -/
def RolesArgs.Gives (a : RolesArgs ω) (x : Role) : Prop := x ∈ a.roles ∧ x ≠ .CUSTOM

/-- An application with the arguments `a` excludes the role `x`. -/
def RolesArgs.Excludes (a : RolesArgs ω) (x : Role) : Prop := x ∈ a.excludes ∧ x ∉ a.roles

/-- What reaches a route does not both give and exclude a role, and an application on the class
has no options and excludes only what the applications before it name for each route. -/
structure Consistent (names : List String) (run : List (Application ω)) : Prop where
  mounted : ∀ a, .cls a ∈ run → names ≠ []
  agree : ∀ name ∈ names, ∀ a ∈ run.filterMap (argsFor name), ∀ b ∈ run.filterMap (argsFor name),
    ∀ x, a.Gives x → ¬ b.Excludes x
  passedOn : ∀ before a after, run = before ++ .cls a :: after → a.options = [] ∧
    ∀ name ∈ names, ∀ x, a.Excludes x →
      ∃ b ∈ before.filterMap (argsFor name), b.Gives x ∨ b.Excludes x

/-! ## One route -/

/-- An application as an entry that gives some roles and takes some. -/
def RolesArgs.entry (a : RolesArgs ω) : Grants.Entry Role where
  gives := a.roles.toFinset.erase .CUSTOM
  takes := a.excludes.toFinset \ a.roles.toFinset
  disjoint := by
    rw [Finset.disjoint_left]
    intro x hx hx'
    exact (Finset.mem_sdiff.1 hx').2 (Finset.mem_of_mem_erase hx)

@[simp] theorem mem_gives (a : RolesArgs ω) (x : Role) : x ∈ a.entry.gives ↔ a.Gives x := by
  simp [RolesArgs.entry, RolesArgs.Gives, and_comm]

@[simp] theorem mem_takes (a : RolesArgs ω) (x : Role) : x ∈ a.entry.takes ↔ a.Excludes x := by
  simp [RolesArgs.entry, RolesArgs.Excludes]

/-- The roles that were given and those that are excluded. -/
def RouteMeta.tally (m : RouteMeta ω) : Grants.Tally Role :=
  ⟨if m.defaultRole then ∅ else m.roles, m.excludes⟩

theorem tally_useRoles (a : RolesArgs ω) (m : RouteMeta ω) :
    (useRoles a m).tally = m.tally.add a.entry := rfl

/-- An application excludes what its arguments exclude and was not given before. -/
theorem mem_excludes_useRoles (a : RolesArgs ω) (m : RouteMeta ω) (x : Role) :
    x ∈ (useRoles a m).excludes ↔ x ∈ m.excludes ∨ a.Excludes x ∧ x ∉ m.tally.given := by
  have hroles : a.Excludes x → x ∉ a.entry.gives := by
    intro hx hg
    exact hx.2 ((mem_gives a x).1 hg).1
  show x ∈ m.excludes ∪ (a.entry.takes \ (m.tally.given ∪ a.entry.gives)) ↔ _
  rw [Finset.mem_union, Finset.mem_sdiff, Finset.mem_union, mem_takes, not_or]
  constructor
  · rintro (h | ⟨hx, hg, -⟩)
    · exact .inl h
    · exact .inr ⟨hx, hg⟩
  · rintro (h | ⟨hx, hg⟩)
    · exact .inl h
    · exact .inr ⟨hx, hg, hroles hx⟩

/-- The metadata of a route after the applications `l` on it. -/
def metaAfter (l : List (RolesArgs ω)) : RouteMeta ω :=
  l.foldl (fun m a => useRoles a m) {}

theorem metaAfter_concat (l : List (RolesArgs ω)) (a : RolesArgs ω) :
    metaAfter (l ++ [a]) = useRoles a (metaAfter l) := by
  rw [metaAfter, List.foldl_concat]
  rfl

theorem tally_metaAfter (l : List (RolesArgs ω)) :
    (metaAfter l).tally = Grants.tally (l.map RolesArgs.entry) := by
  induction l using List.reverseRecOn with
  | nil => rfl
  | append_singleton l a ih =>
    rw [metaAfter_concat, tally_useRoles, ih, List.map_append, Grants.tally, Grants.tally,
      List.map_singleton, List.foldl_concat]

theorem excludes_metaAfter (l : List (RolesArgs ω)) :
    (metaAfter l).excludes = (Grants.tally (l.map RolesArgs.entry)).taken := by
  rw [← tally_metaAfter]
  rfl

/-- A route starts with the role `PUBLIC`; from the first application on it has the roles that
were given. -/
theorem roles_metaAfter (l : List (RolesArgs ω)) :
    (metaAfter l).roles =
      if l = [] then {.PUBLIC} else (Grants.tally (l.map RolesArgs.entry)).given := by
  rcases List.eq_nil_or_concat l with rfl | ⟨l, a, rfl⟩
  · rfl
  · rw [if_neg (by simp), ← tally_metaAfter, List.concat_eq_append, metaAfter_concat]
    rfl

/-- Two applications disagree about a role as their entries do. -/
theorem clash_iff (l : List (RolesArgs ω)) (x : Role) :
    Grants.Clash (l.map RolesArgs.entry) x ↔ ∃ a ∈ l, a.Gives x ∧ ∃ b ∈ l, b.Excludes x := by
  simp only [Grants.Clash, List.mem_map, exists_exists_and_eq_and, mem_gives, mem_takes]
  constructor
  · rintro ⟨⟨a, ha, hg⟩, b, hb, he⟩
    exact ⟨a, ha, hg, b, hb, he⟩
  · rintro ⟨a, ha, hg, b, hb, he⟩
    exact ⟨⟨a, ha, hg⟩, b, hb, he⟩

/-- What the applications on a route name is given or excluded. -/
theorem named_iff (l : List (RolesArgs ω)) (x : Role) :
    (∃ b ∈ l, b.Gives x ∨ b.Excludes x) ↔
      x ∈ (metaAfter l).tally.given ∨ x ∈ (metaAfter l).excludes := by
  rw [excludes_metaAfter, tally_metaAfter, Grants.mem_given_or_taken]
  simp

/-- On one route, the roles alone do what all of the arguments do when there are no options and
all that is excluded was named before. -/
theorem useRoles_roles_eq_iff (a : RolesArgs ω) (l : List (RolesArgs ω)) :
    useRoles { roles := a.roles } (metaAfter l) = useRoles a (metaAfter l) ↔
      a.options = [] ∧ ∀ x, a.Excludes x → ∃ b ∈ l, b.Gives x ∨ b.Excludes x := by
  have hnone : ∀ x, ¬ ({ roles := a.roles } : RolesArgs ω).Excludes x := by
    intro x hx
    cases hx.1
  have hopt : (useRoles { roles := a.roles } (metaAfter l)).options =
      (useRoles a (metaAfter l)).options ↔ a.options = [] := by
    show (metaAfter l).options ++ [] = (metaAfter l).options ++ a.options ↔ _
    rw [List.append_cancel_left_eq, eq_comm]
  have hexcl : (useRoles { roles := a.roles } (metaAfter l)).excludes =
      (useRoles a (metaAfter l)).excludes ↔
        ∀ x, a.Excludes x → ∃ b ∈ l, b.Gives x ∨ b.Excludes x := by
    rw [Finset.ext_iff]
    refine forall_congr' fun x => ?_
    rw [mem_excludes_useRoles, mem_excludes_useRoles, named_iff]
    have := hnone x
    tauto
  rw [RouteMeta.ext_iff, hexcl, hopt]
  constructor
  · rintro ⟨-, he, ho, -⟩
    exact ⟨ho, he⟩
  · rintro ⟨ho, he⟩
    exact ⟨rfl, he, ho, rfl⟩

/-! ## All routes -/

/-- The routes after the applications `run`, each from those that reach it. -/
def routesAfter (names : List String) (run : List (Application ω)) : Routes ω :=
  names.map fun name => (name, metaAfter (run.filterMap (argsFor name)))

theorem routesAfter_eq_nil_iff (names : List String) (run : List (Application ω)) :
    routesAfter names run = [] ↔ names = [] :=
  List.map_eq_nil_iff

theorem useRolesOn_routesAfter (names : List String) (run : List (Application ω)) (n : String)
    (a : RolesArgs ω) :
    useRolesOn n a (routesAfter names run) = routesAfter names (run ++ [.route n a]) := by
  rw [useRolesOn, routesAfter, List.map_map, routesAfter]
  refine List.map_congr_left fun name _ => ?_
  rw [List.filterMap_append]
  by_cases hn : name = n
  · subst hn
    have happ : [Application.route name a].filterMap (argsFor name) = [a] := by
      simp [argsFor]
    rw [happ, metaAfter_concat, Function.comp_apply, if_pos rfl]
  · have happ : [Application.route n a].filterMap (argsFor name) = [] := by
      simp [argsFor, Ne.symm hn]
    rw [happ, List.append_nil, Function.comp_apply, if_neg hn]

theorem useRolesOnEach_routesAfter (names : List String) (run : List (Application ω))
    (a : RolesArgs ω) :
    useRolesOnEach { roles := a.roles } (routesAfter names run) =
      routesAfter names (run ++ [.cls a]) := by
  rw [useRolesOnEach, routesAfter, List.map_map, routesAfter]
  refine List.map_congr_left fun name _ => ?_
  have happ : [Application.cls a].filterMap (argsFor name) = [{ roles := a.roles }] := rfl
  rw [List.filterMap_append, happ, metaAfter_concat]
  rfl

theorem useRolesOnClass_eq_ok_iff {a : RolesArgs ω} {routes routes' : Routes ω} :
    useRolesOnClass a routes = .ok routes' ↔
      routes ≠ [] ∧ routes' = useRolesOnEach { roles := a.roles } routes := by
  unfold useRolesOnClass
  split
  · rename_i h
    constructor
    · intro h'
      cases h'
    · intro h'
      exact absurd h h'.1
  · rename_i h
    constructor
    · intro h'
      cases h'
      exact ⟨h, rfl⟩
    · rintro ⟨-, rfl⟩
      rfl

theorem applyAll_concat (names : List String) (run : List (Application ω))
    (app : Application ω) :
    applyAll names (run ++ [app]) = applyAll names run >>= app.apply := by
  rw [applyAll, List.foldlM_append]
  exact bind_congr fun routes => bind_pure _

/-- A sequence of applications ends well unless the class has no mounted route, and then each
route is as the applications that reach it leave it. -/
theorem applyAll_eq_ok_iff {names : List String} {run : List (Application ω)}
    {routes : Routes ω} :
    applyAll names run = .ok routes ↔
      (∀ a, .cls a ∈ run → names ≠ []) ∧ routes = routesAfter names run := by
  -- by the last application, on what the ones before it leave of each route
  induction run using List.reverseRecOn generalizing routes with
  | nil =>
    show Except.ok (fresh names) = .ok routes ↔ _
    rw [Except.ok.injEq, eq_comm]
    exact ⟨fun h => ⟨fun _ ha => absurd ha List.not_mem_nil, h⟩, fun h => h.2⟩
  | append_singleton run app ih =>
    rw [applyAll_concat, bind_ok_iff]
    simp only [ih, List.mem_append, List.mem_singleton]
    constructor
    · rintro ⟨_, ⟨hmount, rfl⟩, happ⟩
      cases app with
      | route n a =>
        cases happ
        refine ⟨?_, useRolesOn_routesAfter names run n a⟩
        rintro b (hb | hb)
        · exact hmount b hb
        · cases hb
      | cls a =>
        obtain ⟨hne, rfl⟩ := useRolesOnClass_eq_ok_iff.1 happ
        rw [Ne, routesAfter_eq_nil_iff] at hne
        exact ⟨fun _ _ => hne, useRolesOnEach_routesAfter names run a⟩
    · rintro ⟨hmount, rfl⟩
      refine ⟨_, ⟨fun b hb => hmount b (.inl hb), rfl⟩, ?_⟩
      cases app with
      | route n a => exact congrArg _ (useRolesOn_routesAfter names run n a)
      | cls a =>
        refine useRolesOnClass_eq_ok_iff.2 ⟨?_, (useRolesOnEach_routesAfter names run a).symm⟩
        rw [Ne, routesAfter_eq_nil_iff]
        exact hmount a (.inr rfl)

/-! ## The parts of the condition -/

/-- An application on the class is one on each route when its arguments pass on all they say. -/
theorem useRolesOnEach_eq_iff (names : List String) (before : List (Application ω))
    (a : RolesArgs ω) :
    useRolesOnEach { roles := a.roles } (routesAfter names before) =
        useRolesOnEach a (routesAfter names before) ↔
      ∀ name ∈ names, a.options = [] ∧
        ∀ x, a.Excludes x → ∃ b ∈ before.filterMap (argsFor name), b.Gives x ∨ b.Excludes x := by
  simp only [useRolesOnEach, routesAfter, List.map_map, ← useRoles_roles_eq_iff]
  rw [List.map_inj_left]
  refine forall₂_congr fun name _ => ?_
  exact ⟨fun h => congrArg Prod.snd h, fun h => congrArg (Prod.mk name) h⟩

theorem classAsEach_iff (names : List String) (run : List (Application ω))
    (hmount : ∀ a, .cls a ∈ run → names ≠ []) :
    ClassAsEach names run ↔
      ∀ before a after, run = before ++ .cls a :: after → a.options = [] ∧
        ∀ name ∈ names, ∀ x, a.Excludes x →
          ∃ b ∈ before.filterMap (argsFor name), b.Gives x ∨ b.Excludes x := by
  refine forall₄_congr fun before a after hrun => ?_
  have hne : names ≠ [] := hmount a (by simp [hrun])
  have hbefore : ∀ b, .cls b ∈ before → names ≠ [] := fun _ _ => hne
  have hstep : (∃ routes, applyAll names before = .ok routes ∧
      useRolesOnClass a routes = .ok (useRolesOnEach a routes)) ↔
        useRolesOnEach { roles := a.roles } (routesAfter names before) =
          useRolesOnEach a (routesAfter names before) := by
    constructor
    · rintro ⟨routes, hroutes, hcls⟩
      obtain ⟨-, rfl⟩ := applyAll_eq_ok_iff.1 hroutes
      exact (useRolesOnClass_eq_ok_iff.1 hcls).2.symm
    · intro h
      refine ⟨_, applyAll_eq_ok_iff.2 ⟨hbefore, rfl⟩, useRolesOnClass_eq_ok_iff.2 ⟨?_, h.symm⟩⟩
      rwa [Ne, routesAfter_eq_nil_iff]
  rw [hstep, useRolesOnEach_eq_iff]
  -- the options are asked for once in the condition, and there is a route to read them at
  obtain ⟨name, names', rfl⟩ := List.exists_cons_of_ne_nil hne
  constructor
  · intro h
    exact ⟨(h name List.mem_cons_self).1, fun n hn => (h n hn).2⟩
  · rintro ⟨ho, h⟩ n hn
    exact ⟨ho, h n hn⟩

/-- No two applications that reach a route disagree about a role. -/
theorem not_clash_of_agree {names : List String} {run : List (Application ω)}
    (h : Consistent names run) {name : String} (hn : name ∈ names) (x : Role) :
    ¬ Grants.Clash ((run.filterMap (argsFor name)).map RolesArgs.entry) x := by
  rw [clash_iff]
  rintro ⟨a, ha, hg, b, hb, he⟩
  exact h.agree name hn a ha b hb x hg he

/-- In agreement, roles and excludes of a route stay apart. -/
theorem disjoint_metaAfter {l : List (RolesArgs ω)}
    (h : ∀ x, ¬ Grants.Clash (l.map RolesArgs.entry) x) :
    Disjoint (metaAfter l).roles (metaAfter l).excludes := by
  rw [roles_metaAfter, excludes_metaAfter]
  split
  · rename_i hl
    subst hl
    exact Finset.disjoint_empty_right _
  · exact Grants.disjoint_tally h

/-- In agreement, every order of what reaches a route gives the same roles and excludes. -/
theorem metaAfter_perm {l l' : List (RolesArgs ω)} (hp : l'.Perm l)
    (h : ∀ x, ¬ Grants.Clash (l.map RolesArgs.entry) x) :
    (metaAfter l').roles = (metaAfter l).roles ∧
      (metaAfter l').excludes = (metaAfter l).excludes := by
  have ht := Grants.tally_perm (hp.map RolesArgs.entry) h
  have hnil : l' = [] ↔ l = [] := by
    constructor
    · rintro rfl
      exact hp.nil_eq.symm
    · rintro rfl
      exact hp.eq_nil
  simp only [roles_metaAfter, excludes_metaAfter, ht, hnil, and_self]

theorem rolesAndExcludes_eq_iff (names : List String) (run run' : List (Application ω)) :
    rolesAndExcludes (routesAfter names run') = rolesAndExcludes (routesAfter names run) ↔
      ∀ name ∈ names,
        (metaAfter (run'.filterMap (argsFor name))).roles =
            (metaAfter (run.filterMap (argsFor name))).roles ∧
          (metaAfter (run'.filterMap (argsFor name))).excludes =
            (metaAfter (run.filterMap (argsFor name))).excludes := by
  simp only [rolesAndExcludes, routesAfter, List.map_map]
  rw [List.map_inj_left]
  refine forall₂_congr fun name _ => ?_
  simp only [Function.comp_apply, Prod.mk.injEq, true_and]

/-- Two applications that disagree about a role: with the one first the role is excluded, with
the other first it is not. -/
theorem agree_of_perm {names : List String} {run : List (Application ω)}
    (h : ∀ run', run'.Perm run →
      rolesAndExcludes (routesAfter names run') = rolesAndExcludes (routesAfter names run))
    {name : String} (hn : name ∈ names) {a b : RolesArgs ω}
    (ha : a ∈ run.filterMap (argsFor name)) (hb : b ∈ run.filterMap (argsFor name)) {x : Role}
    (hg : a.Gives x) : ¬ b.Excludes x := by
  intro he
  -- each of the two can come first, and no order may change what is excluded
  have hfirst : ∀ c ∈ run.filterMap (argsFor name), ∃ l,
      (metaAfter (c :: l)).excludes = (metaAfter (run.filterMap (argsFor name))).excludes := by
    intro c hc
    obtain ⟨app, happ, hargs⟩ := List.mem_filterMap.1 hc
    obtain ⟨before, after, hrun⟩ := List.append_of_mem happ
    have hp : (app :: (before ++ after)).Perm run := by
      rw [hrun]
      exact List.perm_middle.symm
    have := ((rolesAndExcludes_eq_iff names run _).1 (h _ hp) name hn).2
    rw [List.filterMap_cons_some hargs] at this
    exact ⟨_, this⟩
  obtain ⟨la, hla⟩ := hfirst a ha
  obtain ⟨lb, hlb⟩ := hfirst b hb
  have hin : x ∈ (metaAfter (b :: lb)).excludes := by
    rw [excludes_metaAfter, List.map_cons]
    exact Grants.mem_taken_cons _ ((mem_takes b x).2 he)
  have hout : x ∉ (metaAfter (a :: la)).excludes := by
    rw [excludes_metaAfter, List.map_cons]
    exact Grants.not_mem_taken_cons _ ((mem_gives a x).2 hg)
  rw [hla] at hout
  rw [hlb] at hin
  exact hout hin

/-! ## The main result -/

/-- The metadata of the routes is right exactly for consistent applications. -/
theorem rolesRight_iff (names : List String) (run : List (Application ω)) :
    RolesRight names run ↔ Consistent names run := by
  constructor
  · rintro ⟨routes, hrun, -, hperm, hcls⟩
    obtain ⟨hmount, rfl⟩ := applyAll_eq_ok_iff.1 hrun
    refine ⟨hmount, ?_, (classAsEach_iff names run hmount).1 hcls⟩
    intro name hn a ha b hb x
    refine agree_of_perm (fun run' hp => ?_) hn ha hb
    obtain ⟨routes', hrun', heq⟩ := hperm run' hp
    obtain ⟨-, rfl⟩ := applyAll_eq_ok_iff.1 hrun'
    exact heq
  · intro h
    refine ⟨_, applyAll_eq_ok_iff.2 ⟨h.mounted, rfl⟩, ?_, ?_,
      (classAsEach_iff names run h.mounted).2 h.passedOn⟩
    · intro r hr
      obtain ⟨name, hn, rfl⟩ := List.mem_map.1 hr
      exact disjoint_metaAfter fun x => not_clash_of_agree h hn x
    · intro run' hp
      refine ⟨_, applyAll_eq_ok_iff.2 ⟨fun a ha => h.mounted a (hp.mem_iff.1 ha), rfl⟩, ?_⟩
      rw [rolesAndExcludes_eq_iff]
      intro name hn
      exact metaAfter_perm (hp.filterMap _) fun x => not_clash_of_agree h hn x

/-- A route that first excludes the role `ADMIN` and is then given it has it on both sides. -/
theorem given_after_excluded :
    ¬ RolesRight ["get"] [.route "get" { excludes := [.ADMIN] },
      .route "get" ({ roles := [.ADMIN] } : RolesArgs (Role → Bool))] := by
  rintro ⟨routes, hrun, hdisj, -⟩
  cases hrun
  have hboth := hdisj ("get", _) List.mem_cons_self
  exact absurd hboth (by decide)

end UseRoles

end Notifyr
