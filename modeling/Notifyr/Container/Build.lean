import Notifyr.Container.Load

/-!
# Building the container

The second phase of `Container` (`app/container.py`): `__buildContainer` instantiates and binds
the classes none of whose dependencies is left, until no class is left, or every class that is
left waits for another one. Instances are known by the names of their classes.

- `World`: what the constructors and the builds of the classes do.
- `createDep`, `Container.inject`, `Container.buildLoop`: the phase, with the events so far.
- `buildLoop_eq`: the loop injects the classes in the order in which `Theory.kahn` peels them.
- `injectAll_cases`: what happened when classes were injected in an order that respects their
  constructors.
- `build_spec`: the phase ends; dependencies come first, nothing is made twice, and what the
  phase ends with.
-/

namespace Notifyr

open Theory

/-- What has happened: a class was instantiated, with instances for the parameters of its
constructor, or its instance was bound. -/
inductive Event
  | instantiated (x : String) (params : List (String × String))
  | injected (x : String)
  deriving DecidableEq, Repr

/-- How a build can end other than well: the errors `_builder` knows, another exception, or one
that is not an `Exception`. -/
inductive BuildExc
  | failure
  | abort
  | ok
  | warning
  | skip
  | notImplemented
  | other (name : String)
  | baseException (name : String)
  deriving DecidableEq, Repr

/-- What the classes do, given what has happened before: what a constructor raises, and how
`verify_dependency` and `build` end. -/
structure World where
  construct : ServiceClass → List Event → Option String
  build : ServiceClass → List Event → Option BuildExc

/-- How the creation of an instance can end the building. -/
inductive CreationExc
  | raised (name : String)
  | attributeError
  | exit
  deriving DecidableEq, Repr

/-- How injecting a class can end the building; `unbound` is a class the injector has no instance
of and would have to make one. -/
inductive Halt
  | keyError
  | container (e : ContainerError)
  | unbound (x : String)
  | creation (e : CreationExc)
  deriving DecidableEq, Repr

/-- What the building ends with. -/
inductive BuildResult
  | done
  | circular
  | stopped (x : String) (halt : Halt)
  deriving DecidableEq, Repr

/-! ## The phase -/

/-- `get` of the class of a name, as `toParams` asks for it. -/
def Container.get (c : Container) (r : Registry) (events : List Event) (d : String) :
    Except Halt String :=
  match c.metadata.get? d with
  | none => .error (.container (.noResolvedDependencyError none))
  | some m =>
    if m.type.name ∈ r.abstractServiceClasses then .error (.container .invalidDependencyError)
    else if .injected m.type.name ∈ events then .ok m.type.name
    else .error (.unbound m.type.name)

/-- `toParams`. -/
def Container.toParams (c : Container) (r : Registry) (events : List Event)
    (dep paramNames : List String) : Except Halt (List (String × String)) :=
  (paramNames.zip dep).mapM fun (p, d) => do
    let obj ← c.get r events d
    return (p, obj)

/-- `_builder` of a service. -/
def builder (typ : ServiceClass) : Option BuildExc → Option CreationExc
  | some .abort => if typ.containerLifecycleScope then some .exit else none
  | some (.other _) => if typ.containerLifecycleScope then some .exit else none
  | some (.baseException e) => some (.raised e)
  | _ => none

/-- Whether the instance of a name is one of a service. -/
def Container.isService (c : Container) (x : String) : Bool :=
  (c.metadata.get? x).any fun m => m.type.isService

/-- `__createDep`. Only a service can be told that it is used. -/
def createDep (c : Container) (w : World) (typ : ServiceClass) (params : List (String × String))
    (events : List Event) : Option CreationExc × List Event :=
  match w.construct typ events with
  | some e => (some (.raised e), events)
  | none =>
    let events := events ++ [.instantiated typ.name params]
    if typ.isService then
      if params.all fun s => c.isService s.2 then (builder typ (w.build typ events), events)
      else (some .attributeError, events)
    else (none, events)

/-- `__inject`. Its first guard looks a class up among names, so it lets every class pass. -/
def Container.inject (c : Container) (r : Registry) (w : World) (x : String)
    (events : List Event) : Option Halt × List Event :=
  match c.metadata.get? x with
  | none => (some .keyError, events)
  | some m =>
    match c.toParams r events m.depParams m.paramNames with
    | .error e => (some e, events)
    | .ok params =>
      match createDep c w m.type params events with
      | (some e, events) => (some (.creation e), events)
      | (none, events) => (none, events ++ [.injected x])

/-- Injecting one class after the other, up to the one that ends the building. -/
def Container.injectAll (c : Container) (r : Registry) (w : World) :
    List String → List Event → Option (String × Halt) × List Event
  | [], events => (none, events)
  | x :: xs, events =>
    match c.inject r w x events with
    | (some e, events) => (some (x, e), events)
    | (none, events) => c.injectAll r w xs events

/-- `DEPENDENCY_MetaData[x][DEP_KEY]`. -/
def Container.dep (c : Container) (x : String) : List String :=
  (c.metadata.get? x).elim [] Metadata.dep

/-- The loop of `__buildContainer` over the names `D` that are left. -/
def Container.buildLoop (c : Container) (r : Registry) (w : World) (D : List String)
    (events : List Event) : BuildResult × List Event :=
  if D = [] then (.done, events)
  else if h : ready c.dep D = [] then (.circular, events)
  else
    have := length_unready_lt c.dep h
    match c.injectAll r w (ready c.dep D) events with
    | (some (x, e), events) => (.stopped x e, events)
    | (none, events) => c.buildLoop r w (unready c.dep D) events
termination_by D.length

/-- `__buildContainer`. -/
def Container.build (c : Container) (r : Registry) (w : World) : BuildResult × List Event :=
  c.buildLoop r w c.order []

/-! ## The order of the injections -/

theorem injectAll_append (c : Container) (r : Registry) (w : World) (xs ys : List String)
    (events : List Event) :
    c.injectAll r w (xs ++ ys) events =
      match c.injectAll r w xs events with
      | (some stop, events) => (some stop, events)
      | (none, events) => c.injectAll r w ys events := by
  induction xs generalizing events with
  | nil => rfl
  | cons x xs ih =>
    rw [List.cons_append, Container.injectAll, Container.injectAll]
    rcases c.inject r w x events with ⟨_ | e, events'⟩
    · exact ih events'
    · rfl

/-- **The loop is a topological sort.** It injects what `kahn` removes, in that order, and it
runs into a cycle if something is left. -/
theorem buildLoop_eq (c : Container) (r : Registry) (w : World) (D : List String)
    (events : List Event) :
    c.buildLoop r w D events =
      match c.injectAll r w (kahn c.dep D).1 events with
      | (some (x, e), events) => (.stopped x e, events)
      | (none, events) => (if (kahn c.dep D).2 = [] then .done else .circular, events) := by
  induction D using peel_induction c.dep generalizing events with
  | stop D h =>
    rw [Container.buildLoop, kahn_stop _ h, Container.injectAll]
    by_cases hD : D = []
    · rw [if_pos hD, if_pos hD]
    · rw [if_neg hD, dif_pos h, if_neg hD]
  | peel D h ih =>
    have hD : D ≠ [] := by
      rintro rfl
      exact h rfl
    rw [Container.buildLoop, if_neg hD, dif_neg h, kahn_peel _ h, injectAll_append]
    rcases c.injectAll r w (ready c.dep D) events with ⟨_ | ⟨x, e⟩, events'⟩
    · exact ih events'
    · rfl

/-! ## One injection -/

variable {r : Registry} {o : SetOrder} {D : List ServiceClass} {c : Container}

/-- The loop peels the relation on the registered classes. -/
theorem Loaded.dep_eq (hc : Loaded r D c) : c.dep = r.deps D := by
  funext x
  rw [Container.dep, hc.metadata, Registry.deps]
  cases classOf D x <;> rfl

theorem Loaded.classOf_isSome (hc : Loaded r D c) {x : String} (hx : x ∈ c.order) :
    ∃ s, classOf D x = some s :=
  Notifyr.classOf_isSome ((hc.mem_order x).mp hx)

/-- `get` finds an instance that is bound. -/
theorem get_of_injected (hc : Loaded r D c) {events : List Event} {d : String}
    (hd : d ∈ c.order) (hinjected : .injected d ∈ events) : c.get r events d = .ok d := by
  obtain ⟨s, hs⟩ := hc.classOf_isSome hd
  have hname : s.name = d := (classOf_some hs).2
  have hconcrete : s.name ∉ r.abstractServiceClasses := by
    rw [hname]
    exact hc.concrete d hd
  rw [Container.get, hc.metadata, hs]
  show (if s.name ∈ r.abstractServiceClasses then _
    else if .injected s.name ∈ events then .ok s.name else Except.error (Halt.unbound s.name)) =
      Except.ok d
  rw [if_neg hconcrete, hname, if_pos hinjected]

/-- The parameters of a constructor, once all of them are bound. -/
theorem toParams_of_injected (hc : Loaded r D c) {events : List Event} {s : ServiceClass}
    (hs : s ∈ D) (hinjected : ∀ a ∈ s.annotations, .injected a ∈ events) :
    c.toParams r events s.annotations s.paramNames = .ok s.params := by
  have hall : ∀ p ∈ s.params, c.get r events p.2 = .ok p.2 := by
    intro p hp
    have ha : p.2 ∈ s.annotations := List.mem_map_of_mem hp
    exact get_of_injected hc (hc.annotations s hs _ ha) (hinjected _ ha)
  rw [Container.toParams, ServiceClass.paramNames, ServiceClass.annotations, List.zip_map']
  generalize s.params = ps at hall
  induction ps with
  | nil => rfl
  | cons p ps ih =>
    rw [List.map_cons, List.mapM_cons, ih fun q hq => hall q (List.mem_cons_of_mem _ hq)]
    dsimp only
    rw [hall p List.mem_cons_self]
    rfl

/-- **One injection.** When what its constructor names is bound, a class is created with it, and
bound unless its creation ends the building. -/
theorem inject_eq (hc : Loaded r D c) (w : World) {x : String} {s : ServiceClass}
    (hs : classOf D x = some s) {events : List Event}
    (hinjected : ∀ a ∈ s.annotations, .injected a ∈ events) :
    c.inject r w x events =
      match createDep c w s s.params events with
      | (some e, events) => (some (.creation e), events)
      | (none, events) => (none, events ++ [.injected x]) := by
  rw [Container.inject, hc.metadata, hs]
  show (match c.toParams r events s.annotations s.paramNames with
    | .error e => (some e, events)
    | .ok params => _) = _
  rw [toParams_of_injected hc (classOf_some hs).1 hinjected]
  rfl

/-- A creation that does not end the building has instantiated the class. -/
theorem createDep_none {w : World} {s : ServiceClass} {params : List (String × String)}
    {events events' : List Event} (h : createDep c w s params events = (none, events')) :
    events' = events ++ [.instantiated s.name params] := by
  unfold createDep at h
  split at h
  · cases h
  · dsimp only at h
    split at h
    · split at h
      · exact (Prod.ext_iff.mp h).2.symm
      · cases h
    · exact (Prod.ext_iff.mp h).2.symm

/-- A creation that ends the building has instantiated the class, or not even that. -/
theorem createDep_some {w : World} {s : ServiceClass} {params : List (String × String)}
    {events events' : List Event} {e : CreationExc}
    (h : createDep c w s params events = (some e, events')) :
    events' = events ∨ events' = events ++ [.instantiated s.name params] := by
  unfold createDep at h
  split at h
  · exact .inl (Prod.ext_iff.mp h).2.symm
  · dsimp only at h
    split at h
    · split at h
      · exact .inr (Prod.ext_iff.mp h).2.symm
      · exact .inr (Prod.ext_iff.mp h).2.symm
    · cases h

/-! ## All injections -/

/-- The events of injecting the classes of these names. -/
def trail (D : List ServiceClass) (xs : List String) : List Event :=
  xs.flatMap fun x => (classOf D x).elim [] fun s => [.instantiated x s.params, .injected x]

@[simp] theorem trail_append (D : List ServiceClass) (xs ys : List String) :
    trail D (xs ++ ys) = trail D xs ++ trail D ys := List.flatMap_append

theorem trail_singleton {x : String} {s : ServiceClass} (hs : classOf D x = some s) :
    trail D [x] = [.instantiated x s.params, .injected x] := by
  rw [trail, List.flatMap_singleton, hs]
  rfl

/-- Before each class come those that its constructor names. -/
def Respects (D : List ServiceClass) (xs : List String) : Prop :=
  ∀ pre x post, xs = pre ++ x :: post → ∀ s, classOf D x = some s → ∀ a ∈ s.annotations, a ∈ pre

theorem Respects.of_append {xs ys : List String} (h : Respects D (xs ++ ys)) : Respects D xs := by
  intro pre x post hxs
  exact h pre x (post ++ ys) (by rw [hxs, List.append_assoc, List.cons_append])

theorem injected_mem_trail (hc : Loaded r D c) {xs : List String} (hxs : ∀ x ∈ xs, x ∈ c.order)
    {a : String} (ha : a ∈ xs) : .injected a ∈ trail D xs := by
  obtain ⟨s, hs⟩ := hc.classOf_isSome (hxs a ha)
  refine List.mem_flatMap.mpr ⟨a, ha, ?_⟩
  rw [hs]
  exact List.mem_cons_of_mem _ List.mem_cons_self

/-- **All injections.** In an order that respects the constructors every class is injected, or
the creation of one of them ends the building there. -/
theorem injectAll_cases (hc : Loaded r D c) (w : World) (xs bound : List String)
    (horder : ∀ x ∈ bound ++ xs, x ∈ c.order) (hrespects : Respects D (bound ++ xs)) :
    c.injectAll r w xs (trail D bound) = (none, trail D (bound ++ xs)) ∨
      ∃ made x left s e events, bound ++ xs = made ++ x :: left ∧ classOf D x = some s ∧
        c.injectAll r w xs (trail D bound) = (some (x, .creation e), events) ∧
        createDep c w s s.params (trail D made) = (some e, events) := by
  induction xs generalizing bound with
  | nil =>
    left
    rw [List.append_nil]
    rfl
  | cons x xs ih =>
    have hx : x ∈ c.order := horder x (List.mem_append_right _ List.mem_cons_self)
    obtain ⟨s, hs⟩ := hc.classOf_isSome hx
    have hinjected : ∀ a ∈ s.annotations, .injected a ∈ trail D bound := by
      intro a ha
      refine injected_mem_trail hc (fun y hy => horder y (List.mem_append_left _ hy)) ?_
      exact hrespects bound x xs rfl s hs a ha
    rw [Container.injectAll, inject_eq hc w hs hinjected]
    rcases hcreate : createDep c w s s.params (trail D bound) with ⟨_ | e, events⟩
    · -- the class is made and bound, and the rest goes on behind it
      have hevents : events ++ [.injected x] = trail D (bound ++ [x]) := by
        rw [createDep_none hcreate, (classOf_some hs).2, trail_append, trail_singleton hs,
          List.append_assoc]
        rfl
      have hsplit : bound ++ x :: xs = (bound ++ [x]) ++ xs := by simp
      rw [hsplit] at horder hrespects ⊢
      dsimp only
      rw [hevents]
      exact ih (bound ++ [x]) horder hrespects
    · exact .inr ⟨bound, x, xs, s, e, events, rfl, hs, rfl, hcreate⟩

/-! ## What building owes -/

/-- Whether a class is instantiated. -/
def Event.instantiates (x : String) : Event → Bool
  | .instantiated y _ => y = x
  | .injected _ => false

/-- A class is instantiated only after what its constructor names was injected. -/
def AfterDeps (D : List ServiceClass) (events : List Event) : Prop :=
  ∀ pre x params post, events = pre ++ .instantiated x params :: post →
    ∀ s, classOf D x = some s → ∀ a ∈ s.annotations, .injected a ∈ pre

/-- No class is instantiated or injected twice. -/
def AtMostOnce (events : List Event) : Prop :=
  ∀ x, events.countP (Event.instantiates x) ≤ 1 ∧ events.count (.injected x) ≤ 1

/-- Every registered class is instantiated and injected exactly once. -/
def ExactlyOnce (D : List ServiceClass) (events : List Event) : Prop :=
  ∀ x ∈ D.map ServiceClass.name,
    events.countP (Event.instantiates x) = 1 ∧ events.count (.injected x) = 1

/-- Building is sound if it makes every class once and in order, unless there is a cycle, which
is what it then reports. -/
structure BuildSound (r : Registry) (D : List ServiceClass) (result : BuildResult)
    (events : List Event) : Prop where
  acyclic : Acyclic (r.deps D) (D.map ServiceClass.name) →
    ExactlyOnce D events ∧ AfterDeps D events
  cyclic : ¬ Acyclic (r.deps D) (D.map ServiceClass.name) → result = .circular
  circular : result = .circular → ¬ Acyclic (r.deps D) (D.map ServiceClass.name)

/-- The building was stopped by the creation of a registered class. -/
def StoppedBy (c : Container) (w : World) (D : List ServiceClass) (x : String) (e : CreationExc)
    (events : List Event) : Prop :=
  ∃ s before, classOf D x = some s ∧ createDep c w s s.params before = (some e, events)

theorem AfterDeps.of_prefix {events events' : List Event} (h : AfterDeps D events')
    (hpre : events <+: events') : AfterDeps D events := by
  obtain ⟨rest, rfl⟩ := hpre
  intro pre x params post hevents
  exact h pre x params (post ++ rest) (by rw [hevents, List.append_assoc, List.cons_append])

theorem AtMostOnce.of_prefix {events events' : List Event} (h : AtMostOnce events')
    (hpre : events <+: events') : AtMostOnce events := by
  intro x
  exact ⟨(hpre.sublist.countP_le).trans (h x).1, (hpre.sublist.count_le _).trans (h x).2⟩

/-- An event at the end of a sequence that is in order. -/
theorem AfterDeps.concat {events : List Event} {e : Event} (h : AfterDeps D events)
    (he : ∀ x params, e = .instantiated x params → ∀ s, classOf D x = some s →
      ∀ a ∈ s.annotations, .injected a ∈ events) : AfterDeps D (events ++ [e]) := by
  intro pre x params post hevents
  rcases List.eq_nil_or_concat post with rfl | ⟨post', e', rfl⟩
  · obtain ⟨rfl, hlast⟩ := List.append_inj' hevents rfl
    exact he x params (List.cons.inj hlast).1
  · rw [List.concat_eq_append, ← List.cons_append, ← List.append_assoc] at hevents
    exact h pre x params post' (List.append_inj' hevents rfl).1

theorem afterDeps_trail (hc : Loaded r D c) {xs : List String} (hxs : ∀ x ∈ xs, x ∈ c.order)
    (hrespects : Respects D xs) : AfterDeps D (trail D xs) := by
  induction xs using List.reverseRecOn with
  | nil =>
    intro pre x params post h
    exact absurd h.symm (by simp [trail])
  | append_singleton xs x ih =>
    have hinit : ∀ y ∈ xs, y ∈ c.order := fun y hy => hxs y (List.mem_append_left _ hy)
    obtain ⟨s, hs⟩ := hc.classOf_isSome (hxs x (List.mem_append_right _ List.mem_cons_self))
    have hmade : AfterDeps D (trail D xs ++ [.instantiated x s.params]) := by
      refine (ih hinit hrespects.of_append).concat ?_
      intro y params hy t ht a ha
      obtain ⟨rfl, -⟩ := Event.instantiated.inj hy
      exact injected_mem_trail hc hinit (hrespects xs x [] rfl t ht a ha)
    rw [trail_append, trail_singleton hs]
    show AfterDeps D (trail D xs ++ ([.instantiated x s.params] ++ [.injected x]))
    rw [← List.append_assoc]
    exact hmade.concat fun y params hy => by cases hy

/-- A class is made as often as its name is listed. -/
theorem count_trail (hc : Loaded r D c) {xs : List String} (hxs : ∀ x ∈ xs, x ∈ c.order)
    (x : String) :
    (trail D xs).countP (Event.instantiates x) = xs.count x ∧
      (trail D xs).count (.injected x) = xs.count x := by
  induction xs with
  | nil => exact ⟨rfl, rfl⟩
  | cons y xs ih =>
    obtain ⟨s, hs⟩ := hc.classOf_isSome (hxs y List.mem_cons_self)
    obtain ⟨ih₁, ih₂⟩ := ih fun z hz => hxs z (List.mem_cons_of_mem _ hz)
    rw [← List.singleton_append, trail_append, trail_singleton hs, List.countP_append,
      List.count_append, List.count_append, ih₁, ih₂]
    simp [List.countP_cons, List.count_cons, Event.instantiates]

/-! ## The whole phase -/

/-- The order in which the classes of a container are made. -/
def makingOrder (r : Registry) (D : List ServiceClass) (c : Container) : List String :=
  (kahn (r.deps D) c.order).1

theorem makingOrder_subset {x : String} (hx : x ∈ makingOrder r D c) : x ∈ c.order :=
  (kahn_perm (r.deps D) c.order).mem_iff.mp (List.mem_append_left _ hx)

theorem makingOrder_nodup (hc : Loaded r D c) : (makingOrder r D c).Nodup :=
  ((kahn_perm (r.deps D) c.order).nodup_iff.mpr hc.nodup).of_append_left

theorem makingOrder_respects (hc : Loaded r D c) : Respects D (makingOrder r D c) := by
  intro pre x post h s hs a ha
  refine kahn_before (r.deps D) c.order h a ?_ (hc.annotations s (classOf_some hs).1 a ha)
  rw [Registry.deps, hs]
  exact List.mem_append_left _ ha

/-- The classes of a container depend on each other as the registered classes do. -/
theorem acyclic_order_iff (hc : Loaded r D c) :
    Acyclic (r.deps D) c.order ↔ Acyclic (r.deps D) (D.map ServiceClass.name) :=
  acyclic_congr _ hc.mem_order fun _ _ _ => Iff.rfl

/-- The phase makes the classes in order, or is stopped on the way. -/
theorem build_cases (hc : Loaded r D c) (w : World) :
    c.build r w = (if (kahn (r.deps D) c.order).2 = [] then .done else .circular,
        trail D (makingOrder r D c)) ∨
      ∃ x e events, c.build r w = (.stopped x (.creation e), events) ∧
        StoppedBy c w D x e events ∧ events <+: trail D (makingOrder r D c) := by
  rw [Container.build, buildLoop_eq, hc.dep_eq]
  rcases injectAll_cases hc w (makingOrder r D c) [] (fun x hx => makingOrder_subset hx)
    (makingOrder_respects hc) with h | ⟨made, x, left, s, e, events, hsplit, hs, h, hcreate⟩
  · left
    rw [show (kahn (r.deps D) c.order).1 = makingOrder r D c from rfl]
    rw [show trail D [] = [] from rfl] at h
    rw [h]
    rfl
  · right
    refine ⟨x, e, events, ?_, ⟨s, _, hs, hcreate⟩, ?_⟩
    · rw [show (kahn (r.deps D) c.order).1 = makingOrder r D c from rfl]
      rw [show trail D [] = [] from rfl] at h
      rw [h]
    · -- the class that stopped it left at most its instantiation behind
      rw [List.nil_append] at hsplit
      rw [hsplit, ← List.singleton_append, trail_append, trail_append, trail_singleton hs]
      rcases createDep_some hcreate with rfl | rfl
      · exact List.prefix_append _ _
      · rw [(classOf_some hs).2]
        exact ⟨.injected x :: trail D left, by simp⟩

/-- **What building a container comes to.** A class is instantiated only after what its
constructor names was injected, and none is made twice. The phase ends: with every registered
class made, when there is no cycle; with the report of a cycle, when there is one; or with a
class whose creation raised an exception or ended the process. -/
theorem build_spec (r : Registry) (o : SetOrder) (D : List ServiceClass) (c : Container)
    (h : load r o D = .ok c) (w : World) :
    AfterDeps D (c.build r w).2 ∧ AtMostOnce (c.build r w).2 ∧
      ((c.build r w).1 = .done ∧ Acyclic (r.deps D) (D.map ServiceClass.name) ∧
          ExactlyOnce D (c.build r w).2 ∨
        (c.build r w).1 = .circular ∧ ¬ Acyclic (r.deps D) (D.map ServiceClass.name) ∨
        ∃ x e, (c.build r w).1 = .stopped x (.creation e) ∧
          StoppedBy c w D x e (c.build r w).2) := by
  have hc := load_ok h
  have hafter : AfterDeps D (trail D (makingOrder r D c)) :=
    afterDeps_trail hc (fun x hx => makingOrder_subset hx) (makingOrder_respects hc)
  have hcount := count_trail hc (fun x hx => makingOrder_subset (D := D) (r := r) hx)
  have honce : AtMostOnce (trail D (makingOrder r D c)) := by
    intro x
    rw [(hcount x).1, (hcount x).2]
    have := List.nodup_iff_count_le_one.mp (makingOrder_nodup hc) x
    exact ⟨this, this⟩
  rcases build_cases hc w with hbuild | ⟨x, e, events, hbuild, hstopped, hprefix⟩
  · rw [hbuild]
    refine ⟨hafter, honce, ?_⟩
    have hrest := kahn_rest_iff (r.deps D) hc.nodup
    rw [acyclic_order_iff hc] at hrest
    by_cases hac : Acyclic (r.deps D) (D.map ServiceClass.name)
    · refine .inl ⟨if_pos (hrest.mpr hac), hac, fun x hx => ?_⟩
      -- nothing is left, so every name is in the order
      have hperm := kahn_perm (r.deps D) c.order
      rw [hrest.mpr hac, List.append_nil] at hperm
      have hmem : x ∈ makingOrder r D c := hperm.mem_iff.mpr ((hc.mem_order x).mpr hx)
      have hone := List.count_eq_one_of_mem (makingOrder_nodup hc) hmem
      exact ⟨(hcount x).1.trans hone, (hcount x).2.trans hone⟩
    · exact .inr (.inl ⟨if_neg fun hnil => hac (hrest.mp hnil), hac⟩)
  · rw [hbuild]
    exact ⟨hafter.of_prefix hprefix, honce.of_prefix hprefix, .inr (.inr ⟨x, e, rfl, hstopped⟩)⟩

/-- A set enumerated as it is listed. -/
def asListed : SetOrder := ⟨id, fun _ => .refl _⟩

/-- No abstract services, and a service that possibly depends on another one. -/
def possibly (x y : String) : Registry := ⟨[], Dict.empty.set x [y], by simp⟩

def configService : ServiceClass := ⟨"ConfigService", [], true, true⟩

def redisService : ServiceClass :=
  ⟨"RedisService", [("configService", "ConfigService")], true, true⟩

/-- All constructors return, and all builds end as given. -/
def World.builds (e : Option BuildExc) : World := ⟨fun _ _ => none, fun _ _ => e⟩

/-- Two services whose builds fail, which does not stop the building. -/
theorem build_spec_two :
    ∃ c, load (possibly "RedisService" "ConfigService") asListed [configService, redisService] =
        .ok c ∧
      AfterDeps [configService, redisService]
        (c.build (possibly "RedisService" "ConfigService") (.builds (some .failure))).2 ∧
      AtMostOnce
        (c.build (possibly "RedisService" "ConfigService") (.builds (some .failure))).2 ∧
      (c.build (possibly "RedisService" "ConfigService") (.builds (some .failure))).1 = .done := by
  refine ⟨_, rfl, ?_⟩
  obtain ⟨hafter, honce, -⟩ := build_spec (possibly "RedisService" "ConfigService") asListed
    [configService, redisService] _ rfl (.builds (some .failure))
  exact ⟨hafter, honce, by decide +kernel⟩

example : ∃ c, load (possibly "ConfigService" "RedisService") asListed
      [configService, redisService] = .ok c ∧
    (c.build (possibly "ConfigService" "RedisService") (.builds none)).1 = .circular :=
  ⟨_, rfl, by decide +kernel⟩

/-- A service whose build asks for an abort ends the process, though there is no cycle. -/
theorem not_buildSound :
    ¬ ∀ (r : Registry) (o : SetOrder) (D : List ServiceClass) (c : Container) (w : World),
      load r o D = .ok c → BuildSound r D (c.build r w).1 (c.build r w).2 := by
  intro h
  have hload : ∃ c, load (possibly "RedisService" "ConfigService") asListed [configService] =
        .ok c ∧
      (c.build (possibly "RedisService" "ConfigService") (.builds (some .abort))).2 =
        [.instantiated "ConfigService" []] := ⟨_, rfl, by decide +kernel⟩
  obtain ⟨c, hc, hevents⟩ := hload
  have hsound := h _ asListed [configService] c (.builds (some .abort)) hc
  have hac : Acyclic ((possibly "RedisService" "ConfigService").deps [configService])
      ([configService].map ServiceClass.name) := by
    -- the only service depends on nothing
    intro x hx
    obtain ⟨y, ⟨hx, -, hy⟩, -⟩ := Relation.TransGen.head'_iff.mp hx
    obtain rfl : x = "ConfigService" := by simpa [configService] using hx
    revert hy
    exact (List.eq_nil_iff_forall_not_mem.mp (by decide +kernel)) y
  have hinjected := ((hsound.acyclic hac).1 "ConfigService" List.mem_cons_self).2
  rw [hevents] at hinjected
  revert hinjected
  decide

end Notifyr
