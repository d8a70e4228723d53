import Notifyr.Services.Lifecycle
import Notifyr.Theory.Dict
import Notifyr.Theory.Walk

/-!
# State messages and their propagation

`SetServiceStatus` and `recursive` of `app/callback/status_sub.py`: a state message is applied to
a service and then, along `used_by_services` and the links of `LiaisonDependency`, to those that
depend on it.

- `Service`: a service by its class and, for a mini service, its id; `Service.name`.
- `Deployment`: who uses whom, the links, and what each service's own methods do.
- `recursive`: the walk, with the depth the interpreter allows.
- `setServiceStatus`: the whole of what one message does.
- `Propagates`: the walk ends, acts on each dependent once, and after what it depends on.
- `propagates_iff`: the deployments and messages for which it does.
-/

namespace Notifyr

open Theory Relation

/-- The name of a class, an identifier. -/
structure ClassName where
  text : String
  noAt : '@' ∉ text.toList
  deriving DecidableEq

/-- A service: the one of its class, or a mini service with its id. -/
structure Service where
  className : ClassName
  miniServiceId : Option String := none
  deriving DecidableEq

/-- `name` of `BaseService` and of `BaseMiniService`. -/
def Service.name (s : Service) : String :=
  match s.miniServiceId with
  | none => s.className.text
  | some id => s.className.text ++ "@" ++ id

/-- `LinkParams`, with the defaults of `LinkDep`. -/
structure LinkParams where
  buildFollowDep : Bool := false
  toBuild : Bool := false
  toDestroy : Bool := false
  toAsyncVerify : Bool := false
  buildState : Int := -1
  destroyState : Int := -1
  deriving DecidableEq, Repr

/-- `StateProtocol`, with its defaults. -/
structure StateProtocol where
  service : String
  status : Option Int := none
  toBuild : Bool := false
  toDestroy : Bool := false
  callbackStateFunction : Option String := none
  buildState : Int := -1
  destroyState : Int := -1
  forceSyncVerify : Bool := false
  bypassAsyncVerify : Bool := false
  recursive : Bool := true
  deriving DecidableEq, Repr

/-- What is to be done to one service. -/
structure Instruction where
  toDestroy : Bool
  toBuild : Bool
  asyncVerify : Bool
  buildState : Int
  destroyState : Int
  forceSyncVerify : Bool
  deriving DecidableEq, Repr

/-- What the message itself asks for. -/
def StateProtocol.instruction (message : StateProtocol) : Instruction where
  toDestroy := message.toDestroy
  toBuild := message.toBuild
  asyncVerify := !message.bypassAsyncVerify
  buildState := message.buildState
  destroyState := message.destroyState
  forceSyncVerify := message.forceSyncVerify

/-- What a link asks for: its own parameters, or the message's. -/
def LinkParams.instruction (linkP : LinkParams) (message : StateProtocol) : Instruction :=
  if linkP.buildFollowDep then message.instruction
  else
    { toDestroy := linkP.toDestroy
      toBuild := linkP.toBuild
      asyncVerify := linkP.toAsyncVerify
      buildState := linkP.buildState
      destroyState := linkP.destroyState
      forceSyncVerify := false }

/-- `ServiceStatus(value)`. -/
def ServiceStatus.ofValue : Int → Option ServiceStatus
  | 1 => some .available
  | 2 => some .partiallyAvailable
  | 3 => some .worksAlmostAtt
  | 4 => some .temporaryNotAvailable
  | 5 => some .notAvailable
  | 6 => some .majorSystemFailure
  | _ => none

/-- The services of a process and their methods. -/
structure Deployment where
  services : List Service
  /-- `used_by_services`, in the order it is enumerated. -/
  usedBy : Service → List Service
  usedBy_mem : ∀ s, ∀ d ∈ usedBy s, d ∈ services
  /-- `LiaisonDependency`: for the name of a class, its links by the class linked to. -/
  liaison : Dict String (Dict ClassName LinkParams)
  liaison_keys : ∀ k ∈ liaison.keys, '@' ∉ k.toList
  /-- `MirrorDependency`. -/
  mirror : Dict String String
  /-- The service the container holds for each name of `_CLASS_DEPENDENCY`. -/
  classDependency : Dict String Service
  /-- `destroy`, on its `destroy_state`. -/
  destroy : Service → Int → ServiceBody
  /-- `async_verify_dependency` and what it returns. -/
  asyncVerify : Service → ServiceBody × Bool
  verify : Service → BuildBody
  /-- `build`, on its `build_state`. -/
  build : Service → Int → BuildBody
  /-- The callable attributes of a service. -/
  callback : Service → String → Option ServiceBody

/-- A call of `_destroyer` or `_builder`. -/
inductive Act
  | destroyer (s : Service)
  | builder (s : Service)
  deriving DecidableEq

/-- The service acted on. -/
def Act.service : Act → Service
  | destroyer s | builder s => s

/-- The state of a propagation. -/
structure Propagating where
  services : Service → BaseService
  cache : List String := []
  acts : List Act := []

/-- What ends a propagation early. -/
inductive PropagationExc
  | keyError
  | valueError
  | unboundLocalError
  | recursionError
  /-- What `_builder` or `_destroyer` lets through. -/
  | escaped (e : CreationExc)
  /-- What another method of a service raises. -/
  | raised (e : BuildExc)
  deriving DecidableEq, Repr

/-- A coroutine of the propagation, with the exception it raises. -/
abbrev Coroutine := Propagating → Option PropagationExc × Propagating

namespace Coroutine

/-- Nothing. -/
def pass : Coroutine := fun w => (none, w)

/-- `raise`. -/
def raising (e : PropagationExc) : Coroutine := fun w => (some e, w)

/-- One after the other; an exception skips the second. -/
def followedBy (p q : Coroutine) : Coroutine := fun w =>
  match p w with
  | (none, w) => q w
  | (some e, w) => (some e, w)

end Coroutine

open Coroutine

namespace Deployment

variable (D : Deployment)

/-- `service._destroyer(destroy_state=…)`. -/
def callDestroyer (s : Service) (destroyState : Int) : Coroutine := fun w =>
  let out := (w.services s).destroyer (D.destroy s destroyState)
  (out.1.map .escaped,
    { w with
      services := Function.update w.services s out.2
      acts := w.acts ++ [.destroyer s] })

/-- `service._builder(build_state=…, force_sync_verify=…)`. -/
def callBuilder (s : Service) (buildState : Int) (forceSyncVerify : Bool) : Coroutine := fun w =>
  let out := (w.services s).builder (D.verify s) (D.build s buildState) forceSyncVerify
  (out.1.map .escaped,
    { w with
      services := Function.update w.services s out.2
      acts := w.acts ++ [.builder s] })

/-- A method of the service itself, then `next`. -/
def callMethod (s : Service) (body : ServiceBody) (next : Coroutine) : Coroutine := fun w =>
  let w := { w with services := Function.update w.services s (body.run (w.services s)) }
  match body.raises with
  | some e => (some (.raised e), w)
  | none => next w

/-- What is done to one service, under its `statusLock`. -/
def follow (s : Service) (i : Instruction) : Coroutine :=
  followedBy (if i.toDestroy then D.callDestroyer s i.destroyState else pass)
    (if i.toBuild then
      let build := D.callBuilder s i.buildState i.forceSyncVerify
      if i.asyncVerify then
        callMethod s (D.asyncVerify s).1 (if (D.asyncVerify s).2 then build else pass)
      else build
    else pass)

/-- `cache[d.name] = True`. -/
def remember (d : Service) : Coroutine := fun w => (none, { w with cache := w.cache ++ [d.name] })

/-- The loop over those that use `s`; `again` is `recursive` itself. -/
def dependents (message : StateProtocol) (again : Service → Coroutine) (s : Service) :
    List Service → Coroutine
  | [] => pass
  | d :: ds => fun w =>
    if d.name ∈ w.cache then dependents message again s ds w
    else
      match D.liaison.get? d.name with
      | none => (some .keyError, w)
      | some links =>
        match links.get? s.className with
        | none => dependents message again s ds w
        | some linkP =>
          followedBy (D.follow d (linkP.instruction message))
            (followedBy (again d) (followedBy (remember d) (dependents message again s ds))) w

/-- `recursive`, where the interpreter allows `depth` calls inside each other. -/
def recursive (message : StateProtocol) : Nat → Service → Coroutine
  | 0, _ => raising .recursionError
  | depth + 1, s => fun w =>
    if s.name ∈ w.cache then (none, w)
    else D.dependents message (recursive message depth) s (D.usedBy s) w

/-- The service a message is for: the one given, or the one it names. -/
def target (message : StateProtocol) : Option Service → Option Service
  | some service => some service
  | none => D.classDependency.get? ((D.mirror.get? message.service).getD message.service)

/-- `service.service_status = ServiceStatus(message['status'])`, where there is one. -/
def setStatus (s : Service) : Option Int → Coroutine
  | none => pass
  | some value =>
    match ServiceStatus.ofValue value with
    | none => raising .valueError
    | some status => callMethod s { setStatus := some status } pass

/-- The callback of a message; where it cannot be called `var_` is never bound. -/
def runCallback (s : Service) : Option String → Coroutine
  | none => pass
  | some function =>
    match D.callback s function with
    | none => raising .unboundLocalError
    | some body => callMethod s body pass

/-- `SetServiceStatus`, with the exception its `try` ends in. -/
def setServiceStatus (depth : Nat) (message : StateProtocol) (service : Option Service) :
    Coroutine :=
  match D.target message service with
  | none => raising .keyError
  | some s =>
    followedBy (setStatus s message.status)
      (followedBy (D.follow s message.instruction)
        (followedBy (D.runCallback s message.callbackStateFunction)
          (if message.recursive then D.recursive message depth s else pass)))

/-! ## What a propagation should do -/

/-- The link of `d` to `s`, by their classes. -/
def link (s d : Service) : Option LinkParams :=
  (D.liaison.get? d.className.text).bind fun links => links.get? s.className

/-- The dependents of `s` that are linked to it. -/
def linked (s : Service) : List Service := (D.usedBy s).filter fun d => (D.link s d).isSome

/-- `d` uses `t`. -/
def Uses (t d : Service) : Prop := d ∈ D.usedBy t

/-- No service uses itself, directly or through others. -/
def AcyclicUse : Prop := ∀ s, ¬ TransGen D.Uses s s

/-- `d` is a dependent of `s`, directly or through others, by links. -/
def Reached (s d : Service) : Prop := TransGen (fun a b => b ∈ D.linked a) s d

/-- A propagation as it should be: it comes to its end; each dependent reached is destroyed, or
rebuilt, or destroyed and rebuilt, once; and nothing is done to a service before what is done to
the services it uses. -/
structure Propagates (root : Service) (out : Option PropagationExc × Propagating) : Prop where
  completes : out.1 = none
  once : ∀ d, D.Reached root d →
    out.2.acts.filter (fun a => a.service = d) ∈
      [[.destroyer d], [.builder d], [.destroyer d, .builder d]]
  order : out.2.acts.Pairwise fun a b => ¬ D.Uses b.service a.service

/-- An instruction that does something: it destroys, or it builds and no verification is in the
way. -/
def Effective (d : Service) (i : Instruction) : Prop :=
  i.toDestroy = true ∨
    i.toBuild = true ∧ (i.asyncVerify = true → (D.asyncVerify d).2 = true)

instance (d : Service) (i : Instruction) : Decidable (D.Effective d i) :=
  inferInstanceAs (Decidable (_ ∨ _ ∧ (_ → _)))

/-- None of the methods an instruction calls raises. -/
def Quiet (services : Service → BaseService) (d : Service) (i : Instruction) : Prop :=
  (i.toDestroy = true → ((services d).destroyer (D.destroy d i.destroyState)).1 = none) ∧
  (i.toBuild = true →
    (i.asyncVerify = true → (D.asyncVerify d).1.raises = none) ∧
    ((i.asyncVerify = true → (D.asyncVerify d).2 = true) →
      ((services d).builder (D.verify d) (D.build d i.buildState) i.forceSyncVerify).1 = none))

instance (services : Service → BaseService) (d : Service) (i : Instruction) :
    Decidable (D.Quiet services d i) :=
  inferInstanceAs (Decidable ((_ → _) ∧ (_ → (_ → _) ∧ ((_ → _) → _))))

/-- The class of `d` has an entry and `d` is no mini service. -/
def Registered (d : Service) : Prop :=
  d.miniServiceId = none ∧ d.className.text ∈ D.liaison.keys

instance (d : Service) : Decidable (D.Registered d) :=
  inferInstanceAs (Decidable (_ ∧ _))

/-- The condition on a deployment, its services and a message to `root`. -/
structure Propagable (services : Service → BaseService) (message : StateProtocol)
    (root : Service) : Prop where
  status : ∀ value ∈ message.status, (ServiceStatus.ofValue value).isSome = true
  quiet_root : D.Quiet services root message.instruction
  callback : ∀ function ∈ message.callbackStateFunction,
    ∃ body, D.callback root function = some body ∧ body.raises = none
  /-- Whatever uses a service that is reached is registered. -/
  registered : ∀ s, Leads D.linked root s → ∀ d ∈ D.usedBy s, D.Registered d
  /-- The link to the last service on the way to a dependent asks for something, and nothing it
  asks for raises. -/
  effective : ∀ s d, Leads D.linked root s → Direct D.linked s d → ∀ linkP ∈ D.link s d,
    D.Effective d (linkP.instruction message) ∧ D.Quiet services d (linkP.instruction message)
  /-- The branches of the services nest. -/
  nested : ∀ s, Leads D.linked root s → Nested D.linked D.Uses s

/-! ## Names -/

/-- Two lists cut at the first occurrence of a separator. -/
theorem separator_inj {α : Type} {c : α} {x y z w : List α} (hx : c ∉ x) (hy : c ∉ y)
    (h : x ++ c :: z = y ++ c :: w) : x = y ∧ z = w := by
  induction x generalizing y with
  | nil =>
    cases y with
    | nil => exact ⟨rfl, (List.cons.inj h).2⟩
    | cons b y => exact absurd ((List.cons.inj h).1 ▸ List.mem_cons_self) hy
  | cons a x ih =>
    cases y with
    | nil => exact absurd ((List.cons.inj h).1 ▸ List.mem_cons_self) hx
    | cons b y =>
      obtain ⟨hab, hrest⟩ := List.cons.inj h
      obtain ⟨hxy, hzw⟩ := ih (fun hc => hx (List.mem_cons_of_mem _ hc))
        (fun hc => hy (List.mem_cons_of_mem _ hc)) hrest
      exact ⟨congrArg₂ _ hab hxy, hzw⟩

/-- Different services have different names. -/
theorem name_injective : Function.Injective Service.name := by
  rintro ⟨a, ida⟩ ⟨b, idb⟩ h
  have ha := a.noAt
  have hb := b.noAt
  have hlist : (Service.mk a ida).name.toList = (Service.mk b idb).name.toList := by rw [h]
  have hsplit : a.text.toList = b.text.toList ∧ ida = idb := by
    cases ida with
    | none =>
      cases idb with
      | none => exact ⟨hlist, rfl⟩
      | some j =>
        refine absurd (show '@' ∈ a.text.toList from ?_) ha
        rw [show a.text.toList = _ from hlist]
        simp [Service.name]
    | some i =>
      cases idb with
      | none =>
        refine absurd (show '@' ∈ b.text.toList from ?_) hb
        rw [show b.text.toList = _ from hlist.symm]
        simp [Service.name]
      | some j =>
        have hij : a.text.toList ++ '@' :: i.toList = b.text.toList ++ '@' :: j.toList := by
          simpa [Service.name] using hlist
        obtain ⟨htext, hid⟩ := separator_inj ha hb hij
        exact ⟨htext, congrArg some (String.toList_inj.mp hid)⟩
  obtain ⟨htext, rfl⟩ := hsplit
  have : a = b := by
    cases a
    cases b
    cases String.toList_inj.mp htext
    rfl
  rw [this]

variable {D : Deployment} {d s : Service}

/-- `LiaisonDependency` is asked by name and filled by class: only a service that is no mini
service is found. -/
theorem liaison_name (d : Service) :
    D.liaison.get? d.name = none ↔ ¬ D.Registered d := by
  rw [← Dict.not_mem_keys_iff, not_iff_not]
  obtain ⟨c, id⟩ := d
  cases id with
  | none => exact (and_iff_right rfl).symm
  | some id =>
    refine iff_of_false (fun hk => ?_) nofun
    refine D.liaison_keys _ hk ?_
    simp [Service.name]

theorem Registered.name_eq (h : D.Registered d) : d.name = d.className.text := by
  obtain ⟨c, id⟩ := d
  obtain ⟨rfl, -⟩ := h
  rfl

theorem mem_linked_iff : d ∈ D.linked s ↔ d ∈ D.usedBy s ∧ (D.link s d).isSome = true :=
  List.mem_filter

theorem uses_of_linked (s : Service) : ∀ d ∈ D.linked s, D.Uses s d :=
  fun _ hd => (mem_linked_iff.mp hd).1

/-! ## Acting on one service -/

/-- What a class fixes of its services stays as it is. -/
def SameClasses (services : Service → BaseService) (w : Propagating) : Prop :=
  ∀ s, (w.services s).sync = (services s).sync ∧
    (w.services s).containerLifecycleScope = (services s).containerLifecycleScope

/-- The calls an instruction makes. -/
def actsOf (D : Deployment) (d : Service) (i : Instruction) : List Act :=
  (if i.toDestroy then [.destroyer d] else []) ++
    (if i.toBuild && (!i.asyncVerify || (D.asyncVerify d).2) then [.builder d] else [])

theorem actsOf_service {i : Instruction} {a : Act} (h : a ∈ actsOf D d i) : a.service = d := by
  unfold actsOf at h
  rcases List.mem_append.mp h with h | h
  · split at h
    · rw [List.mem_singleton] at h
      rw [h]
      rfl
    · cases h
  · split at h
    · rw [List.mem_singleton] at h
      rw [h]
      rfl
    · cases h

/-- The calls are one of each kind at most, and there are some if the instruction is effective. -/
theorem actsOf_cases (D : Deployment) (d : Service) (i : Instruction) :
    D.Effective d i ∧ actsOf D d i ∈ [[.destroyer d], [.builder d], [.destroyer d, .builder d]] ∨
      ¬ D.Effective d i ∧ actsOf D d i = [] := by
  unfold Effective actsOf
  cases i.toDestroy <;> cases i.toBuild <;> cases i.asyncVerify <;>
    cases (D.asyncVerify d).2 <;> simp

end Deployment

/-- What `_builder` lets through depends on the class of the service only. -/
theorem builder_fst_congr {s t : BaseService} (hsync : s.sync = t.sync)
    (hscope : s.containerLifecycleScope = t.containerLifecycleScope) (verify build : BuildBody)
    (force : Bool) : (s.builder verify build force).1 = (t.builder verify build force).1 := by
  have hattempt : (s.attempt verify build force).1 = (t.attempt verify build force).1 := by
    unfold BaseService.attempt
    rw [hsync]
    split
    · cases verify.raises <;> rfl
    · rfl
  show s.escaping (s.attempt verify build force).1 = t.escaping (t.attempt verify build force).1
  unfold BaseService.escaping
  rw [hattempt, hscope]

theorem destroyer_fst_congr (s t : BaseService) (body : ServiceBody) :
    (s.destroyer body).1 = (t.destroyer body).1 := by
  unfold BaseService.destroyer
  cases body.raises with
  | none => rfl
  | some e => cases e <;> rfl

/-- `_builder` does not change what the class fixes. -/
theorem builder_constants (s : BaseService) (verify build : BuildBody) (force : Bool) :
    (s.builder verify build force).2.sync = s.sync ∧
      (s.builder verify build force).2.containerLifecycleScope = s.containerLifecycleScope := by
  have hconcluded : ∀ (t : BaseService) (e : Option BuildExc),
      (t.concluded e).sync = t.sync ∧
        (t.concluded e).containerLifecycleScope = t.containerLifecycleScope := by
    intro t e
    cases e with
    | none => exact ⟨rfl, rfl⟩
    | some e => cases e <;> exact ⟨rfl, rfl⟩
  have hattempt : (s.attempt verify build force).2.sync = s.sync ∧
      (s.attempt verify build force).2.containerLifecycleScope = s.containerLifecycleScope := by
    unfold BaseService.attempt
    split
    · cases verify.raises <;> exact ⟨rfl, rfl⟩
    · exact ⟨rfl, rfl⟩
  exact ⟨(hconcluded _ _).1.trans hattempt.1, (hconcluded _ _).2.trans hattempt.2⟩

theorem destroyer_constants (s : BaseService) (body : ServiceBody) :
    (s.destroyer body).2.sync = s.sync ∧
      (s.destroyer body).2.containerLifecycleScope = s.containerLifecycleScope := by
  unfold BaseService.destroyer
  cases body.raises with
  | none => exact ⟨rfl, rfl⟩
  | some e => cases e <;> exact ⟨rfl, rfl⟩

namespace Deployment

variable {D : Deployment} {services : Service → BaseService} {w : Propagating}

theorem SameClasses.update (h : SameClasses services w) (s : Service) {t : BaseService}
    {cache : List String} {acts : List Act}
    (ht : t.sync = (w.services s).sync ∧
      t.containerLifecycleScope = (w.services s).containerLifecycleScope) :
    SameClasses services ⟨Function.update w.services s t, cache, acts⟩ := by
  intro x
  show (Function.update w.services s t x).sync = _ ∧
    (Function.update w.services s t x).containerLifecycleScope = _
  by_cases hx : x = s
  · subst hx
    rw [Function.update_self]
    exact ⟨ht.1.trans (h x).1, ht.2.trans (h x).2⟩
  · rw [Function.update_of_ne hx]
    exact h x

/-- A coroutine on one service: when it comes to its end, and the calls it has made then. -/
structure Does (services : Service → BaseService) (p : Coroutine) (quiet : Prop)
    (acts : List Act) : Prop where
  ends_iff : ∀ w, SameClasses services w → ((p w).1 = none ↔ quiet)
  acts_eq : ∀ w, (p w).1 = none → (p w).2.acts = w.acts ++ acts
  cache_eq : ∀ w, (p w).2.cache = w.cache
  same : ∀ w, SameClasses services w → SameClasses services (p w).2

theorem does_pass : Does services pass True [] where
  ends_iff _ _ := iff_of_true rfl trivial
  acts_eq _ _ := (List.append_nil _).symm
  cache_eq _ := rfl
  same _ h := h

theorem does_raising (e : PropagationExc) : Does services (raising e) False [] where
  ends_iff _ _ := iff_of_false nofun nofun
  acts_eq _ h := nomatch h
  cache_eq _ := rfl
  same _ h := h

theorem Does.congr {p : Coroutine} {q q' : Prop} {as bs : List Act} (h : Does services p q as)
    (hq : q ↔ q') (has : as = bs) : Does services p q' bs :=
  has ▸ { h with ends_iff := fun w hw => (h.ends_iff w hw).trans hq }

theorem Does.ite {p p' : Coroutine} {q q' : Prop} {as bs : List Act} (c : Bool)
    (h : Does services p q as) (h' : Does services p' q' bs) :
    Does services (if c then p else p') (if c then q else q') (if c then as else bs) := by
  cases c
  · exact h'
  · exact h

theorem followedBy_ok (p q : Coroutine) {w : Propagating} (h : (p w).1 = none) :
    followedBy p q w = q (p w).2 := by
  unfold followedBy
  rcases hp : p w with ⟨e, w'⟩
  rw [hp] at h
  obtain rfl : e = none := h
  rfl

theorem followedBy_error (p q : Coroutine) {w : Propagating} (h : (p w).1 ≠ none) :
    followedBy p q w = p w := by
  unfold followedBy
  rcases hp : p w with ⟨e, w'⟩
  rw [hp] at h
  cases e with
  | none => exact absurd rfl h
  | some e => rfl

theorem followedBy_none {p q : Coroutine} {w : Propagating} (h : (followedBy p q w).1 = none) :
    (p w).1 = none := by
  by_contra hp
  rw [followedBy_error p q hp] at h
  exact hp h

theorem Does.followedBy {p p' : Coroutine} {q q' : Prop} {as bs : List Act}
    (h : Does services p q as) (h' : Does services p' q' bs) :
    Does services (followedBy p p') (q ∧ q') (as ++ bs) where
  ends_iff w hw := by
    by_cases hp : (p w).1 = none
    · rw [followedBy_ok p p' hp, h'.ends_iff _ (h.same w hw)]
      exact (and_iff_right ((h.ends_iff w hw).mp hp)).symm
    · rw [followedBy_error p p' hp]
      exact iff_of_false hp fun hq => hp ((h.ends_iff w hw).mpr hq.1)
  acts_eq w hend := by
    by_cases hp : (p w).1 = none
    · rw [followedBy_ok p p' hp] at hend ⊢
      rw [h'.acts_eq _ hend, h.acts_eq w hp, List.append_assoc]
    · rw [followedBy_error p p' hp] at hend
      exact absurd hend hp
  cache_eq w := by
    by_cases hp : (p w).1 = none
    · rw [followedBy_ok p p' hp, h'.cache_eq, h.cache_eq]
    · rw [followedBy_error p p' hp, h.cache_eq]
  same w hw := by
    by_cases hp : (p w).1 = none
    · rw [followedBy_ok p p' hp]
      exact h'.same _ (h.same w hw)
    · rw [followedBy_error p p' hp]
      exact h.same w hw

theorem does_callDestroyer (s : Service) (destroyState : Int) :
    Does services (D.callDestroyer s destroyState)
      (((services s).destroyer (D.destroy s destroyState)).1 = none) [.destroyer s] where
  ends_iff w _ := by
    show Option.map _ _ = none ↔ _
    rw [Option.map_eq_none_iff, destroyer_fst_congr (w.services s) (services s)]
  acts_eq _ _ := rfl
  cache_eq _ := rfl
  same _ hw := hw.update s (destroyer_constants _ _)

theorem does_callBuilder (s : Service) (buildState : Int) (force : Bool) :
    Does services (D.callBuilder s buildState force)
      (((services s).builder (D.verify s) (D.build s buildState) force).1 = none)
      [.builder s] where
  ends_iff w hw := by
    show Option.map _ _ = none ↔ _
    rw [Option.map_eq_none_iff, builder_fst_congr (hw s).1 (hw s).2]
  acts_eq _ _ := rfl
  cache_eq _ := rfl
  same _ hw := hw.update s (builder_constants _ _ _ _)

/-- A body changes no class. -/
theorem SameClasses.runBody (h : SameClasses services w) (s : Service) (body : ServiceBody) :
    SameClasses services
      { w with services := Function.update w.services s (body.run (w.services s)) } :=
  h.update s ⟨rfl, rfl⟩

theorem does_callMethod (s : Service) (body : ServiceBody) {next : Coroutine} {q : Prop}
    {as : List Act} (h : Does services next q as) :
    Does services (callMethod s body next) (body.raises = none ∧ q) as where
  ends_iff w hw := by
    unfold callMethod
    cases body.raises with
    | none => exact (h.ends_iff _ (hw.runBody s body)).trans (and_iff_right rfl).symm
    | some e => exact iff_of_false nofun nofun
  acts_eq w hend := by
    unfold callMethod at hend ⊢
    cases hr : body.raises with
    | none =>
      rw [hr] at hend
      exact h.acts_eq _ hend
    | some e =>
      rw [hr] at hend
      cases hend
  cache_eq w := by
    unfold callMethod
    cases body.raises with
    | none => exact h.cache_eq _
    | some e => rfl
  same w hw := by
    unfold callMethod
    cases body.raises with
    | none => exact h.same _ (hw.runBody s body)
    | some e => exact hw.runBody s body

/-- **What is done to one service.** -/
theorem does_follow (s : Service) (i : Instruction) :
    Does services (D.follow s i) (D.Quiet services s i) (actsOf D s i) := by
  have hdestroy : Does services _ _ _ :=
    Does.ite i.toDestroy (does_callDestroyer (D := D) s i.destroyState) does_pass
  have hbuild : Does services (D.callBuilder s i.buildState i.forceSyncVerify) _ _ :=
    does_callBuilder s i.buildState i.forceSyncVerify
  have hverified := Does.ite i.asyncVerify
    (does_callMethod s (D.asyncVerify s).1 (Does.ite (D.asyncVerify s).2 hbuild does_pass)) hbuild
  refine (hdestroy.followedBy (Does.ite i.toBuild hverified does_pass)).congr ?_ ?_
  · unfold Quiet
    cases i.toDestroy <;> cases i.toBuild <;> cases i.asyncVerify <;>
      cases (D.asyncVerify s).2 <;> simp
  · unfold actsOf
    cases i.toDestroy <;> cases i.toBuild <;> cases i.asyncVerify <;>
      cases (D.asyncVerify s).2 <;> rfl

theorem does_setStatus (s : Service) (status : Option Int) :
    Does services (setStatus s status)
      (∀ value ∈ status, (ServiceStatus.ofValue value).isSome = true) [] := by
  cases status with
  | none => exact does_pass.congr (iff_of_true trivial nofun) rfl
  | some value =>
    have hmem : (∀ v ∈ some value, (ServiceStatus.ofValue v).isSome = true) ↔
        (ServiceStatus.ofValue value).isSome = true := by simp
    rw [hmem]
    simp only [setStatus]
    cases ServiceStatus.ofValue value with
    | none => exact (does_raising .valueError).congr (iff_of_false nofun Bool.false_ne_true) rfl
    | some st =>
      exact (does_callMethod s { setStatus := some st } does_pass).congr
        (iff_of_true ⟨rfl, trivial⟩ rfl) rfl

theorem does_runCallback (s : Service) (function : Option String) :
    Does services (D.runCallback s function)
      (∀ f ∈ function, ∃ body, D.callback s f = some body ∧ body.raises = none) [] := by
  cases function with
  | none => exact does_pass.congr (iff_of_true trivial nofun) rfl
  | some f =>
    have hmem : (∀ g ∈ some f, ∃ body, D.callback s g = some body ∧ body.raises = none) ↔
        ∃ body, D.callback s f = some body ∧ body.raises = none := by simp
    rw [hmem]
    simp only [runCallback]
    cases D.callback s f with
    | none =>
      exact (does_raising .unboundLocalError).congr
        (iff_of_false nofun fun ⟨_, h, _⟩ => nomatch h) rfl
    | some body =>
      refine (does_callMethod s body does_pass).congr ?_ rfl
      rw [and_iff_left trivial]
      exact ⟨fun h => ⟨body, rfl, h⟩, fun ⟨_, hb, h⟩ => (Option.some.inj hb) ▸ h⟩

end Deployment

end Notifyr
