import Mathlib.Data.Fintype.EquivFin
import Notifyr.Container.Build
import Notifyr.Theory.Runs

/-!
# The life of a service

`BaseService` of `app/definition/_service.py`: how building, destroying and state messages
change the status of a service, and whether `check_status` then lets its callers through.

- `BaseService`: the fields the life cycle reads and writes; `checkStatus`.
- `ServiceBody`: what one of a service's own methods (`destroy`, a callback) does: it may set the
  status and the unavailable methods, and may raise. A `BuildBody` (`verify_dependency`, `build`)
  may also set `_builded` and `_destroyed`, as `CeleryService` does.
- `BaseService.builder`, `BaseService.destroyer`: `_builder` and `_destroyer` on such bodies.
- `Monitored`: a service together with what has happened to it: how its last build attempt ended
  and whether it has been destroyed since.
- `Sound`: callers are let through exactly as the history says.
- `soundRun_iff`: the runs that keep this.
-/

namespace Notifyr

open Theory

/-- `ServiceStatus`. -/
inductive ServiceStatus
  | available
  | partiallyAvailable
  | worksAlmostAtt
  | temporaryNotAvailable
  | notAvailable
  | majorSystemFailure
  deriving DecidableEq, Repr

/-- Membership in `ACCEPTABLE_STATES`. -/
def ServiceStatus.acceptable : ServiceStatus → Bool
  | available | partiallyAvailable | worksAlmostAtt => true
  | _ => false

/-- The errors of `check_status`. -/
inductive StatusError
  | serviceMajorSystemFailureError
  | serviceNotAvailableError
  | serviceTemporaryNotAvailableError
  | methodServiceNotAvailableError
  deriving DecidableEq, Repr

/-- The fields of a service that its life cycle is about. -/
structure BaseService where
  /-- `CONTEXT` is `'sync'`. -/
  sync : Bool
  containerLifecycleScope : Bool
  serviceStatus : Option ServiceStatus := none
  builded : Bool := false
  destroyed : Bool := false
  methodNotAvailable : List String := []
  deriving DecidableEq, Repr

/-- `check_status`; a service without a status passes the first test. -/
def BaseService.checkStatus (s : BaseService) (funcName : String) : Except StatusError Unit :=
  match s.serviceStatus with
  | some .majorSystemFailure => .error .serviceMajorSystemFailureError
  | some .notAvailable => .error .serviceNotAvailableError
  | some .temporaryNotAvailable => .error .serviceTemporaryNotAvailableError
  | _ =>
    if !s.builded || s.destroyed then .error .serviceNotAvailableError
    else if funcName ∈ s.methodNotAvailable then .error .methodServiceNotAvailableError
    else .ok ()

/-- A run of one of the service's own methods. -/
structure ServiceBody where
  setStatus : Option ServiceStatus := none
  setMethods : Option (List String) := none
  raises : Option BuildExc := none
  deriving DecidableEq, Repr

/-- What a body leaves behind. -/
def ServiceBody.run (body : ServiceBody) (s : BaseService) : BaseService :=
  { s with
    serviceStatus := body.setStatus.or s.serviceStatus
    methodNotAvailable := body.setMethods.getD s.methodNotAvailable }

/-- A run of `verify_dependency` or `build`. -/
structure BuildBody extends ServiceBody where
  setBuilded : Option Bool := none
  setDestroyed : Option Bool := none
  deriving DecidableEq, Repr

/-- What it leaves behind. -/
def BuildBody.run (body : BuildBody) (s : BaseService) : BaseService :=
  { body.toServiceBody.run s with
    builded := body.setBuilded.getD s.builded
    destroyed := body.setDestroyed.getD s.destroyed }

/-- `verify_dependency` (where it is called) and `build`, up to the one that raises. -/
def BaseService.attempt (s : BaseService) (verify build : BuildBody) (forceSyncVerify : Bool) :
    Option BuildExc × BaseService :=
  if s.sync || forceSyncVerify then
    let s := verify.run { s with methodNotAvailable := [] }
    match verify.raises with
    | some e => (some e, s)
    | none => (build.raises, build.run s)
  else (build.raises, build.run s)

/-- The branch of `_builder` an attempt ends in. `_builded` is touched only if nothing was
raised. -/
def BaseService.concluded (s : BaseService) : Option BuildExc → BaseService
  | none => { s with builded := true, destroyed := false, serviceStatus := some .available }
  | some .failure => { s with serviceStatus := some .notAvailable }
  | some .abort => { s with serviceStatus := some .majorSystemFailure }
  | some .ok => { s with serviceStatus := some .partiallyAvailable }
  | some .warning => { s with serviceStatus := some .temporaryNotAvailable }
  | some .skip => { s with serviceStatus := some .worksAlmostAtt }
  | some .notImplemented => { s with serviceStatus := some .notAvailable }
  | some (.other _) => { s with serviceStatus := some .majorSystemFailure }
  | some (.baseException _) => s

/-- What escapes that branch: `exit(-1)`, or an exception that none of them catches. -/
def BaseService.escaping (s : BaseService) : Option BuildExc → Option CreationExc
  | some .abort | some (.other _) => if s.containerLifecycleScope then some .exit else none
  | some (.baseException e) => some (.raised e)
  | _ => none

/-- `_builder`, with what escapes it. -/
def BaseService.builder (s : BaseService) (verify build : BuildBody) (forceSyncVerify : Bool) :
    Option CreationExc × BaseService :=
  let out := s.attempt verify build forceSyncVerify
  (s.escaping out.1, out.2.concluded out.1)

/-- The container meets the same exceptions. -/
theorem builder_eq_escaping (typ : ServiceClass) (s : BaseService)
    (h : s.containerLifecycleScope = typ.containerLifecycleScope) (exc : Option BuildExc) :
    builder typ exc = s.escaping exc := by
  cases exc with
  | none => rfl
  | some e => cases e <;> simp [Notifyr.builder, BaseService.escaping, h]

/-- `_destroyer`, with what escapes it. -/
def BaseService.destroyer (s : BaseService) (destroy : ServiceBody) :
    Option CreationExc × BaseService :=
  let s := destroy.run s
  match destroy.raises with
  | none => (none, { s with destroyed := true, builded := false })
  | some .failure | some .abort | some .warning | some .skip => (none, s)
  | some .ok => (some (.raised "BuildOkError"), s)
  | some .notImplemented => (some (.raised "BuildNotImplementedError"), s)
  | some (.other e) => (some (.raised e), s)
  | some (.baseException e) => (some (.raised e), s)

/-- What can happen to a service. -/
inductive ServiceEvent
  | builder (verify build : BuildBody) (forceSyncVerify : Bool)
  | destroyer (destroy : ServiceBody)
  /-- A state message that carries a status. -/
  | status (value : ServiceStatus)
  /-- Another method of the service, such as the callback of a state message. -/
  | callback (body : ServiceBody)
  deriving DecidableEq, Repr

/-- A build attempt that ends so has ended with an acceptable status. -/
def endsAcceptable : Option BuildExc → Bool
  | none | some .ok | some .skip => true
  | _ => false

/-- A service and its history. -/
structure Monitored where
  service : BaseService
  /-- The last build attempt ended with an acceptable status. -/
  lastBuild : Bool := false
  /-- It has been destroyed since. -/
  destroyedSince : Bool := false
  /-- The process has not been ended. -/
  alive : Bool := true
  deriving DecidableEq, Repr

/-- One event. -/
def Monitored.step (m : Monitored) (e : ServiceEvent) : Monitored :=
  if m.alive then
    match e with
    | .builder verify build forceSyncVerify =>
      let out := m.service.builder verify build forceSyncVerify
      { service := out.2
        lastBuild := endsAcceptable (m.service.attempt verify build forceSyncVerify).1
        destroyedSince := false
        alive := out.1 != some .exit }
    | .destroyer destroy =>
      { m with
        service := (m.service.destroyer destroy).2
        destroyedSince := m.destroyedSince || destroy.raises.isNone }
    | .status value => { m with service := { m.service with serviceStatus := some value } }
    | .callback body => { m with service := body.run m.service }
  else m

/-- The callers of a service are let through exactly if its status is acceptable, its last build
attempt ended acceptably and it has not been destroyed since; this concerns the methods that are
not marked unavailable one by one. -/
structure Sound (m : Monitored) : Prop where
  passes_iff : ∀ funcName ∉ m.service.methodNotAvailable,
    m.service.checkStatus funcName = .ok () ↔
      (∃ status, m.service.serviceStatus = some status ∧ status.acceptable = true) ∧
        m.lastBuild = true ∧ m.destroyedSince = false
  failed_rejects : m.lastBuild = false → ∀ funcName, m.service.checkStatus funcName ≠ .ok ()

/-- A service before its first event. -/
def Monitored.init (sync containerLifecycleScope : Bool) : Monitored where
  service := { sync, containerLifecycleScope }

/-- `_builded` and not `_destroyed`. -/
def BaseService.Usable (s : BaseService) : Prop := s.builded = true ∧ s.destroyed = false

instance (s : BaseService) : Decidable s.Usable :=
  inferInstanceAs (Decidable (s.builded = true ∧ s.destroyed = false))

/-- Where a status is set, an acceptable one is set only on a service that is not usable or whose
last build attempt ended acceptably. -/
def SetsFairly (m : Monitored) (status : Option ServiceStatus) : Prop :=
  ∀ value ∈ status, value.acceptable = true → m.service.Usable → m.lastBuild = true

/-- The condition on a build attempt, by how it ends and the service its methods leave. One that
ends in `BuildOkError` or `BuildSkipError` leaves the service usable, because it was or because
its own methods made it so; one that ends in an exception `_builder` does not catch leaves it
unusable or with a status that is not acceptable. -/
def AttemptFair (s : BaseService) : Option BuildExc → Prop
  | some .ok | some .skip => s.Usable
  | some (.baseException _) =>
    s.Usable → ∃ value, s.serviceStatus = some value ∧ value.acceptable = false
  | _ => True

/-- The condition on an event: its build attempt is fair, and statuses are set fairly. -/
def EventFair (m : Monitored) (e : ServiceEvent) : Prop :=
  m.alive = true →
    match e with
    | .builder verify build force =>
      AttemptFair (m.service.attempt verify build force).2
        (m.service.attempt verify build force).1
    | .destroyer destroy => destroy.raises = none ∨ SetsFairly m destroy.setStatus
    | .status value => SetsFairly m (some value)
    | .callback body => SetsFairly m body.setStatus

/-! ## One state -/

section State

variable {m : Monitored}

/-- `check_status` lets pass if the status is none of the three bad ones, the service is usable,
and the method is available. -/
theorem checkStatus_ok_iff (s : BaseService) (funcName : String) :
    s.checkStatus funcName = .ok () ↔
      (∀ value ∈ s.serviceStatus, value.acceptable = true) ∧ s.Usable ∧
        funcName ∉ s.methodNotAvailable := by
  have hrest : (if !s.builded || s.destroyed then .error .serviceNotAvailableError
      else if funcName ∈ s.methodNotAvailable then .error .methodServiceNotAvailableError
      else .ok () : Except StatusError Unit) = .ok () ↔
        s.Usable ∧ funcName ∉ s.methodNotAvailable := by
    unfold BaseService.Usable
    cases s.builded with
    | false => simp
    | true =>
      cases s.destroyed with
      | true => simp
      | false => by_cases h : funcName ∈ s.methodNotAvailable <;> simp [h]
  cases hs : s.serviceStatus with
  | none =>
    rw [BaseService.checkStatus, hs]
    exact hrest.trans ⟨fun h => ⟨nofun, h⟩, fun h => h.2⟩
  | some value =>
    have hval : (∀ v ∈ some value, v.acceptable = true) ↔ value.acceptable = true := by simp
    rw [BaseService.checkStatus, hs, hval]
    cases value with
    | available | partiallyAvailable | worksAlmostAtt =>
      exact hrest.trans ⟨fun h => ⟨rfl, h⟩, fun h => h.2⟩
    | temporaryNotAvailable | notAvailable | majorSystemFailure =>
      exact iff_of_false nofun fun h => nomatch h.1

/-- Some method of a service is available. -/
theorem exists_available (s : BaseService) : ∃ funcName, funcName ∉ s.methodNotAvailable := by
  obtain ⟨funcName, h⟩ := Infinite.exists_notMem_finset s.methodNotAvailable.toFinset
  exact ⟨funcName, fun hmem => h (List.mem_toFinset.mpr hmem)⟩

/-- Soundness of a state, in terms of its fields. -/
theorem sound_iff :
    Sound m ↔
      ((∀ value ∈ m.service.serviceStatus, value.acceptable = true) ∧ m.service.Usable ↔
        (∃ value, m.service.serviceStatus = some value ∧ value.acceptable = true) ∧
          m.lastBuild = true ∧ m.destroyedSince = false) := by
  constructor
  · intro h
    obtain ⟨funcName, hfunc⟩ := exists_available m.service
    rw [← h.passes_iff funcName hfunc, checkStatus_ok_iff]
    exact ⟨fun hs => ⟨hs.1, hs.2, hfunc⟩, fun hs => ⟨hs.1, hs.2.1⟩⟩
  · intro h
    constructor
    · intro funcName hfunc
      rw [← h, checkStatus_ok_iff]
      exact ⟨fun hs => ⟨hs.1, hs.2.1⟩, fun hs => ⟨hs.1, hs.2, hfunc⟩⟩
    · intro hlast funcName hok
      obtain ⟨hstatus, husable, -⟩ := (checkStatus_ok_iff _ _).mp hok
      have hbuilt := (h.mp ⟨hstatus, husable⟩).2.1
      rw [hlast] at hbuilt
      cases hbuilt

end State

/-! ## One event -/

section Events

variable {m : Monitored}

/-- Once the process has ended nothing happens. -/
theorem step_of_dead (h : m.alive = false) (e : ServiceEvent) : m.step e = m := by
  unfold Monitored.step
  rw [if_neg (by simp [h])]

/-- A build attempt. -/
theorem step_builder (h : m.alive = true) (verify build : BuildBody) (force : Bool) :
    m.step (.builder verify build force) =
      { service := (m.service.attempt verify build force).2.concluded
          (m.service.attempt verify build force).1
        lastBuild := endsAcceptable (m.service.attempt verify build force).1
        destroyedSince := false
        alive := m.service.escaping (m.service.attempt verify build force).1 != some .exit } := by
  unfold Monitored.step
  rw [if_pos h]
  rfl

/-- A destruction. -/
theorem step_destroyer (h : m.alive = true) (destroy : ServiceBody) :
    m.step (.destroyer destroy) =
      match destroy.raises with
      | none => { m with
          service := { destroy.run m.service with destroyed := true, builded := false }
          destroyedSince := true }
      | some _ => { m with service := destroy.run m.service } := by
  unfold Monitored.step BaseService.destroyer
  rw [if_pos h]
  cases hraises : destroy.raises with
  | none => simp [hraises]
  | some e => cases e <;> simp [hraises]

theorem step_status (h : m.alive = true) (value : ServiceStatus) :
    m.step (.status value) =
      { m with service := { m.service with serviceStatus := some value } } := by
  unfold Monitored.step
  rw [if_pos h]

theorem step_callback (h : m.alive = true) (body : ServiceBody) :
    m.step (.callback body) = { m with service := body.run m.service } := by
  unfold Monitored.step
  rw [if_pos h]

/-- What fair events keep. -/
structure FairInv (m : Monitored) : Prop where
  undestroyed : m.service.Usable → m.destroyedSince = false
  status : m.service.Usable → ∃ value, m.service.serviceStatus = some value
  built : m.lastBuild = true → m.destroyedSince = false → m.service.Usable
  fair : ∀ value ∈ m.service.serviceStatus, value.acceptable = true → m.service.Usable →
    m.lastBuild = true

theorem FairInv.sound (h : FairInv m) : Sound m := by
  rw [sound_iff]
  constructor
  · rintro ⟨hstatus, husable⟩
    obtain ⟨value, hvalue⟩ := h.status husable
    have hacc := hstatus value hvalue
    exact ⟨⟨value, hvalue, hacc⟩, h.fair value hvalue hacc husable, h.undestroyed husable⟩
  · rintro ⟨⟨value, hvalue, hacc⟩, hlast, hds⟩
    refine ⟨fun v hv => ?_, h.built hlast hds⟩
    rw [hvalue] at hv
    cases hv
    exact hacc

/-- A status that is set fairly keeps the invariant. -/
theorem FairInv.setStatus (h : FairInv m) {s : BaseService} {status : Option ServiceStatus}
    (hs : s.serviceStatus = status.or m.service.serviceStatus)
    (husable : s.Usable ↔ m.service.Usable) (hfair : SetsFairly m status) :
    FairInv { m with service := s } where
  undestroyed hu := h.undestroyed (husable.mp hu)
  status hu := by
    obtain ⟨value, hvalue⟩ := h.status (husable.mp hu)
    cases status with
    | none => exact ⟨value, hs.trans hvalue⟩
    | some v => exact ⟨v, hs⟩
  built hlast hds := husable.mpr (h.built hlast hds)
  fair value hvalue hacc hu := by
    rw [hs] at hvalue
    cases status with
    | none => exact h.fair value hvalue hacc (husable.mp hu)
    | some v => exact hfair value hvalue hacc (husable.mp hu)

/-- A service whose status is not acceptable after a failed attempt is as it should be. -/
theorem fairInv_failed {s : BaseService} {alive : Bool}
    (h : s.Usable → ∃ value, s.serviceStatus = some value ∧ value.acceptable = false) :
    FairInv ⟨s, false, false, alive⟩ where
  undestroyed _ := rfl
  status hu := by
    obtain ⟨value, hvalue, -⟩ := h hu
    exact ⟨value, hvalue⟩
  built hlast _ := nomatch hlast
  fair value hvalue hacc hu := by
    obtain ⟨v, hv, hbad⟩ := h hu
    have heq : value = v := Option.some.inj (Eq.trans (Eq.symm hvalue) hv)
    rw [heq, hbad] at hacc
    cases hacc

/-- A usable service with an acceptable status after an acceptable attempt is, too. -/
theorem fairInv_built {s : BaseService} {alive : Bool} (husable : s.Usable)
    {value : ServiceStatus} (hvalue : s.serviceStatus = some value) :
    FairInv ⟨s, true, false, alive⟩ where
  undestroyed _ := rfl
  status _ := ⟨value, hvalue⟩
  built _ _ := husable
  fair _ _ _ _ := rfl

/-- An attempt that ends fairly establishes the invariant, whatever was before. -/
theorem fairInv_concluded (s : BaseService) (exc : Option BuildExc) (alive : Bool)
    (hfair : AttemptFair s exc) :
    FairInv ⟨s.concluded exc, endsAcceptable exc, false, alive⟩ := by
  cases exc with
  | none => exact fairInv_built ⟨rfl, rfl⟩ (show _ = some ServiceStatus.available from rfl)
  | some e =>
    cases e with
    | ok => exact fairInv_built (show s.Usable from hfair) rfl
    | skip => exact fairInv_built (show s.Usable from hfair) rfl
    | failure | abort | warning | notImplemented | other =>
      exact fairInv_failed fun _ => ⟨_, rfl, rfl⟩
    | baseException name => exact fairInv_failed hfair

/-- **One event.** A fair event keeps the invariant. -/
theorem fairInv_step (e : ServiceEvent) (h : FairInv m) (he : EventFair m e) :
    FairInv (m.step e) := by
  cases halive : m.alive with
  | false =>
    rw [step_of_dead halive]
    exact h
  | true =>
    have he := he halive
    cases e with
    | builder verify build force =>
      rw [step_builder halive]
      exact fairInv_concluded _ _ _ he
    | destroyer destroy =>
      rw [step_destroyer halive]
      cases hraises : destroy.raises with
      | none => exact ⟨fun hu => (nomatch hu.1), fun hu => (nomatch hu.1),
          fun _ hds => (nomatch hds), fun _ _ _ hu => (nomatch hu.1)⟩
      | some exc =>
        rcases he with hnone | hfair
        · rw [hraises] at hnone
          cases hnone
        · exact h.setStatus rfl Iff.rfl hfair
    | status value =>
      rw [step_status halive]
      exact h.setStatus (s := { m.service with serviceStatus := some value })
        (show some value = (some value).or _ from rfl) Iff.rfl he
    | callback body =>
      rw [step_callback halive]
      exact h.setStatus rfl Iff.rfl he

/-- In a sound state an acceptable status on a usable service means that its last build attempt
ended acceptably. -/
theorem Sound.lastBuild (h : Sound m) {value : ServiceStatus}
    (hvalue : m.service.serviceStatus = some value) (hacc : value.acceptable = true)
    (husable : m.service.Usable) : m.lastBuild = true := by
  refine (((sound_iff.mp h).mp ⟨fun v hv => ?_, husable⟩).2).1
  rw [hvalue] at hv
  cases hv
  exact hacc

/-- A status that leads to a sound state has been set fairly. -/
theorem setsFairly_of_sound {s : BaseService} {status : Option ServiceStatus}
    (hs : s.serviceStatus = status.or m.service.serviceStatus)
    (husable : m.service.Usable → s.Usable) (h : Sound { m with service := s }) :
    SetsFairly m status := by
  intro value hvalue hacc hu
  cases hvalue
  exact h.lastBuild hs hacc (husable hu)

/-- An attempt that leads to a sound state has been fair. -/
theorem attemptFair_of_sound {s : BaseService} {exc : Option BuildExc} {alive : Bool}
    (h : Sound ⟨s.concluded exc, endsAcceptable exc, false, alive⟩) : AttemptFair s exc := by
  have hiff := sound_iff.mp h
  cases exc with
  | none => trivial
  | some e =>
    cases e with
    | ok => exact (hiff.mpr ⟨⟨.partiallyAvailable, rfl, rfl⟩, rfl, rfl⟩).2
    | skip => exact (hiff.mpr ⟨⟨.worksAlmostAtt, rfl, rfl⟩, rfl, rfl⟩).2
    | failure | abort | warning | notImplemented | other => trivial
    | baseException name =>
      intro hu
      by_contra hno
      have hpass : ∀ value ∈ s.serviceStatus, value.acceptable = true := by
        intro value hvalue
        by_contra hbad
        exact hno ⟨value, hvalue, by simpa using hbad⟩
      exact nomatch (hiff.mp ⟨hpass, hu⟩).2.1

/-- A sound state reached by an event shows that the event was fair. -/
theorem eventFair_of_sound (e : ServiceEvent) (hstep : Sound (m.step e)) : EventFair m e := by
  intro halive
  cases e with
  | builder verify build force =>
    rw [step_builder halive] at hstep
    exact attemptFair_of_sound hstep
  | destroyer destroy =>
    rw [step_destroyer halive] at hstep
    cases hraises : destroy.raises with
    | none => exact .inl hraises
    | some exc =>
      rw [hraises] at hstep
      exact .inr (setsFairly_of_sound (s := destroy.run m.service) rfl id hstep)
  | status value =>
    rw [step_status halive] at hstep
    exact setsFairly_of_sound (s := { m.service with serviceStatus := some value })
      (show some value = (some value).or _ from rfl) id hstep
  | callback body =>
    rw [step_callback halive] at hstep
    exact setsFairly_of_sound (s := body.run m.service) rfl id hstep

end Events

/-! ## Runs -/

/-- A service is sound in every state a run reaches. -/
def SoundRun (m : Monitored) (events : List ServiceEvent) : Prop :=
  ∀ before after, events = before ++ after → Sound (runFrom Monitored.step m before)

/-- **The life of a service.** From its creation a service is sound in every state exactly if
every event is fair. -/
theorem soundRun_iff (sync containerLifecycleScope : Bool) (events : List ServiceEvent) :
    SoundRun (.init sync containerLifecycleScope) events ↔
      Always Monitored.step EventFair (.init sync containerLifecycleScope) events := by
  constructor
  · intro h
    refine always_iff.mpr fun before e after hevents => ?_
    have hreached := h (before ++ [e]) after (by rw [hevents, List.append_assoc]; rfl)
    rw [runFrom_append] at hreached
    exact eventFair_of_sound e hreached
  · rintro h before after rfl
    have hinit : FairInv (.init sync containerLifecycleScope) :=
      ⟨fun hu => (nomatch hu.1), fun hu => (nomatch hu.1), fun hlast => (nomatch hlast),
        fun _ _ _ hu => (nomatch hu.1)⟩
    exact (always_of_inv (Q := fun _ _ => True)
      (fun m e hm he => ⟨trivial, fairInv_step e hm he⟩) hinit h.of_append).2.sound

/-- A first build that ends in `BuildSkipError` leaves a service that nobody may call; a rebuild
that fails after a good one leaves a service that a state message makes callable again. -/
theorem not_soundRun :
    ¬ SoundRun (.init true false) [.builder {} { raises := some .skip } false] ∧
      ¬ SoundRun (.init true false)
        [.builder {} {} false, .builder {} { raises := some .failure } false,
          .status .available] := by
  constructor
  · intro h
    have hsound := (h [.builder {} { raises := some .skip } false] [] rfl).passes_iff "send"
    revert hsound
    decide
  · intro h
    have hsound := (h [.builder {} {} false, .builder {} { raises := some .failure } false,
      .status .available] [] rfl).failed_rejects rfl "send"
    revert hsound
    decide

end Notifyr
