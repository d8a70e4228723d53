import Notifyr.Theory.Dict
import Notifyr.Theory.StableSort

/-!
# The decorators of a route

`UsePermission`, `UseHandler`, `UsePipe`, `UseGuard`, `UseInterceptor` and `UseLimiter` of
`app/definition/_ressource.py`, and how the endpoint of a route is built from those applied to
its method and its class.

- `Endpoint`: a coroutine on the keyword arguments of a request; it may change the world, and
  what it runs is recorded.
- `Wrapping`: the code of a handler or an interceptor, which calls the function it is given as
  often as it likes and turns on what comes back.
- `Use`: one decorator with its functions; `Use.wrapper`, `Use.priority`.
- `stackCallback`: `_stack_callback`.
- `Ressource.built`: the endpoints of a class, with the rate limits of `_set_rate_limit`.
-/

namespace Notifyr

open Theory

/-- The detail of an `HTTPException`: a text, or a dictionary with a message. -/
inductive HttpDetail
  | text (s : String)
  | message (s : String)
  deriving DecidableEq, Repr

/-- The arguments of an `HTTPException`. -/
structure HttpError where
  statusCode : Nat
  detail : Option HttpDetail := none
  headers : Option (List (String × String)) := none
  deriving DecidableEq, Repr

/-- The kinds of decorator that have a default exception of their own. -/
inductive DecoratorKind
  | permission
  | handler
  | pipe
  | guard
  | interceptor
  deriving DecidableEq, Repr

/-- A `DecoratorException`; a `response` that is no `Response` counts as none. -/
structure DecoratorException (V : Type) where
  statusCode : Option Nat := none
  details : Option HttpDetail := none
  headers : Option (List (String × String)) := none
  response : Option V := none

/-- The exceptions the layers tell apart. -/
inductive RouteExc (V : Type)
  | default (kind : DecoratorKind) (e : DecoratorException V)
  | http (e : HttpError)
  | skipCode (result : V) (isReturn : Bool)
  | other (name : String)

/-- The keyword arguments of a request. -/
abbrev Kwargs (V : Type) := Dict String V

/-- `SpecialKeyParameterConstant`. -/
def classNameKey : String := "class_name"

def metaKey : String := "func_meta"

/-- The layers whose functions let a request through or not. -/
inductive GateKind
  | permission
  | pipe
  | guard
  deriving DecidableEq, Repr

/-- The layers whose functions call what they wrap. -/
inductive WrapKind
  | limiter
  | handler
  | interceptor
  deriving DecidableEq, Repr

/-- What is recorded of a request. -/
inductive LayerEvent
  /-- A permission, a before-pipe or a guard was asked, and let the request through or not. -/
  | asked (kind : GateKind) (id : Nat) (passed : Bool)
  /-- The rate limiter, a handler or an interceptor was called. -/
  | entered (kind : WrapKind) (id : Nat)
  | afterPipe (id : Nat)
  /-- The endpoint itself. -/
  | endpoint
  deriving DecidableEq, Repr

/-- The end of a call. -/
structure Ran (σ V : Type) where
  trace : List LayerEvent
  outcome : Except (RouteExc V) V
  world : σ

/-- A coroutine on the keyword arguments of a request. -/
abbrev Endpoint (σ V : Type) := Kwargs V → σ → Ran σ V

section Layers

variable {σ V : Type}

/-- The same end, with something recorded before. -/
def Ran.since (t : List LayerEvent) (r : Ran σ V) : Ran σ V := { r with trace := t ++ r.trace }

/-- `try`: an exception is settled by `except`. -/
def Ran.settled (except : RouteExc V → Except (RouteExc V) V) (r : Ran σ V) : Ran σ V :=
  match r.outcome with
  | .ok _ => r
  | .error e => { r with outcome := except e }

/-- The `except` clause of every decorator: the response of its own default exception is
returned; otherwise an `HTTPException` is raised, from the exception's status code, the default
error or `fallback`. -/
def settle (kind : DecoratorKind) (defaultError : Option HttpError) (fallback : HttpError) :
    RouteExc V → Except (RouteExc V) V
  | .default k e =>
    if k = kind then
      match e.response with
      | some response => .ok response
      | none =>
        match e.statusCode with
        | some code => .error (.http ⟨code, e.details, e.headers⟩)
        | none => .error (.http (defaultError.getD fallback))
    else .error (.default k e)
  | e => .error e

/-- A function given to a decorator, with a number to tell it by. -/
structure Fn (τ : Type) where
  id : Nat
  call : τ

/-! ## Gates -/

/-- What a gate decides: go on, with these arguments, or end the call so. -/
inductive Verdict (V : Type)
  | pass (kwargs : Kwargs V)
  | stop (outcome : Except (RouteExc V) V)

abbrev Gate (σ V : Type) := Fn (Kwargs V → σ → Verdict V × σ)

/-- The loop over the functions of a decorator, and then the call of the function it wraps. -/
def gateLoop (kind : GateKind) (f : Endpoint σ V) : List (Gate σ V) → Endpoint σ V
  | [], kwargs, w => f kwargs w
  | g :: gs, kwargs, w =>
    match g.call kwargs w with
    | (.pass kwargs, w) => (gateLoop kind f gs kwargs w).since [.asked kind g.id true]
    | (.stop outcome, w) => ⟨[.asked kind g.id false], outcome, w⟩

/-- A permission, on the arguments; the class name and the metadata of the route, which it is
given as well, are constants. -/
abbrev PermissionFn (σ V : Type) := Fn (Kwargs V → σ → Except (RouteExc V) Bool × σ)

/-- A permission in the loop of `UsePermission`. -/
def permissionGate (defaultError : Option HttpError) (p : PermissionFn σ V) : Gate σ V where
  id := p.id
  call kwargs w :=
    let out := p.call kwargs w
    match out.1 with
    | .ok true => (.pass kwargs, out.2)
    | .ok false => (.stop (.error (.http { statusCode := 403 })), out.2)
    | .error e => (.stop (settle .permission defaultError { statusCode := 501 } e), out.2)

/-- What a guard returns: a flag and a message, or something else. -/
inductive GuardAnswer
  | answer (flag : Bool) (message : String)
  | malformed
  deriving DecidableEq, Repr

abbrev GuardFn (σ V : Type) := Fn (Kwargs V → σ → Except (RouteExc V) GuardAnswer × σ)

/-- A guard in the loop of `UseGuard`. -/
def guardGate (defaultError : Option HttpError) (g : GuardFn σ V) : Gate σ V where
  id := g.id
  call kwargs w :=
    let out := g.call kwargs w
    match out.1 with
    | .ok (.answer true _) => (.pass kwargs, out.2)
    | .ok (.answer false message) =>
      (.stop (.error (.http { statusCode := 401, detail := some (.text message) })), out.2)
    | .ok .malformed => (.stop (.error (.http { statusCode := 501 })), out.2)
    | .error e =>
      (.stop (settle .guard defaultError
        { statusCode := 401, detail := some (.text "Request Validation Aborted") } e), out.2)

/-- What a before-pipe returns. -/
inductive PipeAnswer (V : Type)
  | nothing
  | update (result : Kwargs V)
  | malformed

abbrev PipeFn (σ V : Type) := Fn (Kwargs V → σ → Except (RouteExc V) (PipeAnswer V) × σ)

/-- `kwargs.update(result)`. -/
def updateKwargs (kwargs result : Kwargs V) : Kwargs V :=
  result.entries.foldl (fun d e => d.set e.1 e.2) kwargs

/-- A pipe in the loop of `UsePipe`; the `try` of `UsePipe` is around the loop and the call. -/
def pipeGate (p : PipeFn σ V) : Gate σ V where
  id := p.id
  call kwargs w :=
    let out := p.call kwargs w
    match out.1 with
    | .ok .nothing => (.pass kwargs, out.2)
    | .ok (.update result) => (.pass (updateKwargs kwargs result), out.2)
    | .ok .malformed => (.stop (.error (.default .pipe {})), out.2)
    | .error e => (.stop (.error e), out.2)

/-- An after-pipe, on the result and the arguments. -/
abbrev AfterPipeFn (σ V : Type) := Fn (V → Kwargs V → σ → Except (RouteExc V) V × σ)

/-- One after-pipe, on the result of what it follows. -/
def afterOne (f : Endpoint σ V) (p : AfterPipeFn σ V) : Endpoint σ V := fun kwargs w =>
  let r := f kwargs w
  match r.outcome with
  | .error _ => r
  | .ok v =>
    let out := p.call v kwargs r.world
    ⟨r.trace ++ [.afterPipe p.id], out.1, out.2⟩

/-! ## Handlers and interceptors -/

/-- The code of a handler or an interceptor, from where it stands: it has ended, or it calls the
function it wraps and goes on from what comes back. -/
inductive Wrapping (σ V : Type) : Type
  | ended (w : σ) (outcome : Except (RouteExc V) V)
  | calls (w : σ) (kwargs : Kwargs V) (k : Except (RouteExc V) V → σ → Wrapping σ V)

/-- Run such code around `f`. -/
def Wrapping.run (f : Endpoint σ V) : Wrapping σ V → Ran σ V
  | .ended w outcome => ⟨[], outcome, w⟩
  | .calls w kwargs k =>
    let r := f kwargs w
    ((k r.outcome r.world).run f).since r.trace

abbrev WrapFn (σ V : Type) := Fn (Kwargs V → σ → Wrapping σ V)

/-- An `Interceptor`, by its two methods. -/
structure Interceptor (σ V : Type) where
  before : Kwargs V → σ → Except (RouteExc V) Unit × σ
  after : V → Kwargs V → σ → Except (RouteExc V) Unit × σ

/-- `intercept`: a `SkipCode` with `_return` ends it, one without is passed over. -/
def Interceptor.intercept (i : Interceptor σ V) (kwargs : Kwargs V) (w : σ) : Wrapping σ V :=
  let call (w : σ) : Wrapping σ V := .calls w (kwargs.erase metaKey) fun outcome w =>
    match outcome with
    | .error e => .ended w (.error e)
    | .ok result =>
      let out := i.after result kwargs w
      match out.1 with
      | .ok () | .error (.skipCode _ false) => .ended out.2 (.ok result)
      | .error (.skipCode r true) => .ended out.2 (.ok r)
      | .error e => .ended out.2 (.error e)
  let out := i.before kwargs w
  match out.1 with
  | .ok () | .error (.skipCode _ false) => call out.2
  | .error (.skipCode r true) => .ended out.2 (.ok r)
  | .error e => .ended out.2 (.error e)

/-- `proxy`. -/
def proxy (kind : WrapKind) (deco : WrapFn σ V) (f : Endpoint σ V) : Endpoint σ V :=
  fun kwargs w => ((deco.call kwargs w).run f).since [.entered kind deco.id]

/-- `Helper.stack_decorator`. -/
def stackDecorator (kind : WrapKind) (exc : DecoratorKind) (fs : List (WrapFn σ V))
    (defaultError : Option HttpError) (injectMeta : Bool) (funcMeta : V) (f : Endpoint σ V) :
    Endpoint σ V := fun kwargs w =>
  if injectMeta && metaKey ∈ kwargs.keys then
    ⟨[], .error (.http { statusCode := 400, detail := some (.message "special key used") }), w⟩
  else
    let kwargs := if injectMeta then kwargs.set metaKey funcMeta else kwargs
    if fs.isEmpty then f kwargs w
    else
      (fs.foldr (proxy kind) f kwargs w).settled <| settle exc defaultError
        { statusCode := 500, detail := some (.text "Could not correctly treat the error") }

/-! ## Decorators -/

/-- The parameters of `UseLimiter` that building the endpoint turns on. -/
structure LimitParams where
  limitValue : String
  scope : Option String := none
  exempt : Bool := false
  deriving DecidableEq, Repr

/-- A decorator, with the functions it is given. -/
inductive Use (σ V : Type)
  | permission (fs : List (PermissionFn σ V)) (defaultError : Option HttpError)
  | handler (fs : List (WrapFn σ V)) (defaultError : Option HttpError)
  /-- `UsePipe(…, before=True)`. -/
  | pipe (fs : List (PipeFn σ V)) (defaultError : Option HttpError)
  /-- `UsePipe(…, before=False)`. -/
  | afterPipe (fs : List (AfterPipeFn σ V)) (defaultError : Option HttpError)
  | guard (fs : List (GuardFn σ V)) (defaultError : Option HttpError)
  | interceptor (fs : List (WrapFn σ V)) (defaultError : Option HttpError) (injectMeta : Bool)
  | limiter (limit : LimitParams)

/-- What the decorators use of the process. -/
structure App (σ V : Type) where
  /-- `configService.SECURITY_FLAG`. -/
  securityFlag : Bool
  /-- `Helper.response_decorator`, on a result. -/
  respond : V → Kwargs V → Except (RouteExc V) V
  /-- The exception `UseLimiter` raises for an `HTTPException`, with the headers of the limit. -/
  limitHeaders : HttpError → Kwargs V → RouteExc V
  /-- The code `GlobalLimiter.limit` and `GlobalLimiter.shared_limit` put around a function. -/
  globalLimiter : LimitParams → Kwargs V → σ → Wrapping σ V

variable (app : App σ V) (funcMeta : V)

/-- The `wrapper` of `UsePermission`. -/
def usePermission (fs : List (PermissionFn σ V)) (defaultError : Option HttpError)
    (f : Endpoint σ V) : Endpoint σ V := fun kwargs w =>
  if !app.securityFlag then f kwargs w
  else if fs.isEmpty then f kwargs w
  else if kwargs.entries.length < 1 then ⟨[], .error (.http { statusCode := 501 }), w⟩
  else if metaKey ∈ kwargs.keys ∨ classNameKey ∈ kwargs.keys then
    ⟨[], .error (.http { statusCode := 400, detail := some (.message "special key used") }), w⟩
  else gateLoop .permission f (fs.map (permissionGate defaultError)) kwargs w

/-- The `wrapper` of `UseGuard`. -/
def useGuard (fs : List (GuardFn σ V)) (defaultError : Option HttpError) (f : Endpoint σ V) :
    Endpoint σ V :=
  if fs.isEmpty then f else gateLoop .guard f (fs.map (guardGate defaultError))

/-- The `wrapper` of `UsePipe` with `before=True`. -/
def usePipe (fs : List (PipeFn σ V)) (defaultError : Option HttpError) (f : Endpoint σ V) :
    Endpoint σ V := fun kwargs w =>
  (gateLoop .pipe f (fs.map pipeGate) kwargs w).settled
    (settle .pipe defaultError { statusCode := 500 })

/-- The `wrapper` of `UsePipe` with `before=False`. -/
def useAfterPipe (fs : List (AfterPipeFn σ V)) (defaultError : Option HttpError)
    (f : Endpoint σ V) : Endpoint σ V := fun kwargs w =>
  (fs.foldl afterOne f kwargs w).settled (settle .pipe defaultError { statusCode := 500 })

/-- The `wrapper` of `UseLimiter`. -/
def useLimiter (f : Endpoint σ V) : Endpoint σ V := fun kwargs w =>
  let r := f kwargs w
  { r with
    outcome :=
      match r.outcome >>= fun v => app.respond v kwargs with
      | .error (.http e) => .error (app.limitHeaders e kwargs)
      | outcome => outcome }

/-- The `wrapper` of a decorator. -/
def Use.wrapper : Use σ V → Endpoint σ V → Endpoint σ V
  | .permission fs defaultError => usePermission app fs defaultError
  | .handler fs defaultError => stackDecorator .handler .handler fs defaultError false funcMeta
  | .pipe fs defaultError => usePipe fs defaultError
  | .afterPipe fs defaultError => useAfterPipe fs defaultError
  | .guard fs defaultError => useGuard fs defaultError
  | .interceptor fs defaultError injectMeta =>
    stackDecorator .interceptor .interceptor fs defaultError injectMeta funcMeta
  | .limiter _ => useLimiter app

/-- `priority.value + touch`, in halves. -/
def Use.priority : Use σ V → Nat
  | .limiter _ => 0
  | .permission _ _ => 2
  | .handler _ _ => 4
  | .pipe _ _ => 6
  | .afterPipe _ _ => 7
  | .guard _ _ => 8
  | .interceptor _ _ _ => 10

/-- `_stack_callback`, for the decorators of a method in the order they are applied. -/
def stackCallback (uses : List (Use σ V)) (c : Endpoint σ V) : Endpoint σ V :=
  (sortByKey Use.priority uses).foldl (fun c u => u.wrapper app funcMeta c) c

/-! ## A class of routes -/

/-- A decorator as it is written: one that is not mounted does nothing. -/
structure Decorator (σ V : Type) where
  use : Use σ V
  mount : Bool := true

/-- What `common_class_decorator` passes on to each method. -/
def Use.atClass : Use σ V → Use σ V
  | .permission fs _ => .permission fs none
  | .limiter limit => .limiter { limit with scope := none, exempt := false }
  | u => u

/-- A route: its metadata, its decorators from the innermost line outwards, and its method. -/
structure Route (σ V : Type) where
  funcMeta : V
  decorators : List (Decorator σ V)
  method : Kwargs V → σ → Except (RouteExc V) V × σ

/-- A class: its routes in the order of `ROUTES`, and its own decorators. -/
structure Ressource (σ V : Type) where
  routes : List (Route σ V)
  decorators : List (Decorator σ V)

/-- The method as an endpoint. -/
def Route.endpoint (route : Route σ V) : Endpoint σ V := fun kwargs w =>
  let out := route.method kwargs w
  ⟨[.endpoint], out.1, out.2⟩

/-- The decorators applied to a route, in order: its own, then those of its class. -/
def Ressource.applied (R : Ressource σ V) (route : Route σ V) : List (Use σ V) :=
  (route.decorators.filter Decorator.mount).map Decorator.use ++
    (R.decorators.filter Decorator.mount).map fun d => d.use.atClass

/-- `meta['limit_obj']`: that of the decorator applied last. -/
def limitObj (uses : List (Use σ V)) : Option LimitParams :=
  (uses.filterMap fun
    | .limiter limit => some limit
    | _ => none).getLast?

/-- `_set_rate_limit`: the limit put around each route. The first exempt route ends the loop. -/
def setRateLimit : List (Option LimitParams) → List (Option LimitParams)
  | [] => []
  | none :: rest => none :: setRateLimit rest
  | some limit :: rest =>
    if limit.exempt then none :: rest.map fun _ => none else some limit :: setRateLimit rest

/-- A function with the limit that is put around it. -/
def rateLimited (limit : Option LimitParams) (f : Endpoint σ V) : Endpoint σ V :=
  match limit with
  | none => f
  | some limit => fun kwargs w =>
    ((app.globalLimiter limit kwargs w).run f).since [.entered .limiter 0]

/-- The limits of the routes of a class. -/
def Ressource.limits (R : Ressource σ V) : List (Option LimitParams) :=
  setRateLimit (R.routes.map fun route => limitObj (R.applied route))

/-- The endpoints of a class as they are added to its router. -/
def Ressource.built (R : Ressource σ V) : List (Endpoint σ V) :=
  List.zipWith (fun route limit =>
    rateLimited app limit (stackCallback app route.funcMeta (R.applied route) route.endpoint))
    R.routes R.limits

end Layers

end Notifyr
