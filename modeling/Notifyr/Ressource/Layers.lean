import Notifyr.Ressource.Decorators
import Notifyr.Theory.Runs

/-!
# The order of the layers of a route

What stands in front of each part of an endpoint that `stackCallback` has built, whatever the
decorators, the order they are applied in and the functions they are given.

- `layersOf`: the gates and the wrapping functions of the decorators of a route.
- `Cleared`: what must have happened before something runs at a level: every gate further out
  was asked last with the outcome that lets through, every wrapping function further out was
  called.
- `Clears`: the invariant of the fold over the decorators, from the innermost outwards.
- `built_sound`: the order of the layers of every route.
-/

namespace Notifyr

open Theory

/-! ## Levels -/

/-- The priority of the decorator of a gate. -/
def GateKind.level : GateKind → Nat
  | permission => 2
  | pipe => 6
  | guard => 8

def WrapKind.level : WrapKind → Nat
  | limiter => 0
  | handler => 4
  | interceptor => 10

/-- How far in something runs. An after-pipe runs where its decorator stands, around the guards,
the interceptors and the endpoint. -/
def LayerEvent.level : LayerEvent → Nat
  | .asked kind _ _ => kind.level
  | .entered kind _ => kind.level
  | .afterPipe _ => 7
  | .endpoint => 12

/-- The levels with the after-pipes inside everything else. -/
def LayerEvent.innermostAfter : LayerEvent → Nat
  | .afterPipe _ => 14
  | e => e.level

/-- What an event says of a gate. -/
def LayerEvent.verdict (kind : GateKind) (id : Nat) : LayerEvent → Option Bool
  | .asked k i passed => if k = kind ∧ i = id then some passed else none
  | _ => none

/-- What a gate answered last. -/
def lastVerdict (g : GateKind × Nat) (t : List LayerEvent) : Option Bool :=
  (t.filterMap (LayerEvent.verdict g.1 g.2)).getLast?

/-- Gates and wrapping functions, by their kinds and numbers. -/
structure Layers where
  gates : List (GateKind × Nat)
  wraps : List (WrapKind × Nat)
  deriving DecidableEq, Repr

/-- Before `e`, every gate further out has let through when it was asked last, and every wrapping
function further out has been called. -/
structure Cleared (level : LayerEvent → Nat) (L : Layers) (before : List LayerEvent)
    (e : LayerEvent) : Prop where
  gates : ∀ g ∈ L.gates, g.1.level < level e → lastVerdict g before = some true
  wraps : ∀ x ∈ L.wraps, x.1.level < level e → .entered x.1 x.2 ∈ before

section Levels

variable {level : LayerEvent → Nat} {L : Layers} {s t : List LayerEvent} {e : LayerEvent}
  {g : GateKind × Nat}

theorem lastVerdict_append (g : GateKind × Nat) (s t : List LayerEvent) :
    lastVerdict g (s ++ t) = (lastVerdict g t).or (lastVerdict g s) := by
  unfold lastVerdict
  rw [List.filterMap_append, List.getLast?_append]

/-- A gate that has answered has been asked. -/
theorem asked_of_lastVerdict {passed : Bool} (h : lastVerdict g t = some passed) :
    ∃ b, .asked g.1 g.2 b ∈ t := by
  obtain ⟨e, he, hv⟩ := List.mem_filterMap.mp (List.mem_of_getLast? h)
  cases e with
  | asked k i b =>
    by_cases hki : k = g.1 ∧ i = g.2
    · obtain ⟨rfl, rfl⟩ := hki
      exact ⟨b, he⟩
    · simp [LayerEvent.verdict, hki] at hv
  | entered | afterPipe | endpoint => cases hv

/-- More before an event does no harm. -/
theorem Cleared.since (h : Cleared level L t e) (s : List LayerEvent) :
    Cleared level L (s ++ t) e where
  gates g hg hlt := by
    rw [lastVerdict_append, h.gates g hg hlt]
    rfl
  wraps x hx hlt := List.mem_append_right _ (h.wraps x hx hlt)

theorem AtEach.append_cleared (hs : AtEach (Cleared level L) s) (ht : AtEach (Cleared level L) t) :
    AtEach (Cleared level L) (s ++ t) :=
  hs.append (fun _ before' _ h => h.since before') ht

end Levels

/-! ## One layer around another -/

section Clears

variable {σ V : Type} {L : Layers} {ℓ : Nat} {f : Endpoint σ V}

/-- Whatever an endpoint runs is cleared of `L`, whose gates are the only ones it asks; and `L`
lies at `ℓ` or further in. -/
structure Clears (L : Layers) (ℓ : Nat) (f : Endpoint σ V) : Prop where
  cleared : ∀ kwargs w, AtEach (Cleared LayerEvent.level L) (f kwargs w).trace
  asked : ∀ kwargs w kind id b, .asked kind id b ∈ (f kwargs w).trace → (kind, id) ∈ L.gates
  gate_level : ∀ g ∈ L.gates, ℓ ≤ g.1.level
  wrap_level : ∀ x ∈ L.wraps, ℓ ≤ x.1.level

theorem Clears.mono {ℓ' : Nat} (h : Clears L ℓ f) (hle : ℓ' ≤ ℓ) : Clears L ℓ' f where
  cleared := h.cleared
  asked := h.asked
  gate_level g hg := hle.trans (h.gate_level g hg)
  wrap_level x hx := hle.trans (h.wrap_level x hx)

/-- Only what is in `L` matters. -/
theorem Clears.perm {L' : Layers} (h : Clears L ℓ f) (hgates : ∀ g, g ∈ L.gates ↔ g ∈ L'.gates)
    (hwraps : ∀ x, x ∈ L.wraps ↔ x ∈ L'.wraps) : Clears L' ℓ f where
  cleared kwargs w := (h.cleared kwargs w).imp fun _ _ _ he =>
    ⟨fun g hg => he.gates g ((hgates g).mpr hg), fun x hx => he.wraps x ((hwraps x).mpr hx)⟩
  asked kwargs w kind id b hb := (hgates _).mp (h.asked kwargs w kind id b hb)
  gate_level g hg := h.gate_level g ((hgates g).mpr hg)
  wrap_level x hx := h.wrap_level x ((hwraps x).mpr hx)

/-- Only what a coroutine records matters. -/
theorem Clears.congr {f' : Endpoint σ V} (h : Clears L ℓ f)
    (htrace : ∀ kwargs w, (f' kwargs w).trace = (f kwargs w).trace ∨ (f' kwargs w).trace = []) :
    Clears L ℓ f' where
  cleared kwargs w := by
    rcases htrace kwargs w with ht | ht
    · rw [ht]
      exact h.cleared kwargs w
    · rw [ht]
      exact atEach_nil
  asked kwargs w kind id b hb := by
    rcases htrace kwargs w with ht | ht
    · exact h.asked kwargs w kind id b (ht ▸ hb)
    · rw [ht] at hb
      cases hb
  gate_level := h.gate_level
  wrap_level := h.wrap_level

@[simp] theorem settled_trace (except : RouteExc V → Except (RouteExc V) V) (r : Ran σ V) :
    (r.settled except).trace = r.trace := by
  unfold Ran.settled
  split <;> rfl

/-- Nothing further out than an event at or outside the level of `L` is in `L`. -/
theorem Clears.cleared_of_le (h : Clears L ℓ f) {e : LayerEvent} (he : e.level ≤ ℓ)
    (before : List LayerEvent) : Cleared LayerEvent.level L before e where
  gates g hg hlt := absurd hlt (he.trans (h.gate_level g hg)).not_gt
  wraps x hx hlt := absurd hlt (he.trans (h.wrap_level x hx)).not_gt

/-- The endpoint itself. -/
theorem clears_endpoint (route : Route σ V) : Clears ⟨[], []⟩ 12 route.endpoint where
  cleared _ _ := atEach_cons ⟨nofun, nofun⟩ atEach_nil
  asked _ _ _ _ _ h := by
    rcases List.mem_cons.mp h with h | h <;> cases h
  gate_level := nofun
  wrap_level := nofun

/-- **A loop over gates.** -/
theorem Clears.gated {kind : GateKind} (h : Clears L ℓ f) (hle : kind.level ≤ ℓ)
    (gs : List (Gate σ V)) :
    Clears ⟨(gs.map fun g => (kind, g.id)) ++ L.gates, L.wraps⟩ kind.level
      (gateLoop kind f gs) := by
  induction gs with
  | nil => exact h.mono hle
  | cons g gs ih =>
    have hnew : ∀ e : LayerEvent, e.level ≤ kind.level → ∀ before,
        Cleared LayerEvent.level
          ⟨((g :: gs).map fun g => (kind, g.id)) ++ L.gates, L.wraps⟩ before e := by
      intro e he before
      constructor
      · intro x hx hlt
        rcases List.mem_cons.mp hx with rfl | hx
        · exact absurd hlt he.not_gt
        · exact (ih.cleared_of_le he before).gates x hx hlt
      · exact fun x hx hlt => (ih.cleared_of_le he before).wraps x hx hlt
    refine ⟨fun kwargs w => ?_, fun kwargs w k i b hb => ?_, fun x hx => ?_, ih.wrap_level⟩
    · unfold gateLoop
      rcases hg : g.call kwargs w with ⟨v, w'⟩
      cases v with
      | stop outcome => exact atEach_cons (hnew _ le_rfl _) atEach_nil
      | pass kwargs' =>
        refine atEach_cons (hnew _ le_rfl _) ((ih.cleared kwargs' w').imp ?_)
        intro before e hsub he
        have he' := he.since [.asked kind g.id true]
        constructor
        · intro x hx hlt
          by_cases hmem : x ∈ (gs.map fun g => (kind, g.id)) ++ L.gates
          · exact he'.gates x hmem hlt
          -- asked last by this gate itself
          rcases List.mem_cons.mp hx with rfl | hx
          · have hnone : lastVerdict (kind, g.id) before = none := by
              by_contra hne
              obtain ⟨b, hb⟩ := Option.ne_none_iff_exists'.mp hne
              obtain ⟨b', hb'⟩ := asked_of_lastVerdict hb
              exact hmem (ih.asked kwargs' w' kind g.id b' (hsub _ hb'))
            show lastVerdict (kind, g.id) ([.asked kind g.id true] ++ before) = some true
            rw [lastVerdict_append, hnone]
            simp [lastVerdict, LayerEvent.verdict]
          · exact absurd hx hmem
        · exact he'.wraps
    · unfold gateLoop at hb
      rcases hg : g.call kwargs w with ⟨v, w'⟩
      rw [hg] at hb
      cases v with
      | stop outcome =>
        rw [List.mem_singleton] at hb
        cases hb
        exact List.mem_cons_self
      | pass kwargs' =>
        rcases List.mem_cons.mp hb with hb | hb
        · cases hb
          exact List.mem_cons_self
        · exact List.mem_cons_of_mem _ (ih.asked kwargs' w' k i b hb)
    · rcases List.mem_cons.mp hx with rfl | hx
      · exact le_rfl
      · exact ih.gate_level x hx

/-- What runs in the code of a handler or an interceptor is what the calls it makes run. -/
theorem Clears.wrapping (h : Clears L ℓ f) (x : Wrapping σ V) :
    AtEach (Cleared LayerEvent.level L) (x.run f).trace ∧
      ∀ kind id b, .asked kind id b ∈ (x.run f).trace → (kind, id) ∈ L.gates := by
  induction x with
  | ended w outcome => exact ⟨atEach_nil, nofun⟩
  | calls w kwargs k ih =>
    obtain ⟨hcleared, hasked⟩ := ih (f kwargs w).outcome (f kwargs w).world
    refine ⟨AtEach.append_cleared (h.cleared kwargs w) hcleared, fun kind id b hb => ?_⟩
    rcases List.mem_append.mp hb with hb | hb
    · exact h.asked kwargs w kind id b hb
    · exact hasked kind id b hb

/-- **A function that calls what it wraps.** -/
theorem Clears.entered {kind : WrapKind} (h : Clears L ℓ f) (hle : kind.level ≤ ℓ) (id : Nat)
    (code : Kwargs V → σ → Wrapping σ V) :
    Clears ⟨L.gates, (kind, id) :: L.wraps⟩ kind.level
      (fun kwargs w => ((code kwargs w).run f).since [.entered kind id]) where
  cleared kwargs w := by
    refine atEach_cons ⟨fun g hg hlt => ?_, fun x hx hlt => ?_⟩
      ((h.wrapping (code kwargs w)).1.imp fun before e _ he => ?_)
    · exact absurd hlt (hle.trans (h.gate_level g hg)).not_gt
    · rcases List.mem_cons.mp hx with rfl | hx
      · exact absurd hlt (lt_irrefl _)
      · exact absurd hlt (hle.trans (h.wrap_level x hx)).not_gt
    · have he' := he.since [.entered kind id]
      refine ⟨he'.gates, fun x hx hlt => ?_⟩
      rcases List.mem_cons.mp hx with rfl | hx
      · exact List.mem_cons_self
      · exact he'.wraps x hx hlt
  asked kwargs w k i b hb := by
    rcases List.mem_cons.mp hb with hb | hb
    · cases hb
    · exact (h.wrapping (code kwargs w)).2 k i b hb
  gate_level g hg := hle.trans (h.gate_level g hg)
  wrap_level x hx := by
    rcases List.mem_cons.mp hx with rfl | hx
    · exact le_rfl
    · exact hle.trans (h.wrap_level x hx)

theorem Clears.proxies {kind : WrapKind} (h : Clears L ℓ f) (hle : kind.level ≤ ℓ)
    (fs : List (WrapFn σ V)) :
    Clears ⟨L.gates, (fs.map fun d => (kind, d.id)) ++ L.wraps⟩ kind.level
      (fs.foldr (proxy kind) f) := by
  induction fs with
  | nil => exact h.mono hle
  | cons d fs ih => exact ih.entered le_rfl d.id d.call

theorem Clears.stacked {kind : WrapKind} (h : Clears L ℓ f) (hle : kind.level ≤ ℓ)
    (exc : DecoratorKind) (fs : List (WrapFn σ V)) (defaultError : Option HttpError)
    (injectMeta : Bool) (funcMeta : V) :
    Clears ⟨L.gates, (fs.map fun d => (kind, d.id)) ++ L.wraps⟩ kind.level
      (stackDecorator kind exc fs defaultError injectMeta funcMeta f) := by
  have hproxies := h.proxies hle fs
  have htrace : ∀ kwargs w, ∃ kwargs',
      (stackDecorator kind exc fs defaultError injectMeta funcMeta f kwargs w).trace =
          (fs.foldr (proxy kind) f kwargs' w).trace ∨
        (stackDecorator kind exc fs defaultError injectMeta funcMeta f kwargs w).trace = [] := by
    intro kwargs w
    unfold stackDecorator
    split
    · exact ⟨kwargs, .inr rfl⟩
    · refine ⟨if injectMeta then kwargs.set metaKey funcMeta else kwargs, .inl ?_⟩
      cases fs with
      | nil => rfl
      | cons d fs => exact settled_trace _ _
  refine ⟨fun kwargs w => ?_, fun kwargs w k i b hb => ?_, hproxies.gate_level,
    hproxies.wrap_level⟩
  · obtain ⟨kwargs', ht | ht⟩ := htrace kwargs w
    · rw [ht]
      exact hproxies.cleared kwargs' w
    · rw [ht]
      exact atEach_nil
  · obtain ⟨kwargs', ht | ht⟩ := htrace kwargs w
    · exact hproxies.asked kwargs' w k i b (ht ▸ hb)
    · rw [ht] at hb
      cases hb

/-- **An after-pipe**, around what lies further in than its decorator. -/
theorem Clears.afterPipe (h : Clears L ℓ f) (hle : 7 ≤ ℓ) (p : AfterPipeFn σ V) :
    Clears L 7 (afterOne f p) := by
  have htrace : ∀ kwargs w, (afterOne f p kwargs w).trace = (f kwargs w).trace ∨
      (afterOne f p kwargs w).trace = (f kwargs w).trace ++ [.afterPipe p.id] := by
    intro kwargs w
    unfold afterOne
    simp only
    split
    · exact .inl rfl
    · exact .inr rfl
  refine ⟨fun kwargs w => ?_, fun kwargs w k i b hb => ?_, (h.mono hle).gate_level,
    (h.mono hle).wrap_level⟩
  · rcases htrace kwargs w with ht | ht
    · rw [ht]
      exact h.cleared kwargs w
    · rw [ht]
      exact AtEach.append_cleared (h.cleared kwargs w)
        (atEach_cons (h.cleared_of_le (e := .afterPipe p.id) hle _) atEach_nil)
  · rcases htrace kwargs w with ht | ht
    · exact h.asked kwargs w k i b (ht ▸ hb)
    · rw [ht] at hb
      rcases List.mem_append.mp hb with hb | hb
      · exact h.asked kwargs w k i b hb
      · rw [List.mem_singleton] at hb
        cases hb

theorem Clears.afterPipes (h : Clears L ℓ f) (hle : 7 ≤ ℓ) (fs : List (AfterPipeFn σ V)) :
    Clears L 7 (fs.foldl afterOne f) := by
  induction fs generalizing f ℓ with
  | nil => exact h.mono hle
  | cons p fs ih => exact ih (h.afterPipe hle p) le_rfl

end Clears

/-! ## All the decorators of a route -/

section Stack

variable {σ V : Type} (app : App σ V) (funcMeta : V) {L : Layers} {ℓ : Nat} {c : Endpoint σ V}

/-- The gates of a decorator; without `SECURITY_FLAG` a permission is not asked. -/
def Use.gates : Use σ V → List (GateKind × Nat)
  | .permission fs _ => if app.securityFlag then fs.map fun p => (.permission, p.id) else []
  | .pipe fs _ => fs.map fun p => (.pipe, p.id)
  | .guard fs _ => fs.map fun g => (.guard, g.id)
  | _ => []

/-- Its wrapping functions. -/
def Use.wraps : Use σ V → List (WrapKind × Nat)
  | .handler fs _ => fs.map fun d => (.handler, d.id)
  | .interceptor fs _ _ => fs.map fun d => (.interceptor, d.id)
  | _ => []

/-- The gates and the wrapping functions of a route, with its rate limit. -/
def layersOf (uses : List (Use σ V)) (limit : Option LimitParams) : Layers where
  gates := uses.flatMap (Use.gates app)
  wraps := (limit.toList.map fun _ => (.limiter, 0)) ++ uses.flatMap Use.wraps

/-- **One decorator around what lies further in.** -/
theorem Use.clears (u : Use σ V) (h : Clears L ℓ c) (hle : u.priority ≤ ℓ) :
    Clears ⟨u.gates app ++ L.gates, u.wraps ++ L.wraps⟩ u.priority
      (u.wrapper app funcMeta c) := by
  cases u with
  | permission fs defaultError =>
    have hloop := h.gated (show GateKind.permission.level ≤ ℓ from hle)
      (fs.map (permissionGate defaultError))
    show Clears ⟨(if app.securityFlag then _ else []) ++ L.gates, L.wraps⟩ 2
      (usePermission app fs defaultError c)
    cases hflag : app.securityFlag with
    | false =>
      refine (h.mono hle).congr fun kwargs w => .inl ?_
      unfold usePermission
      rw [hflag]
      rfl
    | true =>
      rw [List.map_map] at hloop
      refine hloop.congr fun kwargs w => ?_
      unfold usePermission
      rw [hflag]
      cases fs with
      | nil => exact .inl rfl
      | cons p fs =>
        simp only [Bool.not_true, Bool.false_eq_true, if_false, List.isEmpty_cons]
        split
        · exact .inr rfl
        · split
          · exact .inr rfl
          · exact .inl rfl
  | handler fs defaultError =>
    exact h.stacked (show WrapKind.handler.level ≤ ℓ from hle) _ _ _ _ _
  | pipe fs defaultError =>
    have hloop := h.gated (show GateKind.pipe.level ≤ ℓ from hle) (fs.map pipeGate)
    rw [List.map_map] at hloop
    exact hloop.congr fun kwargs w => .inl (settled_trace _ _)
  | afterPipe fs defaultError =>
    exact (h.afterPipes hle fs).congr fun kwargs w => .inl (settled_trace _ _)
  | guard fs defaultError =>
    have hloop := h.gated (show GateKind.guard.level ≤ ℓ from hle)
      (fs.map (guardGate defaultError))
    rw [List.map_map] at hloop
    show Clears _ 8 (useGuard fs defaultError c)
    unfold useGuard
    cases fs with
    | nil => exact h.mono hle
    | cons g fs => exact hloop
  | interceptor fs defaultError injectMeta =>
    exact h.stacked (show WrapKind.interceptor.level ≤ ℓ from hle) _ _ _ _ _
  | limiter limit => exact (h.mono hle).congr fun kwargs w => .inl rfl

/-- The decorators in descending order of their priorities. -/
theorem Clears.stack (h : Clears L ℓ c) {us : List (Use σ V)}
    (hsorted : us.Pairwise fun a b => b.priority ≤ a.priority)
    (hle : ∀ u ∈ us, u.priority ≤ ℓ) :
    ∃ ℓ', Clears ⟨us.flatMap (Use.gates app) ++ L.gates, us.flatMap Use.wraps ++ L.wraps⟩ ℓ'
      (us.foldl (fun c u => u.wrapper app funcMeta c) c) := by
  induction us generalizing L ℓ c with
  | nil => exact ⟨ℓ, h⟩
  | cons u us ih =>
    obtain ⟨hu, hsorted⟩ := List.pairwise_cons.mp hsorted
    obtain ⟨ℓ', h'⟩ := ih (u.clears app funcMeta h (hle u List.mem_cons_self)) hsorted hu
    refine ⟨ℓ', h'.perm ?_ ?_⟩
    · intro g
      simp only [List.flatMap_cons, List.mem_append]
      tauto
    · intro x
      simp only [List.flatMap_cons, List.mem_append]
      tauto

/-! ## After-pipes -/

theorem afterOne_of_error {f : Endpoint σ V} {kwargs : Kwargs V} {w : σ} {e : RouteExc V}
    (h : (f kwargs w).outcome = .error e) (p : AfterPipeFn σ V) :
    afterOne f p kwargs w = f kwargs w := by
  unfold afterOne
  simp only [h]

theorem afterOne_of_ok {f : Endpoint σ V} {kwargs : Kwargs V} {w : σ} {v : V}
    (h : (f kwargs w).outcome = .ok v) (p : AfterPipeFn σ V) :
    (afterOne f p kwargs w).trace = (f kwargs w).trace ++ [.afterPipe p.id] := by
  unfold afterOne
  simp only [h]

/-- The pipes that follow add to what is recorded. -/
theorem exists_trace_afterPipes (fs : List (AfterPipeFn σ V)) (f : Endpoint σ V)
    (kwargs : Kwargs V) (w : σ) :
    ∃ rest, (fs.foldl afterOne f kwargs w).trace = (f kwargs w).trace ++ rest := by
  induction fs generalizing f with
  | nil => exact ⟨[], (List.append_nil _).symm⟩
  | cons p fs ih =>
    obtain ⟨rest, hrest⟩ := ih (afterOne f p)
    cases h : (f kwargs w).outcome with
    | error e =>
      rw [afterOne_of_error h p] at hrest
      exact ⟨rest, hrest⟩
    | ok v =>
      rw [afterOne_of_ok h p, List.append_assoc] at hrest
      exact ⟨_, hrest⟩

/-- Nothing follows an exception. -/
theorem afterPipes_of_error (fs : List (AfterPipeFn σ V)) {f : Endpoint σ V} {kwargs : Kwargs V}
    {w : σ} {e : RouteExc V} (h : (f kwargs w).outcome = .error e) :
    fs.foldl afterOne f kwargs w = f kwargs w := by
  induction fs generalizing f with
  | nil => rfl
  | cons p fs ih =>
    have hp := afterOne_of_error h p
    exact (ih (hp ▸ h)).trans hp

/-- **An after-pipe runs exactly if what comes before it returned.** -/
theorem afterPipe_runs_iff (ps qs : List (AfterPipeFn σ V)) (p : AfterPipeFn σ V)
    (defaultError : Option HttpError) (f : Endpoint σ V) (kwargs : Kwargs V) (w : σ) :
    (∃ rest, (useAfterPipe (ps ++ p :: qs) defaultError f kwargs w).trace =
        (ps.foldl afterOne f kwargs w).trace ++ .afterPipe p.id :: rest) ↔
      ∃ v, (ps.foldl afterOne f kwargs w).outcome = .ok v := by
  unfold useAfterPipe
  rw [settled_trace, List.foldl_append, List.foldl_cons]
  obtain ⟨rest, hrest⟩ := exists_trace_afterPipes qs (afterOne (ps.foldl afterOne f) p) kwargs w
  cases h : (ps.foldl afterOne f kwargs w).outcome with
  | ok v =>
    rw [afterOne_of_ok h p, List.append_assoc] at hrest
    exact iff_of_true ⟨rest, hrest⟩ ⟨v, rfl⟩
  | error e =>
    have hp := afterOne_of_error h p
    rw [afterPipes_of_error qs (hp ▸ h), hp]
    refine iff_of_false (fun ⟨rest, hrest⟩ => ?_) nofun
    have hlen := congrArg List.length hrest
    rw [List.length_append, List.length_cons] at hlen
    omega

/-! ## Every route -/

/-- The priorities, from the innermost outwards. -/
def priorities : List Nat := [10, 8, 7, 6, 4, 2, 0]

theorem priority_mem (u : Use σ V) : u.priority ∈ priorities := by
  cases u <;> simp [Use.priority, priorities]

theorem priority_le (u : Use σ V) : u.priority ≤ 12 := by
  cases u <;> simp [Use.priority]

/-- The layers of an endpoint `e` that is built around `c`: they are nested by their priorities,
and equal priorities in the order of application; nothing runs before it is cleared of what lies
further out; and an after-pipe runs exactly if what it follows returned. -/
structure LayersSound (uses : List (Use σ V)) (limit : Option LimitParams) (c e : Endpoint σ V) :
    Prop where
  nested : e = rateLimited app limit
    ((priorities.flatMap fun p => uses.filter fun u => u.priority = p).foldl
      (fun c u => u.wrapper app funcMeta c) c)
  cleared : ∀ kwargs w,
    AtEach (Cleared LayerEvent.level (layersOf app uses limit)) (e kwargs w).trace
  after : ∀ ps p qs defaultError, .afterPipe (ps ++ p :: qs) defaultError ∈ uses →
    ∀ f kwargs w,
      (∃ rest, (useAfterPipe (ps ++ p :: qs) defaultError f kwargs w).trace =
          (ps.foldl afterOne f kwargs w).trace ++ .afterPipe p.id :: rest) ↔
        ∃ v, (ps.foldl afterOne f kwargs w).outcome = .ok v

theorem length_setRateLimit (limits : List (Option LimitParams)) :
    (setRateLimit limits).length = limits.length := by
  induction limits with
  | nil => rfl
  | cons l rest ih =>
    cases l with
    | none => exact congrArg Nat.succ ih
    | some limit =>
      unfold setRateLimit
      split
      · rw [List.length_cons, List.length_map, List.length_cons]
      · rw [List.length_cons, ih, List.length_cons]

/-- The limit, outermost of all. -/
theorem Clears.rateLimited (h : Clears L ℓ c) (limit : Option LimitParams) :
    Clears ⟨L.gates, (limit.toList.map fun _ => (.limiter, 0)) ++ L.wraps⟩ 0
      (rateLimited app limit c) := by
  cases limit with
  | none => exact h.mono (Nat.zero_le ℓ)
  | some limit =>
    exact h.entered (show WrapKind.limiter.level ≤ ℓ from Nat.zero_le ℓ) 0 (app.globalLimiter limit)

/-- **The layers of every route are in order**, whatever decorators are applied to it and to its
class, in whatever order. -/
theorem built_sound (R : Ressource σ V) (i : Fin R.routes.length) :
    ∃ limit e, R.limits[i.1]? = some limit ∧ (R.built app)[i.1]? = some e ∧
      LayersSound app R.routes[i].funcMeta (R.applied R.routes[i]) limit R.routes[i].endpoint
        e := by
  have hlen : i.1 < R.limits.length := by
    unfold Ressource.limits
    rw [length_setRateLimit, List.length_map]
    exact i.2
  have hroute : R.routes[i.1]? = some R.routes[i] := List.getElem?_eq_getElem i.2
  have hlimit : R.limits[i.1]? = some R.limits[i.1] := List.getElem?_eq_getElem hlen
  generalize R.limits[i.1] = limit at hlimit
  generalize R.routes[i] = route at hroute
  have hsorted : sortByKey Use.priority (R.applied route) =
      priorities.flatMap fun p => (R.applied route).filter fun u => u.priority = p :=
    sortByKey_eq_flatMap (by decide) fun u _ => priority_mem u
  refine ⟨limit, rateLimited app limit
    (stackCallback app route.funcMeta (R.applied route) route.endpoint), hlimit, ?_, ?_, ?_, ?_⟩
  · unfold Ressource.built
    rw [List.getElem?_zipWith, hroute, hlimit]
  · unfold stackCallback
    rw [hsorted]
  · intro kwargs w
    obtain ⟨ℓ, h⟩ := (clears_endpoint route).stack app route.funcMeta
      (pairwise_sortByKey Use.priority (R.applied route)) fun u _ => priority_le u
    have hperm := perm_sortByKey Use.priority (R.applied route)
    simp only [List.append_nil] at h
    have hbuilt : Clears (layersOf app (R.applied route) limit) 0 _ :=
      (h.rateLimited app limit).perm (fun g => (hperm.flatMap_right _).mem_iff)
        fun x => ((hperm.flatMap_right _).append_left _).mem_iff
    exact hbuilt.cleared kwargs w
  · exact fun ps p qs defaultError _ f kwargs w =>
      afterPipe_runs_iff ps qs p defaultError f kwargs w

end Stack

/-! ## A guard that answers with a response -/

/-- An application without a rate limit of its own. -/
def plainApp : App Unit String where
  securityFlag := true
  respond v _ := .ok v
  limitHeaders e _ := .http e
  globalLimiter _ kwargs w := .calls w kwargs fun outcome w => .ended w outcome

/-- A route with a guard that raises `GuardDefaultException(response=…)` and an after-pipe. -/
def answeringRoute : Route Unit String where
  funcMeta := "meta"
  decorators :=
    [{ use := .guard
        [⟨0, fun _ w => (.error (.default .guard { response := some "cached" }), w)⟩] none },
      { use := .afterPipe [⟨0, fun v _ w => (.ok v, w)⟩] none }]
  method _ w := (.ok "body", w)

/-- The after-pipe runs on the response of the guard. -/
theorem not_cleared_innermostAfter :
    ∃ e, (Ressource.built plainApp ⟨[answeringRoute], []⟩)[0]? = some e ∧
      (e .empty ()).trace = [.asked .guard 0 false, .afterPipe 0] ∧
      ¬ ∀ kwargs w, AtEach
        (Cleared LayerEvent.innermostAfter
          (layersOf plainApp (Ressource.applied ⟨[answeringRoute], []⟩ answeringRoute) none))
        (e kwargs w).trace := by
  refine ⟨_, rfl, rfl, fun h => ?_⟩
  have hclear := (h .empty () [.asked .guard 0 false] (.afterPipe 0) [] rfl).gates (.guard, 0)
    List.mem_cons_self (by decide)
  exact absurd hclear (by decide)

end Notifyr
