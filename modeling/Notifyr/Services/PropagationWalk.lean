import Notifyr.Services.Propagation

/-!
# What a propagation does

The walk behind `recursive`, and the deployments and messages for which a propagation does what
it should.

- `Walked`: a part of `recursive` that has come to its end was a depth-first walk along the links,
  and has called what the links ask for.
- `recursive_walked`, `recursive_ends`: `recursive` comes to its end exactly by such walks.
- `propagates_iff`: the condition for the propagation of a message to be as it should be.
-/

namespace Notifyr

open Theory Relation

namespace Deployment

open Coroutine

/-- The services whose names are in the cache. -/
def seen (w : Propagating) : Set Service := {s | s.name ∈ w.cache}

/-- What is called at a visit, by the link it goes along. -/
def visitActs (D : Deployment) (message : StateProtocol) (v : Service × Service) : List Act :=
  match D.link v.1 v.2 with
  | some linkP => actsOf D v.2 (linkP.instruction message)
  | none => []

/-- Nothing that is called at a visit raises. -/
def QuietVisit (D : Deployment) (services : Service → BaseService) (message : StateProtocol)
    (v : Service × Service) : Prop :=
  ∀ linkP ∈ D.link v.1 v.2, D.Quiet services v.2 (linkP.instruction message)

/-- Those of `ds` that are linked to `s`. -/
def linkedAmong (D : Deployment) (s : Service) (ds : List Service) : List Service :=
  ds.filter fun d => (D.link s d).isSome

/-- From `w` to `w'` the dependents `ds` of `s` were walked, with the visits `vs`. -/
structure Walked (D : Deployment) (services : Service → BaseService) (message : StateProtocol)
    (s : Service) (ds : List Service) (w w' : Propagating) (vs : List (Service × Service)) :
    Prop where
  walk : Walk D.linked s (D.linkedAmong s ds) (seen w) vs
  seen_eq : seen w' = seenAfter (seen w) vs
  acts_eq : w'.acts = w.acts ++ vs.flatMap (visitActs D message)
  same : SameClasses services w'
  quiet : ∀ v ∈ vs, QuietVisit D services message v
  registered : ∀ d ∈ ds, D.Registered d
  below : ∀ x ∈ vs.map Prod.snd, ∀ d ∈ D.usedBy x, D.Registered d

section Walking

variable {D : Deployment} {services : Service → BaseService} {message : StateProtocol}
  {s d : Service} {ds : List Service} {w w' : Propagating} {vs : List (Service × Service)}

/-- What is visited is registered if what is walked is, and what uses it. -/
theorem registered_of_walk {K : Set Service} (h : Walk D.linked s ds K vs)
    (hds : ∀ d ∈ ds, D.Registered d)
    (hbelow : ∀ x ∈ vs.map Prod.snd, ∀ d ∈ D.usedBy x, D.Registered d) :
    ∀ x ∈ vs.map Prod.snd, D.Registered x := by
  intro x hx
  obtain ⟨⟨p, x⟩, hv, rfl⟩ := List.mem_map.mp hx
  rcases h.from_mem hv with ⟨-, hx⟩ | ⟨hp, hlinked⟩
  · exact hds x hx
  · exact hbelow p hp x (mem_linked_iff.mp hlinked).1

/-- Whatever is in the cache is registered. -/
theorem Walked.cache_registered (h : Walked D services message s ds w w' vs)
    (hw : ∀ x ∈ seen w, D.Registered x) : ∀ x ∈ seen w', D.Registered x := by
  intro x hx
  rw [h.seen_eq] at hx
  rcases hx with hx | hx
  · exact hw x hx
  · exact registered_of_walk h.walk (fun d hd => h.registered d (List.mem_filter.mp hd).1)
      h.below x hx

/-- For a registered service the link is the one `recursive` looks up. -/
theorem link_eq {links : Dict ClassName LinkParams} (hd : D.Registered d)
    (h : D.liaison.get? d.name = some links) : D.link s d = links.get? s.className := by
  unfold link
  rw [← hd.name_eq, h]
  rfl

/-- The name of a service is in the cache after it has been remembered, with all the names that
were. -/
theorem seen_remember (hw : seen w' = seenAfter (seen w) vs) (s : Service) :
    seen (remember d w').2 = seenAfter (seen w) ((s, d) :: vs) := by
  ext x
  show x.name ∈ w'.cache ++ [d.name] ↔ x ∈ seen w ∨ x ∈ d :: vs.map Prod.snd
  have hx : x.name ∈ w'.cache ↔ x ∈ seen w ∨ x ∈ vs.map Prod.snd := by
    show x ∈ seen w' ↔ _
    rw [hw]
    exact Iff.rfl
  rw [List.mem_append, hx, List.mem_singleton, name_injective.eq_iff, List.mem_cons]
  tauto

theorem linkedAmong_of_link {linkP : LinkParams} (h : D.link s d = some linkP) :
    D.linkedAmong s (d :: ds) = d :: D.linkedAmong s ds :=
  List.filter_cons_of_pos (congrArg Option.isSome h)

theorem linkedAmong_of_none (h : D.link s d = none) :
    D.linkedAmong s (d :: ds) = D.linkedAmong s ds := by
  refine List.filter_cons_of_neg ?_
  rw [h]
  exact Bool.false_ne_true

/-- A dependent that has been seen. -/
theorem Walked.skip (hd : d ∈ seen w) (hreg : D.Registered d)
    (h : Walked D services message s ds w w' vs) :
    Walked D services message s (d :: ds) w w' vs where
  walk := by
    cases hl : D.link s d with
    | none =>
      rw [linkedAmong_of_none hl]
      exact h.walk
    | some linkP =>
      rw [linkedAmong_of_link hl]
      exact .skip hd h.walk
  seen_eq := h.seen_eq
  acts_eq := h.acts_eq
  same := h.same
  quiet := h.quiet
  registered := List.forall_mem_cons.mpr ⟨hreg, h.registered⟩
  below := h.below

/-- A dependent that is not linked to `s`. -/
theorem Walked.unlinked (hd : D.link s d = none) (hreg : D.Registered d)
    (h : Walked D services message s ds w w' vs) :
    Walked D services message s (d :: ds) w w' vs where
  walk := by
    rw [linkedAmong_of_none hd]
    exact h.walk
  seen_eq := h.seen_eq
  acts_eq := h.acts_eq
  same := h.same
  quiet := h.quiet
  registered := List.forall_mem_cons.mpr ⟨hreg, h.registered⟩
  below := h.below

/-- A linked dependent: it is acted on, then those that use it, then it is remembered. -/
theorem Walked.visit {linkP : LinkParams} {w₁ w₂ w₃ : Propagating}
    {ws : List (Service × Service)} (hl : D.link s d = some linkP) (hd : d ∉ seen w)
    (hreg : D.Registered d) (hquiet : D.Quiet services d (linkP.instruction message))
    (hcache : w₁.cache = w.cache)
    (hacts : w₁.acts = w.acts ++ actsOf D d (linkP.instruction message))
    (hbelow : Walked D services message d (D.usedBy d) w₁ w₂ vs)
    (hrest : Walked D services message s ds (remember d w₂).2 w₃ ws) :
    Walked D services message s (d :: ds) w w₃ ((s, d) :: vs ++ ws) := by
  have hseen₁ : seen w₁ = seen w := by
    unfold seen
    rw [hcache]
  have hseen₂ : seen (remember d w₂).2 = seenAfter (seen w) ((s, d) :: vs) :=
    seen_remember (hseen₁ ▸ hbelow.seen_eq) s
  constructor
  case walk =>
    rw [linkedAmong_of_link hl]
    refine .visit hd ?_ ?_
    · rw [← hseen₁]
      exact hbelow.walk
    · rw [← hseen₂]
      exact hrest.walk
  case seen_eq => rw [hrest.seen_eq, hseen₂, seenAfter_append]
  case acts_eq =>
    have hvisit : visitActs D message (s, d) = actsOf D d (linkP.instruction message) := by
      unfold visitActs
      rw [hl]
    rw [hrest.acts_eq]
    show w₂.acts ++ _ = _
    rw [hbelow.acts_eq, hacts, List.flatMap_append, List.flatMap_cons, hvisit]
    simp only [List.append_assoc]
  case same => exact hrest.same
  case quiet =>
    intro v hv
    rcases List.mem_append.mp hv with hv | hv
    · rcases List.mem_cons.mp hv with rfl | hv
      · intro l hlink
        rw [show D.link s d = some linkP from hl] at hlink
        exact Option.some.inj hlink ▸ hquiet
      · exact hbelow.quiet v hv
    · exact hrest.quiet v hv
  case registered => exact List.forall_mem_cons.mpr ⟨hreg, hrest.registered⟩
  case below =>
    intro x hx
    rw [List.map_append] at hx
    rcases List.mem_append.mp hx with hx | hx
    · rcases List.mem_cons.mp hx with rfl | hx
      · exact hbelow.registered
      · exact hbelow.below x hx
    · exact hrest.below x hx

/-! ## The loop -/

section Loop

variable {again : Service → Coroutine}

theorem dependents_seen (hd : d ∈ seen w) :
    D.dependents message again s (d :: ds) w = D.dependents message again s ds w := by
  rw [dependents]
  exact if_pos hd

theorem dependents_unregistered (hd : d ∉ seen w) (hreg : ¬ D.Registered d) :
    D.dependents message again s (d :: ds) w = (some .keyError, w) := by
  rw [dependents, (liaison_name d).mpr hreg]
  exact if_neg hd

theorem dependents_registered (hd : d ∉ seen w) (hreg : D.Registered d) :
    D.dependents message again s (d :: ds) w =
      match D.link s d with
      | none => D.dependents message again s ds w
      | some linkP => followedBy (D.follow d (linkP.instruction message))
          (followedBy (again d) (followedBy (remember d) (D.dependents message again s ds))) w := by
  cases hget : D.liaison.get? d.name with
  | none => exact absurd hreg ((liaison_name d).mp hget)
  | some links =>
    rw [dependents, hget, link_eq hreg hget]
    exact if_neg hd

/-- **The loop over the dependents of a service, when it comes to its end.** -/
theorem dependents_walked
    (hagain : ∀ d w, d ∉ seen w → SameClasses services w → (∀ x ∈ seen w, D.Registered x) →
      (again d w).1 = none → ∃ vs, Walked D services message d (D.usedBy d) w (again d w).2 vs)
    (hsame : SameClasses services w) (hreg : ∀ x ∈ seen w, D.Registered x)
    (hend : (D.dependents message again s ds w).1 = none) :
    ∃ vs, Walked D services message s ds w (D.dependents message again s ds w).2 vs := by
  induction ds generalizing w with
  | nil =>
    refine ⟨[], .nil, ?_, (List.append_nil _).symm, hsame, nofun, nofun, nofun⟩
    ext x
    exact (or_iff_left nofun).symm
  | cons d ds ih =>
    by_cases hseen : d ∈ seen w
    · rw [dependents_seen hseen] at hend ⊢
      obtain ⟨vs, h⟩ := ih hsame hreg hend
      exact ⟨vs, h.skip hseen (hreg d hseen)⟩
    by_cases hd : D.Registered d
    · rw [dependents_registered hseen hd] at hend ⊢
      cases hl : D.link s d with
      | none =>
        rw [hl] at hend
        obtain ⟨vs, h⟩ := ih hsame hreg hend
        exact ⟨vs, h.unlinked hl hd⟩
      | some linkP =>
        simp only [hl] at hend ⊢
        -- the dependent is acted on
        have hdoes : Does services (D.follow d (linkP.instruction message)) _ _ :=
          does_follow d (linkP.instruction message)
        have hend₁ := followedBy_none hend
        rw [followedBy_ok _ _ hend₁] at hend ⊢
        have hquiet := (hdoes.ends_iff w hsame).mp hend₁
        have hcache₁ := hdoes.cache_eq w
        have hacts₁ := hdoes.acts_eq w hend₁
        have hsame₁ := hdoes.same w hsame
        generalize (D.follow d (linkP.instruction message) w).2 = w₁ at *
        have hseen₁ : seen w₁ = seen w := by
          unfold seen
          rw [hcache₁]
        -- those that use it
        have hend₂ := followedBy_none hend
        rw [followedBy_ok _ _ hend₂, followedBy_ok (remember d) _ rfl] at hend ⊢
        obtain ⟨vs, hbelow⟩ := hagain d w₁ (hseen₁ ▸ hseen) hsame₁ (hseen₁ ▸ hreg) hend₂
        have hreg₂ : ∀ x ∈ seen (remember d (again d w₁).2).2, D.Registered x := by
          intro x hx
          rw [seen_remember hbelow.seen_eq s] at hx
          rcases hx with hx | hx
          · exact hreg x (hseen₁ ▸ hx)
          · rcases List.mem_cons.mp hx with rfl | hx
            · exact hd
            · refine hbelow.cache_registered (hseen₁ ▸ hreg) x ?_
              rw [hbelow.seen_eq]
              exact .inr hx
        -- the rest of the loop
        obtain ⟨ws, hrest⟩ := ih (w := (remember d (again d w₁).2).2) hbelow.same hreg₂ hend
        exact ⟨_, .visit hl hseen hd hquiet hcache₁ hacts₁ hbelow hrest⟩
    · rw [dependents_unregistered hseen hd] at hend
      cases hend

end Loop

/-- **`recursive`, when it comes to its end.** -/
theorem recursive_walked {depth : Nat} (hs : s ∉ seen w) (hsame : SameClasses services w)
    (hreg : ∀ x ∈ seen w, D.Registered x) (hend : (D.recursive message depth s w).1 = none) :
    ∃ vs, Walked D services message s (D.usedBy s) w (D.recursive message depth s w).2 vs := by
  induction depth generalizing s w with
  | zero => cases hend
  | succ depth ih =>
    rw [show D.recursive message (depth + 1) s w =
      D.dependents message (D.recursive message depth) s (D.usedBy s) w from if_neg hs] at hend ⊢
    exact dependents_walked (fun d w hd hw hr he => ih hd hw hr he) hsame hreg hend

/-- With all the depth it needs, `recursive` walks `vs` from `d` and comes to its end. -/
def Ends (D : Deployment) (services : Service → BaseService) (message : StateProtocol)
    (d : Service) : Prop :=
  ∀ K vs, d ∉ K → Walk D.linked d (D.linked d) K vs →
    (∀ v ∈ vs, QuietVisit D services message v) → (∀ x ∈ K, D.Registered x) →
    (∀ x ∈ D.usedBy d, D.Registered x) →
    (∀ x ∈ vs.map Prod.snd, ∀ y ∈ D.usedBy x, D.Registered y) →
    ∃ n, ∀ depth ≥ n, ∀ w, seen w = K → SameClasses services w →
      (D.recursive message depth d w).1 = none

/-- The loop comes to its end if the walk over what is linked to `s` meets nothing that raises,
and nothing that is not registered. -/
theorem dependents_ends {K : Set Service}
    (hends : ∀ d ∈ D.linkedAmong s ds, Ends D services message d)
    (hwalk : Walk D.linked s (D.linkedAmong s ds) K vs)
    (hquiet : ∀ v ∈ vs, QuietVisit D services message v) (hK : ∀ x ∈ K, D.Registered x)
    (hreg : ∀ x ∈ ds, D.Registered x)
    (hbelow : ∀ x ∈ vs.map Prod.snd, ∀ y ∈ D.usedBy x, D.Registered y) :
    ∃ n, ∀ depth ≥ n, ∀ w, seen w = K → SameClasses services w →
      (D.dependents message (D.recursive message depth) s ds w).1 = none := by
  induction ds generalizing K vs with
  | nil => exact ⟨0, fun _ _ _ _ _ => rfl⟩
  | cons d ds ih =>
    obtain ⟨hd, hreg⟩ := List.forall_mem_cons.mp hreg
    cases hl : D.link s d with
    | none =>
      rw [linkedAmong_of_none hl] at hends hwalk
      obtain ⟨n, hn⟩ := ih hends hwalk hquiet hK hreg hbelow
      refine ⟨n, fun depth hdepth w hw hsame => ?_⟩
      by_cases hseen : d ∈ seen w
      · rw [dependents_seen hseen]
        exact hn depth hdepth w hw hsame
      · rw [dependents_registered hseen hd, hl]
        exact hn depth hdepth w hw hsame
    | some linkP =>
      rw [linkedAmong_of_link hl] at hends hwalk
      obtain ⟨hend, hends⟩ := List.forall_mem_cons.mp hends
      cases hwalk with
      | skip hseen hrest =>
        obtain ⟨n, hn⟩ := ih hends hrest hquiet hK hreg hbelow
        refine ⟨n, fun depth hdepth w hw hsame => ?_⟩
        rw [dependents_seen (hw ▸ hseen)]
        exact hn depth hdepth w hw hsame
      | @visit _ _ _ _ us ws hnew hdown hrest =>
        have hpush : ∀ x, x ∈ ((s, d) :: us ++ ws).map Prod.snd ↔
            (x = d ∨ x ∈ us.map Prod.snd) ∨ x ∈ ws.map Prod.snd := by
          intro x
          rw [List.map_append, List.mem_append, List.map_cons, List.mem_cons]
        have husers := hbelow d ((hpush d).mpr (.inl (.inl rfl)))
        have hdownBelow := fun x hx => hbelow x ((hpush x).mpr (.inl (.inr hx)))
        have hK' : ∀ x ∈ seenAfter K ((s, d) :: us), D.Registered x := by
          rintro x (hx | hx)
          · exact hK x hx
          rcases List.mem_cons.mp hx with rfl | hx
          · exact hd
          · exact registered_of_walk hdown (fun y hy => husers y (mem_linked_iff.mp hy).1)
              hdownBelow x hx
        obtain ⟨n₁, hn₁⟩ := hend K us hnew hdown
          (fun v hv => hquiet v (List.mem_append_left _ (List.mem_cons_of_mem _ hv))) hK husers
          hdownBelow
        obtain ⟨n₂, hn₂⟩ := ih hends hrest (fun v hv => hquiet v (List.mem_append_right _ hv)) hK'
          hreg (fun x hx => hbelow x ((hpush x).mpr (.inr hx)))
        refine ⟨max n₁ n₂, fun depth hdepth w hw hsame => ?_⟩
        have hq : D.Quiet services d (linkP.instruction message) :=
          hquiet (s, d) (List.mem_append_left _ List.mem_cons_self) linkP hl
        have hdoes : Does services (D.follow d (linkP.instruction message)) _ _ :=
          does_follow d (linkP.instruction message)
        rw [dependents_registered (hw ▸ hnew) hd]
        simp only [hl]
        rw [followedBy_ok _ _ ((hdoes.ends_iff w hsame).mpr hq)]
        have hcache₁ := hdoes.cache_eq w
        have hsame₁ := hdoes.same w hsame
        generalize (D.follow d (linkP.instruction message) w).2 = w₁ at *
        have hseen₁ : seen w₁ = K := by
          rw [← hw]
          unfold seen
          rw [hcache₁]
        have hend₂ := hn₁ depth (le_trans (le_max_left ..) hdepth) w₁ hseen₁ hsame₁
        rw [followedBy_ok _ _ hend₂, followedBy_ok (remember d) _ rfl]
        -- the walk below `d` was the one given
        obtain ⟨us', hwalked⟩ := recursive_walked (hseen₁ ▸ hnew) hsame₁ (hseen₁ ▸ hK) hend₂
        obtain rfl : us' = us := hwalked.walk.unique (hseen₁ ▸ hdown)
        refine hn₂ depth (le_trans (le_max_right ..) hdepth) _ ?_ hwalked.same
        rw [seen_remember hwalked.seen_eq s, hseen₁]

/-- **`recursive` comes to its end** where no service uses itself. -/
theorem recursive_ends (hwf : WellFounded fun b a => b ∈ D.usedBy a) (d : Service) :
    Ends D services message d := by
  induction d using hwf.induction with
  | _ d ih =>
    intro K vs hd hwalk hquiet hK husers hbelow
    obtain ⟨n, hn⟩ := dependents_ends (fun x hx => ih x (List.mem_filter.mp hx).1) hwalk hquiet
      hK husers hbelow
    refine ⟨n + 1, fun depth hdepth w hw hsame => ?_⟩
    obtain ⟨depth, rfl⟩ : ∃ m, depth = m + 1 := ⟨depth - 1, by omega⟩
    rw [show D.recursive message (depth + 1) d w =
      D.dependents message (D.recursive message depth) d (D.usedBy d) w from
        if_neg (fun h => hd (hw ▸ h))]
    exact hn depth (by omega) w hw hsame

end Walking

/-! ## A message -/

section Message

variable {D : Deployment} {services : Service → BaseService} {message : StateProtocol}
  {service : Option Service} {root d : Service} {vs : List (Service × Service)}

/-- The state in which a message finds the services. -/
def start (services : Service → BaseService) : Propagating where
  services := services

theorem seen_start : seen (start services) = ∅ := by
  ext x
  exact iff_of_false List.not_mem_nil (Set.notMem_empty x)

/-- What a message does to its own service does not raise. -/
def RootQuiet (D : Deployment) (services : Service → BaseService) (message : StateProtocol)
    (root : Service) : Prop :=
  (∀ value ∈ message.status, (ServiceStatus.ofValue value).isSome = true) ∧
  D.Quiet services root message.instruction ∧
  ∀ function ∈ message.callbackStateFunction,
    ∃ body, D.callback root function = some body ∧ body.raises = none

theorem followedBy_assoc (p q r : Coroutine) :
    followedBy (followedBy p q) r = followedBy p (followedBy q r) := by
  funext w
  by_cases hp : (p w).1 = none
  · rw [followedBy_ok p _ hp]
    by_cases hq : (q (p w).2).1 = none
    · rw [followedBy_ok q r hq, followedBy_ok (followedBy p q) r]
      · rw [followedBy_ok p q hp]
      · rw [followedBy_ok p q hp]
        exact hq
    · rw [followedBy_error q r hq, followedBy_error (followedBy p q) r]
      · rw [followedBy_ok p q hp]
      · rw [followedBy_ok p q hp]
        exact hq
  · rw [followedBy_error p _ hp, followedBy_error (followedBy p q) r]
    · rw [followedBy_error p q hp]
    · rw [followedBy_error p q hp]
      exact hp

/-- A message is first applied to its service, then propagated. -/
theorem setServiceStatus_eq (services : Service → BaseService) (hrec : message.recursive = true)
    (htarget : D.target message service = some root) :
    ∃ first, Does services first (RootQuiet D services message root)
        (actsOf D root message.instruction) ∧
      ∀ depth, D.setServiceStatus depth message service =
        followedBy first (D.recursive message depth root) := by
  have hfirst : Does services _ _ _ :=
    (does_setStatus root message.status).followedBy
      ((does_follow (D := D) root message.instruction).followedBy
        (does_runCallback (D := D) root message.callbackStateFunction))
  refine ⟨_, hfirst.congr Iff.rfl ?_, fun depth => ?_⟩
  · rw [List.nil_append, List.append_nil]
  · unfold setServiceStatus
    rw [htarget, followedBy_assoc, followedBy_assoc]
    simp only [hrec, if_true]

/-- **What a message that comes to its end has done.** -/
theorem setServiceStatus_walked (hrec : message.recursive = true)
    (htarget : D.target message service = some root) {depth : Nat}
    (hend : (D.setServiceStatus depth message service (start services)).1 = none) :
    RootQuiet D services message root ∧ ∃ vs,
      Walk D.linked root (D.linked root) ∅ vs ∧
      (D.setServiceStatus depth message service (start services)).2.acts =
        actsOf D root message.instruction ++ vs.flatMap (visitActs D message) ∧
      (∀ v ∈ vs, QuietVisit D services message v) ∧ (∀ d ∈ D.usedBy root, D.Registered d) ∧
      ∀ x ∈ vs.map Prod.snd, ∀ d ∈ D.usedBy x, D.Registered d := by
  obtain ⟨first, hfirst, heq⟩ := setServiceStatus_eq services hrec htarget
  have hsame : SameClasses services (start services) := fun _ => ⟨rfl, rfl⟩
  rw [heq] at hend ⊢
  have hend₁ := followedBy_none hend
  rw [followedBy_ok _ _ hend₁] at hend ⊢
  have hseen : seen (first (start services)).2 = ∅ := by
    rw [← seen_start]
    unfold seen
    rw [hfirst.cache_eq]
  have hempty : ∀ x, x ∉ seen (first (start services)).2 := by
    intro x hx
    rw [hseen] at hx
    exact Set.notMem_empty x hx
  obtain ⟨vs, h⟩ := recursive_walked (hempty root) (hfirst.same _ hsame)
    (fun x hx => absurd hx (hempty x)) hend
  refine ⟨(hfirst.ends_iff _ hsame).mp hend₁, vs, hseen ▸ h.walk, ?_, h.quiet, h.registered,
    h.below⟩
  rw [h.acts_eq, hfirst.acts_eq _ hend₁]
  rfl

/-- A message comes to its end where nothing it meets raises or is not registered. -/
theorem setServiceStatus_ends (hac : D.AcyclicUse) (hrec : message.recursive = true)
    (htarget : D.target message service = some root)
    (hroot : RootQuiet D services message root) (hwalk : Walk D.linked root (D.linked root) ∅ vs)
    (hquiet : ∀ v ∈ vs, QuietVisit D services message v)
    (husers : ∀ d ∈ D.usedBy root, D.Registered d)
    (hbelow : ∀ x ∈ vs.map Prod.snd, ∀ d ∈ D.usedBy x, D.Registered d) :
    ∃ n, ∀ depth ≥ n, (D.setServiceStatus depth message service (start services)).1 = none := by
  obtain ⟨first, hfirst, heq⟩ := setServiceStatus_eq services hrec htarget
  have hsame : SameClasses services (start services) := fun _ => ⟨rfl, rfl⟩
  have hwf := wellFounded_of_acyclic D.services D.usedBy_mem hac
  obtain ⟨n, hn⟩ := recursive_ends hwf root ∅ vs (Set.notMem_empty root) hwalk hquiet
    (fun x hx => absurd hx (Set.notMem_empty x)) husers hbelow
  refine ⟨n, fun depth hdepth => ?_⟩
  rw [heq, followedBy_ok _ _ ((hfirst.ends_iff _ hsame).mpr hroot)]
  refine hn depth hdepth _ ?_ (hfirst.same _ hsame)
  rw [← seen_start]
  unfold seen
  rw [hfirst.cache_eq]

/-! ## The calls of a walk -/

theorem reached_iff : D.Reached root d ↔ LedTo D.linked (D.linked root) d := by
  unfold Reached
  rw [TransGen.head'_iff]
  exact Iff.rfl

theorem visitActs_service {v : Service × Service} {a : Act} (h : a ∈ visitActs D message v) :
    a.service = v.2 := by
  unfold visitActs at h
  split at h
  · exact actsOf_service h
  · cases h

/-- The calls about a dependent that is visited once. -/
theorem filter_visitActs {v : Service × Service} (hnd : (vs.map Prod.snd).Nodup) (hv : v ∈ vs) :
    (vs.flatMap (visitActs D message)).filter (fun a => a.service = v.2) =
      visitActs D message v := by
  obtain ⟨before, after, rfl⟩ := List.append_of_mem hv
  rw [List.map_append, List.map_cons] at hnd
  obtain ⟨-, hafter, hbefore⟩ := List.nodup_append.mp hnd
  have hnone : ∀ us : List (Service × Service), v.2 ∉ us.map Prod.snd →
      (us.flatMap (visitActs D message)).filter (fun a => a.service = v.2) = [] := by
    intro us hus
    refine List.filter_eq_nil_iff.mpr fun a ha => ?_
    obtain ⟨u, hu, hau⟩ := List.mem_flatMap.mp ha
    rw [visitActs_service hau, decide_eq_true_iff]
    exact fun h => hus (h ▸ List.mem_map_of_mem hu)
  rw [List.flatMap_append, List.flatMap_cons, List.filter_append, List.filter_append,
    hnone before fun h => hbefore _ h _ List.mem_cons_self rfl,
    hnone after (List.nodup_cons.mp hafter).1, List.nil_append, List.append_nil]
  refine List.filter_eq_self.mpr fun a ha => ?_
  rw [decide_eq_true_iff]
  exact visitActs_service ha

/-- The root's calls are about nothing that is reached from it. -/
theorem filter_actsOf_root (hac : D.AcyclicUse) (hd : D.Reached root d) (i : Instruction) :
    (actsOf D root i).filter (fun a => a.service = d) = [] := by
  refine List.filter_eq_nil_iff.mpr fun a ha => ?_
  rw [actsOf_service ha, decide_eq_true_iff]
  rintro rfl
  exact hac root (LedTo.transGen uses_of_linked (reached_iff.mp hd))

/-- The calls at a visit of a linked dependent are as they should be exactly if the link asks for
something. -/
theorem visitActs_cases (message : StateProtocol) {v : Service × Service} {linkP : LinkParams}
    (hl : D.link v.1 v.2 = some linkP) :
    D.Effective v.2 (linkP.instruction message) ∧
        visitActs D message v ∈ [[.destroyer v.2], [.builder v.2], [.destroyer v.2, .builder v.2]] ∨
      ¬ D.Effective v.2 (linkP.instruction message) ∧ visitActs D message v = [] := by
  unfold visitActs
  simp only [hl]
  exact actsOf_cases D v.2 (linkP.instruction message)

/-- The calls of a message that has come to its end are in order exactly if the visits are. -/
theorem acts_order_iff (hac : D.AcyclicUse) (hwalk : Walk D.linked root (D.linked root) ∅ vs)
    (heff : ∀ v ∈ vs, visitActs D message v ≠ []) :
    (actsOf D root message.instruction ++ vs.flatMap (visitActs D message)).Pairwise
        (fun a b => ¬ D.Uses b.service a.service) ↔
      (root :: vs.map Prod.snd).Pairwise fun x y => ¬ D.Uses y x := by
  have hirrefl : ∀ s, ¬ D.Uses s s := fun s h => hac s (.single h)
  have hone : ∀ (as : List Act) (s : Service), (∀ a ∈ as, a.service = s) →
      as.Pairwise fun a b => ¬ D.Uses b.service a.service := by
    intro as s has
    refine List.pairwise_of_forall_mem_list fun a ha b hb => ?_
    rw [has a ha, has b hb]
    exact hirrefl s
  have hroot : ∀ y ∈ vs.map Prod.snd, ¬ D.Uses y root := by
    intro y hy h
    have hled := ((hwalk.mem_iff fun _ hx => absurd hx (Set.notMem_empty _)).mp hy).2
    exact hac root ((LedTo.transGen uses_of_linked hled).tail h)
  rw [List.pairwise_append, List.pairwise_flatMap, List.pairwise_cons, List.pairwise_map]
  constructor
  · rintro ⟨-, ⟨-, hpair⟩, -⟩
    refine ⟨hroot, hpair.imp_of_mem fun {v u} hv hu h => ?_⟩
    obtain ⟨a, ha⟩ := List.exists_mem_of_ne_nil _ (heff v hv)
    obtain ⟨b, hb⟩ := List.exists_mem_of_ne_nil _ (heff u hu)
    have hab := h a ha b hb
    rwa [visitActs_service ha, visitActs_service hb] at hab
  · rintro ⟨-, hpair⟩
    refine ⟨hone _ root fun a ha => actsOf_service ha,
      ⟨fun v _ => hone _ v.2 fun a ha => visitActs_service ha,
        hpair.imp fun {v u} h a ha b hb => ?_⟩,
      fun a ha b hb => ?_⟩
    · rw [visitActs_service ha, visitActs_service hb]
      exact h
    · obtain ⟨v, hv, hbv⟩ := List.mem_flatMap.mp hb
      rw [actsOf_service ha, visitActs_service hbv]
      exact hroot v.2 (List.mem_map_of_mem hv)

theorem closed_empty : Closed D.linked (∅ : Set Service) :=
  fun _ hx => absurd hx (Set.notMem_empty _)

/-- A message that propagates as it should meets the condition. -/
theorem propagable_of_propagates (hac : D.AcyclicUse) (hrec : message.recursive = true)
    (htarget : D.target message service = some root) {depth : Nat}
    (h : D.Propagates root (D.setServiceStatus depth message service (start services))) :
    D.Propagable services message root := by
  obtain ⟨hends, honce, horder⟩ := h
  obtain ⟨⟨hstatus, hquietRoot, hcallback⟩, vs, hwalk, hacts, hquiet, husers, hbelow⟩ :=
    setServiceStatus_walked hrec htarget hends
  have hmem : ∀ x, x ∈ vs.map Prod.snd ↔ LedTo D.linked (D.linked root) x := fun x =>
    (hwalk.mem_iff closed_empty).trans (and_iff_right (Set.notMem_empty x))
  have hnd := hwalk.nodup uses_of_linked hac closed_empty
  -- what is called about a dependent is called at its one visit
  have hvisit : ∀ v ∈ vs, visitActs D message v ∈
      [[.destroyer v.2], [.builder v.2], [.destroyer v.2, .builder v.2]] := by
    intro v hv
    have hreached := reached_iff.mpr ((hmem v.2).mp (List.mem_map_of_mem hv))
    have hd := honce v.2 hreached
    rwa [hacts, List.filter_append, filter_actsOf_root hac hreached, List.nil_append,
      filter_visitActs hnd hv] at hd
  have heff : ∀ v ∈ vs, visitActs D message v ≠ [] := by
    intro v hv h
    have hmem := hvisit v hv
    rw [h] at hmem
    simp at hmem
  have hnested := (hwalk.order_iff uses_of_linked hac).mp
    ((acts_order_iff hac hwalk heff).mp (hacts ▸ horder))
  refine ⟨hstatus, hquietRoot, hcallback, fun s hs d hd => ?_, fun s d hs hdirect linkP hl => ?_,
    hnested⟩
  · rcases leads_iff.mp hs with rfl | hs
    · exact husers d hd
    · exact hbelow s ((hmem s).mpr hs) d hd
  · have hv := (hwalk.mem_iff_direct uses_of_linked hac hnested).mpr ⟨hs, hdirect⟩
    refine ⟨?_, hquiet _ hv linkP hl⟩
    rcases visitActs_cases message (v := (s, d)) hl with ⟨h, -⟩ | ⟨-, h⟩
    · exact h
    · exact absurd h (heff _ hv)

/-- A message that meets the condition propagates as it should, with all the depth it needs. -/
theorem propagates_of_propagable (hac : D.AcyclicUse) (hrec : message.recursive = true)
    (htarget : D.target message service = some root)
    (h : D.Propagable services message root) :
    ∃ n, ∀ depth ≥ n,
      D.Propagates root (D.setServiceStatus depth message service (start services)) := by
  have hwf : WellFounded fun b a => b ∈ D.linked a :=
    Subrelation.wf (fun {b a} => uses_of_linked a b)
      (wellFounded_of_acyclic D.services D.usedBy_mem hac)
  obtain ⟨vs, hwalk⟩ := exists_walk hwf root (D.linked root) ∅
  have hmem : ∀ x, x ∈ vs.map Prod.snd ↔ LedTo D.linked (D.linked root) x := fun x =>
    (hwalk.mem_iff closed_empty).trans (and_iff_right (Set.notMem_empty x))
  have hnd := hwalk.nodup uses_of_linked hac closed_empty
  have hdirect : ∀ v ∈ vs, Leads D.linked root v.1 ∧ Direct D.linked v.1 v.2 := fun v hv =>
    (hwalk.mem_iff_direct uses_of_linked hac h.nested).mp hv
  have hvisit : ∀ v ∈ vs, visitActs D message v ∈
      [[.destroyer v.2], [.builder v.2], [.destroyer v.2, .builder v.2]] := by
    intro v hv
    obtain ⟨hlead, hdir⟩ := hdirect v hv
    obtain ⟨linkP, hl⟩ := Option.isSome_iff_exists.mp (mem_linked_iff.mp hdir.1).2
    rcases visitActs_cases message hl with ⟨-, hacts⟩ | ⟨hno, -⟩
    · exact hacts
    · exact absurd (h.effective v.1 v.2 hlead hdir linkP hl).1 hno
  have heff : ∀ v ∈ vs, visitActs D message v ≠ [] := by
    intro v hv hnil
    have hmem := hvisit v hv
    rw [hnil] at hmem
    simp at hmem
  obtain ⟨n, hn⟩ := setServiceStatus_ends hac hrec htarget
    ⟨h.status, h.quiet_root, h.callback⟩ hwalk
    (fun v hv linkP hl => (h.effective v.1 v.2 (hdirect v hv).1 (hdirect v hv).2 linkP hl).2)
    (h.registered root .refl)
    (fun x hx => h.registered x (leads_iff.mpr (.inr ((hmem x).mp hx))))
  refine ⟨n, fun depth hdepth => ?_⟩
  obtain ⟨-, us, hwalk', hacts, -⟩ := setServiceStatus_walked hrec htarget (hn depth hdepth)
  obtain rfl : us = vs := hwalk'.unique hwalk
  refine ⟨hn depth hdepth, fun d hd => ?_, ?_⟩
  · obtain ⟨v, hv, rfl⟩ := List.mem_map.mp ((hmem d).mpr (reached_iff.mp hd))
    rw [hacts, List.filter_append, filter_actsOf_root hac hd, List.nil_append,
      filter_visitActs hnd hv]
    exact hvisit v hv
  · rw [hacts]
    exact (acts_order_iff hac hwalk heff).mpr ((hwalk.order_iff uses_of_linked hac).mpr h.nested)

/-- **A message propagates as it should exactly if** what it does to its own service raises
nothing, whatever uses a service it reaches is registered, the link to the last service on the
way to a dependent asks for something and what it asks for raises nothing, and the branches of
the services nest. -/
theorem propagates_iff (D : Deployment) (hac : D.AcyclicUse) (services : Service → BaseService)
    (message : StateProtocol) (hrec : message.recursive = true) (service : Option Service)
    (root : Service) (htarget : D.target message service = some root) :
    (∃ n, ∀ depth ≥ n,
        D.Propagates root (D.setServiceStatus depth message service (start services))) ↔
      D.Propagable services message root :=
  ⟨fun ⟨n, hn⟩ => propagable_of_propagates hac hrec htarget (hn n le_rfl),
    propagates_of_propagable hac hrec htarget⟩

end Message

/-! ## Deployments where nothing raises -/

/-- Services whose methods raise nothing, each linked to those it uses to be destroyed and
rebuilt with them; a pair is a service and one that uses it. -/
def ofUses (uses : List (Service × Service)) : Deployment where
  services := uses.map Prod.snd
  usedBy t := (uses.filter fun u => u.1 = t).map Prod.snd
  usedBy_mem t d hd := by
    obtain ⟨u, hu, rfl⟩ := List.mem_map.mp hd
    exact List.mem_map_of_mem (List.mem_filter.mp hu).1
  liaison := .ofEntries <| uses.map fun u =>
    (u.2.className.text, .ofEntries <| (uses.filter fun v => v.2.className = u.2.className).map
      fun v => (v.1.className, { toBuild := true, toDestroy := true }))
  liaison_keys k hk := by
    obtain ⟨e, he, rfl⟩ := List.mem_map.mp ((Dict.mem_keys_ofEntries _ k).mp hk)
    obtain ⟨u, -, rfl⟩ := List.mem_map.mp he
    exact u.2.className.noAt
  mirror := .empty
  classDependency := .empty
  destroy _ _ := {}
  asyncVerify _ := ({}, true)
  verify _ := {}
  build _ _ := {}
  callback _ _ := none

/-- A use from a list in which a service comes after those it uses closes no cycle. -/
theorem acyclicUse_ofUses {uses : List (Service × Service)} (rank : Service → Nat)
    (h : ∀ u ∈ uses, rank u.1 < rank u.2) : (ofUses uses).AcyclicUse := by
  have hlt : ∀ t d, TransGen (ofUses uses).Uses t d → rank t < rank d := by
    have hone : ∀ t d, (ofUses uses).Uses t d → rank t < rank d := by
      intro t d htd
      obtain ⟨u, hu, rfl⟩ := List.mem_map.mp htd
      obtain ⟨hmem, ht⟩ := List.mem_filter.mp hu
      rw [decide_eq_true_iff] at ht
      exact ht ▸ h u hmem
    intro t d htd
    induction htd with
    | single h => exact hone _ _ h
    | tail _ h ih => exact ih.trans (hone _ _ h)
  exact fun s hs => lt_irrefl _ (hlt s s hs)

/-- A profile and the mail service made for it. -/
def profile : Service := ⟨⟨"ProfileMiniService", by decide⟩, some "p1"⟩

def smtpEmail : Service := ⟨⟨"SMTPEmailMiniService", by decide⟩, some "p1"⟩

/-- A service and one that uses it. -/
def vault : Service := ⟨⟨"VaultService", by decide⟩, none⟩

def mongoose : Service := ⟨⟨"MongooseService", by decide⟩, none⟩

def tortoise : Service := ⟨⟨"TortoiseConnectionService", by decide⟩, none⟩

def profiles : Service := ⟨⟨"ProfileService", by decide⟩, none⟩

/-- The parts of a service a class does not change. -/
def plainServices (_ : Service) : BaseService := { sync := false, containerLifecycleScope := true }

/-- A message to rebuild. -/
def rebuild (service : String) : StateProtocol := { service, toBuild := true }

/-- The link of a mini service is never found: with the profile rebuilt, what uses it is not. -/
theorem not_propagates :
    (ofUses [(profile, smtpEmail)]).AcyclicUse ∧
      ¬ ∃ n, ∀ depth ≥ n, (ofUses [(profile, smtpEmail)]).Propagates profile
        ((ofUses [(profile, smtpEmail)]).setServiceStatus depth (rebuild "ProfileService")
          (some profile) (start plainServices)) := by
  have hac : (ofUses [(profile, smtpEmail)]).AcyclicUse :=
    acyclicUse_ofUses (fun s => if s = profile then 0 else 1) (by decide)
  refine ⟨hac, fun ⟨n, hn⟩ => ?_⟩
  have h := propagable_of_propagates hac rfl rfl (hn n le_rfl)
  have hreg := (h.registered profile .refl smtpEmail (by decide)).1
  cases hreg

/-- The three services of a chain of uses. -/
theorem leads_vault {s : Service}
    (h : Leads (ofUses [(vault, mongoose), (mongoose, profiles)]).linked vault s) :
    s = vault ∨ s = mongoose ∨ s = profiles := by
  induction h with
  | refl => exact .inl rfl
  | tail _ hd ih =>
    rcases ih with rfl | rfl | rfl
    · exact .inr (.inl (List.mem_singleton.mp hd))
    · exact .inr (.inr (List.mem_singleton.mp hd))
    · cases hd

/-- Along a chain of uses a message propagates. -/
theorem propagates_vault :
    ∃ n, ∀ depth ≥ n, (ofUses [(vault, mongoose), (mongoose, profiles)]).Propagates vault
      ((ofUses [(vault, mongoose), (mongoose, profiles)]).setServiceStatus depth
        (rebuild "VaultService") (some vault) (start plainServices)) := by
  have hac : (ofUses [(vault, mongoose), (mongoose, profiles)]).AcyclicUse :=
    acyclicUse_ofUses (fun s => if s = vault then 0 else if s = mongoose then 1 else 2) (by decide)
  refine (propagates_iff _ hac _ _ rfl _ _ rfl).mpr ⟨nofun, ?_, nofun, ?_, ?_, ?_⟩
  · decide +kernel
  · intro s hs
    rcases leads_vault hs with rfl | rfl | rfl <;> decide +kernel
  · intro s d hs hdirect
    have hd := hdirect.1
    rcases leads_vault hs with rfl | rfl | rfl
    · obtain rfl := List.mem_singleton.mp hd
      decide +kernel
    · obtain rfl := List.mem_singleton.mp hd
      decide +kernel
    · cases hd
  · intro s hs pre a post hsplit b hb
    have hlen := congrArg List.length hsplit
    have hone : ((ofUses [(vault, mongoose), (mongoose, profiles)]).linked s).length ≤ 1 := by
      rcases leads_vault hs with rfl | rfl | rfl <;> decide +kernel
    have hpos := List.length_pos_of_mem hb
    simp only [List.length_append, List.length_cons] at hlen
    omega

/-- What uses two services that are rebuilt is rebuilt with the first of them. -/
example :
    ((ofUses [(vault, mongoose), (vault, tortoise), (mongoose, profiles),
      (tortoise, profiles)]).setServiceStatus 9 (rebuild "VaultService") (some vault)
        (start plainServices)).2.acts =
      [.builder vault, .destroyer mongoose, .builder mongoose, .destroyer profiles,
        .builder profiles, .destroyer tortoise, .builder tortoise] := by decide +kernel

end Deployment

end Notifyr
