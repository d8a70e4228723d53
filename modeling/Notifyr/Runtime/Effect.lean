import Notifyr.Runtime.Python

/-!
# Computations with effects

A computation of the interpreter on a state, which keeps what it has changed when it raises.

- `EffectM`: such a computation; `EffectM.lift`: one that changes nothing.
- `run_bind` and the lemmas after it: what a computation does first, and what is left to do.
- `EffectM.Settles`: a computation returns under a condition and raises otherwise, whatever the
  state; `Settles.bind` and the lemmas after it, `settles_forM`: the same of sequences and loops.
- `exists_mapM_ok_iff`: a pure loop that makes a list.
-/

namespace Notifyr

/-- A loop that makes a list raises at no member, or at one. -/
theorem exists_mapM_ok_iff {α β : Type} {f : α → Py β} {l : List α} :
    (∃ l', l.mapM f = .ok l') ↔ ∀ a ∈ l, ∃ b, f a = .ok b := by
  induction l with
  | nil => exact iff_of_true ⟨[], rfl⟩ nofun
  | cons a l ih =>
    rw [List.forall_mem_cons, ← ih, List.mapM_cons]
    constructor
    · rintro ⟨l', h⟩
      obtain ⟨b, hb, h⟩ := bind_ok h
      obtain ⟨bs, hbs, -⟩ := bind_ok h
      exact ⟨⟨b, hb⟩, bs, hbs⟩
    · rintro ⟨⟨b, hb⟩, bs, hbs⟩
      exact ⟨b :: bs, by rw [hb, hbs]; rfl⟩

/-- A loop over different members makes different ones where it makes no two of them the same. -/
theorem nodup_mapM_iff {α β : Type} {f : α → Py β} {l : List α} {l' : List β} (hnodup : l.Nodup)
    (h : l.mapM f = .ok l') : l'.Nodup ↔ ∀ a ∈ l, ∀ b ∈ l, f a = f b → a = b := by
  induction l generalizing l' with
  | nil =>
    cases h
    exact iff_of_true List.nodup_nil nofun
  | cons a l ih =>
    obtain ⟨hnot, hrest⟩ := List.nodup_cons.mp hnodup
    rw [List.mapM_cons] at h
    obtain ⟨b, hb, h⟩ := bind_ok h
    obtain ⟨bs, hbs, h⟩ := bind_ok h
    cases h
    rw [List.nodup_cons, ih hrest hbs, mem_mapM_ok_iff hbs]
    constructor
    · rintro ⟨hnew, hall⟩ x hx y hy heq
      rcases List.mem_cons.mp hx with hxa | hxl
      · rcases List.mem_cons.mp hy with hya | hyl
        · exact hxa.trans hya.symm
        · exact absurd ⟨y, hyl, heq ▸ hxa ▸ hb⟩ hnew
      · rcases List.mem_cons.mp hy with hya | hyl
        · exact absurd ⟨x, hxl, heq ▸ hya ▸ hb⟩ hnew
        · exact hall x hxl y hyl heq
    · intro hall
      refine ⟨?_, fun x hx y hy =>
        hall x (List.mem_cons_of_mem _ hx) y (List.mem_cons_of_mem _ hy)⟩
      rintro ⟨x, hx, hfx⟩
      have heq := hall a List.mem_cons_self x (List.mem_cons_of_mem _ hx) (hb.trans hfx.symm)
      exact hnot (heq ▸ hx)

/-- A computation on a state; what it has changed stays when it raises. -/
abbrev EffectM (σ : Type) := ExceptT PyErr (StateM σ)

namespace EffectM

variable {σ α β : Type}

/-- A pure computation. -/
def lift (r : Py α) : EffectM σ α := ExceptT.mk (pure r)

theorem run_bind (x : EffectM σ α) (f : α → EffectM σ β) (w : σ) :
    (x >>= f).run w =
      match x.run w with
      | (.ok a, w') => (f a).run w'
      | (.error e, w') => (.error e, w') := by
  rw [ExceptT.run_bind]
  unfold bind Monad.toBind StateT.instMonad StateT.bind
  dsimp only
  rcases (x.run w : Except PyErr α × σ) with ⟨_ | a, w'⟩
  · rfl
  · rfl

/-- A pure computation first. -/
theorem run_bind_lift (r : Py α) (f : α → EffectM σ β) (w : σ) :
    (lift r >>= f).run w =
      match r with
      | .ok a => (f a).run w
      | .error e => (.error e, w) := by
  rw [run_bind]
  cases r with
  | ok a => rfl
  | error e => rfl

/-- A look at the state first. -/
theorem run_bind_get (f : σ → EffectM σ β) (w : σ) : (get >>= f).run w = (f w).run w := rfl

/-- A change first. -/
theorem run_bind_modify (g : σ → σ) (f : PUnit → EffectM σ β) (w : σ) :
    (modify g >>= f).run w = (f ⟨⟩).run (g w) := rfl

/-- An error first, the same error after. -/
theorem run_bind_error {x : EffectM σ α} {f : α → EffectM σ β} {w w' : σ} {e : PyErr}
    (h : x.run w = (.error e, w')) : (x >>= f).run w = (.error e, w') := by
  rw [run_bind, h]

/-- A pure computation ends in an error, or the rest goes on in the same state. -/
theorem run_lift_bind {r : Py α} {f : α → EffectM σ β} {w w' : σ}
    (h : ∀ a, r = .ok a → ∃ e, (f a).run w = (.error e, w')) (hw : w = w') :
    ∃ e, (lift r >>= f).run w = (.error e, w') := by
  subst hw
  cases r with
  | ok a => exact h a rfl
  | error e => exact ⟨e, rfl⟩

/-! ## How a computation ends -/

/-- It returns in every state; `post` relates the state before, the value and the state after. -/
def Returns (x : EffectM σ α) (post : σ → α → σ → Prop) : Prop :=
  ∀ w, ∃ a w', x.run w = (.ok a, w') ∧ post w a w'

/-- It raises in every state. -/
def Raises (x : EffectM σ α) : Prop := ∀ w, ∃ e w', x.run w = (.error e, w')

/-- It returns where `p` holds, and raises where it does not. -/
structure Settles (x : EffectM σ α) (p : Prop) (post : σ → α → σ → Prop) : Prop where
  returns : p → x.Returns post
  raises : ¬p → x.Raises

variable {x : EffectM σ α} {f : α → EffectM σ β} {p q : Prop} {post : σ → α → σ → Prop}

theorem Returns.settles (h : x.Returns post) (hp : p) : x.Settles p post :=
  ⟨fun _ => h, fun hnp => absurd hp hnp⟩

theorem Raises.settles (h : x.Raises) (hp : ¬p) : x.Settles p post :=
  ⟨fun h' => absurd h' hp, fun _ => h⟩

theorem Settles.of_iff (h : x.Settles p post) (hpq : q ↔ p) : x.Settles q post :=
  ⟨fun hq => h.returns (hpq.mp hq), fun hq => h.raises (mt hpq.mpr hq)⟩

theorem raises_throw (e : PyErr) : (throw e : EffectM σ α).Raises := fun w => ⟨e, w, rfl⟩

/-- An error first. -/
theorem Raises.bind (h : x.Raises) : (x >>= f).Raises := by
  intro w
  obtain ⟨e, w', he⟩ := h w
  exact ⟨e, w', run_bind_error he⟩

/-- A sequence returns where both of its parts do. -/
theorem Settles.bind {mid : σ → α → σ → Prop} {post : σ → β → σ → Prop}
    {last : α → σ → β → σ → Prop} (hx : x.Settles p mid) (hf : ∀ a, (f a).Settles q (last a))
    (hpost : ∀ {w a w' b w''}, mid w a w' → last a w' b w'' → post w b w'') :
    (x >>= f).Settles (p ∧ q) post := by
  constructor
  · rintro ⟨hp, hq⟩ w
    obtain ⟨a, w', hrun, hmid⟩ := hx.returns hp w
    obtain ⟨b, w'', hrun', hlast⟩ := (hf a).returns hq w'
    refine ⟨b, w'', ?_, hpost hmid hlast⟩
    rw [run_bind, hrun]
    exact hrun'
  · intro hpq
    by_cases hp : p
    · intro w
      obtain ⟨a, w', hrun, -⟩ := hx.returns hp w
      obtain ⟨e, w'', hrun'⟩ := (hf a).raises (fun hq => hpq ⟨hp, hq⟩) w'
      refine ⟨e, w'', ?_⟩
      rw [run_bind, hrun]
      exact hrun'
    · exact (hx.raises hp).bind

/-- A pure computation first: the rest settles as its value says. -/
theorem settles_lift_bind {r : Py α} {p : α → Prop} {post : σ → β → σ → Prop}
    (h : ∀ a, r = .ok a → (f a).Settles (p a) post) :
    (lift r >>= f).Settles (∃ a, r = .ok a ∧ p a) post := by
  cases r with
  | error e =>
    have hraises : (lift (.error e) >>= f).Raises := fun w => ⟨e, w, rfl⟩
    exact hraises.settles (by rintro ⟨a, ha, -⟩; cases ha)
  | ok a =>
    constructor
    · rintro ⟨a', ha, hp⟩ w
      cases ha
      exact (h a rfl).returns hp w
    · intro hnp w
      exact (h a rfl).raises (fun hp => hnp ⟨a, rfl, hp⟩) w

/-- A change first: the rest settles from the state that is changed. -/
theorem Settles.modify_bind {g : σ → σ} {f : PUnit → EffectM σ β} {last post : σ → β → σ → Prop}
    (h : (f ⟨⟩).Settles p last) (hpost : ∀ {w b w'}, last (g w) b w' → post w b w') :
    (modify g >>= f).Settles p post := by
  constructor
  · intro hp w
    obtain ⟨b, w', hrun, hlast⟩ := h.returns hp (g w)
    exact ⟨b, w', hrun, hpost hlast⟩
  · intro hp w
    exact h.raises hp (g w)

/-- What a loop over a list leaves, one member after the other. -/
inductive Trail {ι : Type} (post : ι → σ → σ → Prop) : List ι → σ → σ → Prop
  | nil (w : σ) : Trail post [] w w
  | cons {i : ι} {l : List ι} {w w' w'' : σ} :
    post i w w' → Trail post l w' w'' → Trail post (i :: l) w w''

/-- A loop returns where each of its members does. -/
theorem settles_forM {ι : Type} {body : ι → EffectM σ PUnit} {p : ι → Prop}
    {post : ι → σ → σ → Prop}
    (h : ∀ i, (body i).Settles (p i) fun w _ w' => post i w w') (l : List ι) :
    (l.forM body).Settles (∀ i ∈ l, p i) fun w _ w' => Trail post l w w' := by
  induction l with
  | nil =>
    have hreturns : (([] : List ι).forM body).Returns fun w _ w' => Trail post [] w w' :=
      fun w => ⟨⟨⟩, w, rfl, .nil w⟩
    exact hreturns.settles (by simp)
  | cons i l ih =>
    have hseq : ((i :: l).forM body).Settles (p i ∧ ∀ j ∈ l, p j)
        fun w _ w' => Trail post (i :: l) w w' :=
      (h i).bind (fun _ => ih) fun hmid hlast => .cons hmid hlast
    exact hseq.of_iff List.forall_mem_cons

end EffectM

end Notifyr
