import Mathlib.Data.Fintype.Basic
import Mathlib.Order.Basic

/-!
# Effectful programs and their interleavings

Programs that talk to a shared store by atomic commands and may raise. A program is a tree:
it has ended (with a value or an exception), or it issues a command and continues on the
reply, which may itself be an exception.

- `Prog`: the trees, with `andThen` as the one combinator that sequencing (`bind`),
  `tryCatch` and `tryFinally` are instances of.
- `Handler`: what one command does to the shared store and to the issuing process's own
  local state, atomically.
- `Config`, `run`: a family of processes and a schedule; each entry of the schedule lets one
  process perform its next command.
- `Sat`: a rely–guarantee judgement with ghost state, by recursion on the program. A process
  may assume that the others move the store along the relation `R`; each of its own commands
  must meet `G`, which relates the store and its ghost before and after.
- `Turn`, `Config.serial`: serial runs, in which whole programs stand among single commands.
- `AllSat.run_filter`: processes that leave the store alone can be left out of a schedule.
- `inv_run`: if `G` implies `R` and preserves a global invariant, every process's judgement
  and the invariant survive every schedule.
-/

namespace Theory

/-- A program issuing commands `C` with replies `R`, raising `ε`, ending with `α`. -/
inductive Prog (C R ε α : Type) : Type
  /-- The program has ended: it returned a value or raised. -/
  | ret (r : Except ε α)
  /-- The program issues `c` and continues on the reply. -/
  | call (c : C) (k : Except ε R → Prog C R ε α)

namespace Prog

variable {C R ε α β : Type}

/-- Continue a program with whatever it ends with, a value or an exception. -/
def andThen : Prog C R ε α → (Except ε α → Prog C R ε β) → Prog C R ε β
  | .ret r, f => f r
  | .call c k, f => .call c fun r => (k r).andThen f

/-- Sequencing: an exception skips the continuation. -/
def bind (p : Prog C R ε α) (f : α → Prog C R ε β) : Prog C R ε β :=
  p.andThen fun
    | .ok a => f a
    | .error e => .ret (.error e)

instance : Monad (Prog C R ε) where
  pure a := .ret (.ok a)
  bind := bind

/-- Raise an exception. -/
def raise (e : ε) : Prog C R ε α := .ret (.error e)

/-- Issue one command and return its reply, raising when the reply is an exception. -/
def issue (c : C) : Prog C R ε R := .call c .ret

/-- `try p except …`: the handler is chosen by the exception raised. -/
def tryCatch (p : Prog C R ε α) (h : ε → Prog C R ε α) : Prog C R ε α :=
  p.andThen fun
    | .ok a => .ret (.ok a)
    | .error e => h e

/-- `try p finally q`: `q` runs either way; its own exception replaces `p`'s outcome. -/
def tryFinally (p : Prog C R ε α) (q : Prog C R ε Unit) : Prog C R ε α :=
  p.andThen fun r => q.bind fun _ => .ret r

/-- Lift a computation that issues no command. -/
def liftExcept (r : Except ε α) : Prog C R ε α := .ret r

theorem pure_def (a : α) : (pure a : Prog C R ε α) = .ret (.ok a) := rfl

theorem bind_assoc {δ : Type} (p : Prog C R ε α) (f : α → Prog C R ε β)
    (g : β → Prog C R ε δ) : p >>= f >>= g = p >>= fun a => f a >>= g := by
  induction p with
  | ret r =>
    cases r with
    | ok a => rfl
    | error e => rfl
  | call c k ih => exact congrArg (Prog.call c) (funext ih)

/-- The outcome of a program that has ended. -/
def result? : Prog C R ε α → Option (Except ε α)
  | .ret r => some r
  | .call _ _ => none

end Prog

/-- What one command does, atomically: the reply, the new shared store and the new local
state of the process that issued it. -/
abbrev Handler (C R ε S L : Type) := C → S → L → Except ε R × S × L

section Semantics

variable {C R ε S L α γ ι : Type} (H : Handler C R ε S L)

/-- Run a program with nothing interleaved. -/
def runAlone : Prog C R ε α → S → L → Except ε α × S × L
  | .ret r, s, l => (r, s, l)
  | .call c k, s, l => runAlone (k (H c s l).1) (H c s l).2.1 (H c s l).2.2

/-- A program that is run alone and continued: the continuation runs where it has ended. -/
theorem runAlone_andThen {β : Type} (p : Prog C R ε α) (f : Except ε α → Prog C R ε β) (s : S)
    (l : L) :
    runAlone H (p.andThen f) s l =
      runAlone H (f (runAlone H p s l).1) (runAlone H p s l).2.1 (runAlone H p s l).2.2 := by
  induction p generalizing s l with
  | ret r => rfl
  | call c k ih => exact ih _ _ _

/-- A shared store and a family of processes, each with its program and local state. -/
structure Config (C R ε S L α ι : Type) where
  shared : S
  prog : ι → Prog C R ε α
  loc : ι → L

variable [DecidableEq ι]

/-- Process `i` performs its next command; a process that has ended stays as it is. -/
def Config.step (cfg : Config C R ε S L α ι) (i : ι) : Config C R ε S L α ι :=
  match cfg.prog i with
  | .ret _ => cfg
  | .call c k =>
    { shared := (H c cfg.shared (cfg.loc i)).2.1
      prog := Function.update cfg.prog i (k (H c cfg.shared (cfg.loc i)).1)
      loc := Function.update cfg.loc i (H c cfg.shared (cfg.loc i)).2.2 }

/-- Run a schedule. -/
def Config.run (cfg : Config C R ε S L α ι) (sched : List ι) : Config C R ε S L α ι :=
  sched.foldl (Config.step H) cfg

theorem Config.run_append (cfg : Config C R ε S L α ι) (s₁ s₂ : List ι) :
    cfg.run H (s₁ ++ s₂) = (cfg.run H s₁).run H s₂ := List.foldl_append

theorem Config.run_cons (cfg : Config C R ε S L α ι) (i : ι) (s : List ι) :
    cfg.run H (i :: s) = (cfg.step H i).run H s := rfl

/-- A step moves no process but the one it is of. -/
theorem Config.prog_step_ne (cfg : Config C R ε S L α ι) {i j : ι} (h : j ≠ i) :
    (cfg.step H i).prog j = cfg.prog j := by
  unfold Config.step
  split
  · rfl
  · exact Function.update_of_ne h ..

theorem Config.loc_step_ne (cfg : Config C R ε S L α ι) {i j : ι} (h : j ≠ i) :
    (cfg.step H i).loc j = cfg.loc j := by
  unfold Config.step
  split
  · rfl
  · exact Function.update_of_ne h ..

/-- What a step does is read off the store and the process that moves. -/
theorem Config.shared_step_congr {cfg cfg' : Config C R ε S L α ι} {i : ι}
    (hshared : cfg.shared = cfg'.shared) (hprog : cfg.prog i = cfg'.prog i)
    (hloc : cfg.loc i = cfg'.loc i) : (cfg.step H i).shared = (cfg'.step H i).shared := by
  unfold Config.step
  rw [← hprog, ← hloc, ← hshared]
  cases cfg.prog i with
  | ret r => exact hshared
  | call c k => rfl

theorem Config.self_step_congr {cfg cfg' : Config C R ε S L α ι} {i : ι}
    (hshared : cfg.shared = cfg'.shared) (hprog : cfg.prog i = cfg'.prog i)
    (hloc : cfg.loc i = cfg'.loc i) :
    (cfg.step H i).prog i = (cfg'.step H i).prog i ∧
      (cfg.step H i).loc i = (cfg'.step H i).loc i := by
  unfold Config.step
  rw [← hprog, ← hshared, ← hloc]
  cases cfg.prog i with
  | ret r => exact ⟨hprog, hloc⟩
  | call c k => simp only [Function.update_self, and_self]

/-- A turn of a serial run: a process runs to its end, or performs one command. -/
inductive Turn (ι : Type)
  | whole (i : ι)
  | one (i : ι)

/-- The process of a turn that runs to its end. -/
def Turn.whole? {ι : Type} : Turn ι → Option ι
  | .whole i => some i
  | .one _ => none

/-- The process of a turn that is one command. -/
def Turn.one? {ι : Type} : Turn ι → Option ι
  | .whole _ => none
  | .one i => some i

theorem Turn.filterMap_whole_map_one {ι : Type} (is : List ι) :
    (is.map Turn.one).filterMap Turn.whole? = [] := by
  rw [List.filterMap_map]
  exact List.filterMap_eq_nil_iff.mpr fun _ _ => rfl

theorem Turn.filterMap_one_map_one {ι : Type} (is : List ι) :
    (is.map Turn.one).filterMap Turn.one? = is := by
  rw [List.filterMap_map]
  exact List.filterMap_some

/-- One turn. -/
def Config.turn (cfg : Config C R ε S L α ι) : Turn ι → Config C R ε S L α ι
  | .whole i =>
    { shared := (runAlone H (cfg.prog i) cfg.shared (cfg.loc i)).2.1
      prog := Function.update cfg.prog i (.ret (runAlone H (cfg.prog i) cfg.shared (cfg.loc i)).1)
      loc := Function.update cfg.loc i (runAlone H (cfg.prog i) cfg.shared (cfg.loc i)).2.2 }
  | .one i => cfg.step H i

/-- A serial run. -/
def Config.serial (cfg : Config C R ε S L α ι) (turns : List (Turn ι)) :
    Config C R ε S L α ι :=
  turns.foldl (Config.turn H) cfg

theorem Config.serial_map_one (cfg : Config C R ε S L α ι) (sched : List ι) :
    cfg.serial H (sched.map .one) = cfg.run H sched := by
  unfold Config.serial
  rw [List.foldl_map]
  rfl

/-- A process has ended with a value. -/
def Config.returned (cfg : Config C R ε S L α ι) (i : ι) : Bool :=
  match (cfg.prog i).result? with
  | some (.ok _) => true
  | _ => false

omit [DecidableEq ι] in
/-- What `returned` says of a process that has ended. -/
theorem Config.returned_eq {cfg : Config C R ε S L α ι} {i : ι} {r : Except ε α}
    (h : (cfg.prog i).result? = some r) : cfg.returned i = r.isOk := by
  unfold Config.returned
  rw [h]
  cases r with
  | ok a => rfl
  | error e => rfl

/-- Every process has ended. -/
def Config.Finished (cfg : Config C R ε S L α ι) : Prop :=
  ∀ i, (cfg.prog i).result? ≠ none

instance [Fintype ι] (cfg : Config C R ε S L α ι) : Decidable cfg.Finished :=
  inferInstanceAs (Decidable (∀ i, (cfg.prog i).result? ≠ none))

/-- An ended process stays ended, with the outcome it had. -/
theorem Config.result_run (cfg : Config C R ε S L α ι) {i : ι} {r : Except ε α}
    (h : (cfg.prog i).result? = some r) (sched : List ι) :
    ((cfg.run H sched).prog i).result? = some r := by
  induction sched generalizing cfg with
  | nil => exact h
  | cons j rest ih =>
    refine ih (cfg.step H j) ?_
    unfold Config.step
    split
    · exact h
    · rename_i c k hj
      by_cases hij : i = j
      · subst hij
        rw [hj] at h
        cases h
      -- another process moved
      · show (Function.update cfg.prog j _ i).result? = some r
        rw [Function.update_of_ne hij]
        exact h

/-- A configuration whose processes have all ended does not move. -/
theorem Config.run_of_finished {cfg : Config C R ε S L α ι} (h : cfg.Finished)
    (sched : List ι) : cfg.run H sched = cfg := by
  induction sched with
  | nil => rfl
  | cons i rest ih =>
    have hi := h i
    have hstep : cfg.step H i = cfg := by
      unfold Config.step
      split
      · rfl
      · rename_i c k hc
        rw [hc] at hi
        exact absurd rfl hi
    rw [Config.run_cons, hstep]
    exact ih

/-- Scheduling one process alone brings it to its end. -/
theorem Config.exists_result (i : ι) (cfg : Config C R ε S L α ι) :
    ∃ sched, ((cfg.run H sched).prog i).result? ≠ none := by
  obtain ⟨p, hp⟩ : ∃ p, cfg.prog i = p := ⟨_, rfl⟩
  induction p generalizing cfg with
  | ret r =>
    refine ⟨[], ?_⟩
    show (cfg.prog i).result? ≠ none
    rw [hp]
    exact Option.some_ne_none r
  | call c k ih =>
    have hstep : (cfg.step H i).prog i = k (H c cfg.shared (cfg.loc i)).1 := by
      unfold Config.step
      rw [hp]
      exact Function.update_self ..
    obtain ⟨sched, hs⟩ := ih _ (cfg.step H i) hstep
    exact ⟨i :: sched, hs⟩

/-- Every run can be continued to one in which all processes have ended. -/
theorem Config.exists_finished [Fintype ι] (cfg : Config C R ε S L α ι) :
    ∃ sched, (cfg.run H sched).Finished := by
  have hall : ∀ is : List ι, ∃ sched, ∀ i ∈ is, ((cfg.run H sched).prog i).result? ≠ none := by
    intro is
    induction is with
    | nil => exact ⟨[], nofun⟩
    | cons i rest ih =>
      obtain ⟨s₁, h₁⟩ := ih
      -- those that had ended stay ended while process `i` is brought to its end
      obtain ⟨s₂, h₂⟩ := Config.exists_result H i (cfg.run H s₁)
      refine ⟨s₁ ++ s₂, ?_⟩
      rw [Config.run_append]
      intro j hj
      rcases List.mem_cons.mp hj with rfl | hj
      · exact h₂
      · obtain ⟨r, hr⟩ := Option.ne_none_iff_exists'.mp (h₁ j hj)
        rw [Config.result_run H _ hr]
        exact Option.some_ne_none r
  obtain ⟨sched, h⟩ := hall Finset.univ.toList
  exact ⟨sched, fun i => h i (Finset.mem_toList.mpr (Finset.mem_univ i))⟩

end Semantics

/-! ## Rely–guarantee -/

section RelyGuarantee

variable {C R ε S L α β γ ι : Type} (H : Handler C R ε S L) (Rely : S → S → Prop)

/-- The rely–guarantee judgement: whatever `Rely`-evolution of the store happens before each
command, the command meets `G` for some new ghost, and an ended program meets `post`, which
sees the outcome, the local state and the ghost. -/
def Sat (G : γ → S → γ → S → Prop) (post : Except ε α → L → γ → Prop) :
    Prog C R ε α → L → γ → S → Prop
  | .ret r, l, g, _ => post r l g
  | .call c k, l, g, s => ∀ t, Rely s t →
      ∃ g', G g t g' (H c t l).2.1 ∧
        Sat G post (k (H c t l).1) (H c t l).2.2 g' (H c t l).2.1

variable {Rely} in
/-- The judgement is stable under the other processes' moves. -/
theorem Sat.mono {G : γ → S → γ → S → Prop} {post : Except ε α → L → γ → Prop}
    (trans : ∀ a b c, Rely a b → Rely b c → Rely a c) {p : Prog C R ε α} {l : L} {g : γ}
    {s t : S} (hst : Rely s t) (h : Sat H Rely G post p l g s) :
    Sat H Rely G post p l g t := by
  cases p with
  | ret r => exact h
  | call c k => exact fun u htu => h u (trans _ _ _ hst htu)

/-- Sequential composition: the continuation must be judged from every way the first program
may end. -/
theorem Sat.andThen {G : γ → S → γ → S → Prop} {mid : Except ε α → L → γ → Prop}
    {post : Except ε β → L → γ → Prop} {p : Prog C R ε α} {f : Except ε α → Prog C R ε β}
    {l : L} {g : γ} {s : S} (hp : Sat H Rely G mid p l g s)
    (hf : ∀ r l g s, mid r l g → Sat H Rely G post (f r) l g s) :
    Sat H Rely G post (p.andThen f) l g s := by
  induction p generalizing l g s with
  | ret r => exact hf r l g s hp
  | call c k ih =>
    intro t ht
    obtain ⟨g', hG, hk⟩ := hp t ht
    exact ⟨g', hG, ih _ hk⟩

/-- A weaker postcondition. -/
theorem Sat.weaken {G : γ → S → γ → S → Prop} {post post' : Except ε α → L → γ → Prop}
    {p : Prog C R ε α} {l : L} {g : γ} {s : S} (hp : Sat H Rely G post p l g s)
    (himp : ∀ r l g, post r l g → post' r l g) : Sat H Rely G post' p l g s := by
  induction p generalizing l g s with
  | ret r => exact himp r l g hp
  | call c k ih =>
    intro t ht
    obtain ⟨g', hG, hk⟩ := hp t ht
    exact ⟨g', hG, ih _ hk⟩

/-- A weaker guarantee. -/
theorem Sat.weaken_guarantee {G G' : γ → S → γ → S → Prop} {post : Except ε α → L → γ → Prop}
    {p : Prog C R ε α} {l : L} {g : γ} {s : S} (hp : Sat H Rely G post p l g s)
    (himp : ∀ g s g' s', G g s g' s' → G' g s g' s') : Sat H Rely G' post p l g s := by
  induction p generalizing l g s with
  | ret r => exact hp
  | call c k ih =>
    intro t ht
    obtain ⟨g', hG, hk⟩ := hp t ht
    exact ⟨g', himp _ _ _ _ hG, ih _ hk⟩

/-- A program of which nothing is asked. -/
theorem Sat.free {G : γ → S → γ → S → Prop} (hG : ∀ g s s', G g s g s') (p : Prog C R ε α) (l : L)
    (g : γ) (s : S) : Sat H Rely G (fun _ _ _ => True) p l g s := by
  induction p generalizing l s with
  | ret r => trivial
  | call c k ih => exact fun t _ => ⟨g, hG _ _ _, ih _ _ _⟩

/-- A judged program that is run alone: what its commands preserve holds at the end. -/
theorem Sat.runAlone {G : γ → S → γ → S → Prop} {post : Except ε α → L → γ → Prop}
    (refl : ∀ a, Rely a a) {p : Prog C R ε α} {l : L} {g : γ} {s : S}
    (hp : Sat H Rely G post p l g s) {J : γ → S → Prop}
    (hJ : ∀ g t g' t', G g t g' t' → J g t → J g' t') (hs : J g s) :
    ∃ g', post (runAlone H p s l).1 (runAlone H p s l).2.2 g' ∧
      J g' (runAlone H p s l).2.1 := by
  induction p generalizing l g s with
  | ret r => exact ⟨g, hp, hs⟩
  | call c k ih =>
    obtain ⟨g', hG, hk⟩ := hp s (refl s)
    exact ih _ hk (hJ g s g' _ hG hs)

/-- One command, then the rest of the program on its reply; an exception ends it. -/
theorem Sat.issue_bind {G : γ → S → γ → S → Prop} {post : Except ε β → L → γ → Prop} {c : C}
    {f : R → Prog C R ε β} {l : L} {g : γ} {s : S}
    (h : ∀ t, Rely s t → ∃ g', G g t g' (H c t l).2.1 ∧
      match (H c t l).1 with
      | .ok a => Sat H Rely G post (f a) (H c t l).2.2 g' (H c t l).2.1
      | .error e => post (.error e) (H c t l).2.2 g') :
    Sat H Rely G post (Prog.issue c >>= f) l g s := by
  intro t ht
  obtain ⟨g', hG, hf⟩ := h t ht
  refine ⟨g', hG, ?_⟩
  cases hr : (H c t l).1 with
  | ok a =>
    rw [hr] at hf
    exact hf
  | error e =>
    rw [hr] at hf
    exact hf

/-- One command whose reply is known not to be an exception, then the rest. -/
theorem Sat.issue_bind_ok {G : γ → S → γ → S → Prop} {post : Except ε β → L → γ → Prop}
    {c : C} {f : R → Prog C R ε β} {l : L} {g : γ} {s : S}
    (h : ∀ t, Rely s t → ∃ a t' l' g',
      H c t l = (.ok a, t', l') ∧ G g t g' t' ∧ Sat H Rely G post (f a) l' g' t') :
    Sat H Rely G post (Prog.issue c >>= f) l g s := by
  refine Sat.issue_bind H Rely fun t ht => ?_
  obtain ⟨a, t', l', g', hH, hG, hf⟩ := h t ht
  rw [hH]
  exact ⟨g', hG, hf⟩

/-- Every process meets its judgement at the current store. -/
def AllSat (G : ι → γ → S → γ → S → Prop) (post : ι → Except ε α → L → γ → Prop)
    (cfg : Config C R ε S L α ι) (gh : ι → γ) : Prop :=
  ∀ i, Sat H Rely (G i) (post i) (cfg.prog i) (cfg.loc i) (gh i) cfg.shared

variable [DecidableEq ι] {G : ι → γ → S → γ → S → Prop}
  {post : ι → Except ε α → L → γ → Prop}

/-- One step: the moving process meets its guarantee, the others keep their judgements. -/
theorem allSat_step (refl : ∀ a, Rely a a)
    (trans : ∀ a b c, Rely a b → Rely b c → Rely a c)
    (hGR : ∀ i g s g' s', G i g s g' s' → Rely s s')
    {cfg : Config C R ε S L α ι} {gh : ι → γ} (h : AllSat H Rely G post cfg gh)
    (i : ι) :
    (cfg.step H i = cfg) ∨
      ∃ g', G i (gh i) cfg.shared g' (cfg.step H i).shared ∧
        AllSat H Rely G post (cfg.step H i) (Function.update gh i g') := by
  have hi := h i
  unfold Config.step
  split
  · exact .inl rfl
  · rename_i c k hc
    rw [hc] at hi
    obtain ⟨g', hG, hk⟩ := hi cfg.shared (refl _)
    -- the guarantee of process `i` is part of the rely of the others
    refine .inr ⟨g', hG, fun j => ?_⟩
    by_cases hj : j = i
    · subst hj
      simpa only [Function.update_self] using hk
    · simpa only [Function.update_of_ne hj] using (h j).mono H trans (hGR i _ _ _ _ hG)

/-- **The run rule.** If every guarantee implies the rely and preserves the invariant `J`, and
ghosts only grow, then after any schedule all judgements and `J` hold for some ghosts above
the initial ones. -/
theorem inv_run [Preorder γ] (refl : ∀ a, Rely a a)
    (trans : ∀ a b c, Rely a b → Rely b c → Rely a c)
    (hGR : ∀ i g s g' s', G i g s g' s' → Rely s s')
    (hle : ∀ i g s g' s', G i g s g' s' → g ≤ g')
    {J : S → (ι → γ) → Prop}
    (hJ : ∀ i s gh g' s', G i (gh i) s g' s' → J s gh → J s' (Function.update gh i g'))
    (sched : List ι) {cfg : Config C R ε S L α ι} {gh : ι → γ}
    (h : AllSat H Rely G post cfg gh) (hj : J cfg.shared gh) :
    ∃ gh', AllSat H Rely G post (cfg.run H sched) gh' ∧
      J (cfg.run H sched).shared gh' ∧ ∀ i, gh i ≤ gh' i := by
  induction sched generalizing cfg gh with
  | nil => exact ⟨gh, h, hj, fun _ => le_rfl⟩
  | cons i rest ih =>
    rw [Config.run_cons]
    rcases allSat_step H Rely refl trans hGR h i with hsame | ⟨g', hG, hall⟩
    · rw [hsame]
      exact ih h hj
    · obtain ⟨gh', hall', hj', hup⟩ := ih hall (hJ i _ _ _ _ hG hj)
      -- only the ghost of process `i` moved in the first step
      refine ⟨gh', hall', hj', fun j => le_trans ?_ (hup j)⟩
      by_cases hji : j = i
      · subst hji
        rw [Function.update_self]
        exact hle _ _ _ _ _ hG
      · rw [Function.update_of_ne hji]

omit [DecidableEq ι] in
/-- An ended process meets its postcondition. -/
theorem AllSat.post_of_result {cfg : Config C R ε S L α ι} {gh : ι → γ}
    (h : AllSat H Rely G post cfg gh) {i : ι} {r : Except ε α}
    (hr : (cfg.prog i).result? = some r) : post i r (cfg.loc i) (gh i) := by
  have hi := h i
  cases hp : cfg.prog i with
  | ret r' =>
    rw [hp] at hi hr
    cases hr
    exact hi
  | call c k =>
    rw [hp] at hr
    cases hr

/-- Processes whose commands all leave the store alone can be left out of a schedule: the store
goes the way the other processes take it. -/
theorem AllSat.run_filter (refl : ∀ a, Rely a a)
    (trans : ∀ a b c, Rely a b → Rely b c → Rely a c)
    (hGR : ∀ i g s g' s', G i g s g' s' → Rely s s') (idle : ι → Bool)
    (hidle : ∀ i, idle i → ∀ g s g' s', G i g s g' s' → s' = s) (sched : List ι)
    {cfg cfg' : Config C R ε S L α ι} {gh : ι → γ} (h : AllSat H Rely G post cfg gh)
    (hshared : cfg.shared = cfg'.shared)
    (hsame : ∀ i, idle i = false → cfg.prog i = cfg'.prog i ∧ cfg.loc i = cfg'.loc i) :
    (cfg.run H sched).shared = (cfg'.run H (sched.filter fun i => !idle i)).shared := by
  induction sched generalizing cfg cfg' gh with
  | nil => exact hshared
  | cons i rest ih =>
    obtain ⟨gh', h'⟩ : ∃ gh', AllSat H Rely G post (cfg.step H i) gh' := by
      rcases allSat_step H Rely refl trans hGR h i with hstep | ⟨g', -, h'⟩
      · rw [hstep]
        exact ⟨gh, h⟩
      · exact ⟨_, h'⟩
    rw [Config.run_cons, List.filter_cons]
    by_cases hi : idle i = true
    · -- a step of an idle process: the other run does nothing
      rw [if_neg (by simp [hi])]
      refine ih h' ?_ fun j hj => ?_
      · rcases allSat_step H Rely refl trans hGR h i with hstep | ⟨g', hG, -⟩
        · rw [hstep]
          exact hshared
        · exact (hidle i hi _ _ _ _ hG).trans hshared
      · have hji : j ≠ i := fun hji => by
          rw [hji, hi] at hj
          cases hj
        rw [Config.prog_step_ne H cfg hji, Config.loc_step_ne H cfg hji]
        exact hsame j hj
    · have hi' : idle i = false := by simpa using hi
      rw [if_pos (by simp [hi']), Config.run_cons]
      obtain ⟨hprog, hloc⟩ := hsame i hi'
      refine ih h' ?_ fun j hj => ?_
      · exact Config.shared_step_congr H hshared hprog hloc
      · by_cases hji : j = i
        · subst hji
          exact Config.self_step_congr H hshared hprog hloc
        · rw [Config.prog_step_ne H cfg hji, Config.loc_step_ne H cfg hji,
            Config.prog_step_ne H cfg' hji, Config.loc_step_ne H cfg' hji]
          exact hsame j hj

end RelyGuarantee

end Theory
