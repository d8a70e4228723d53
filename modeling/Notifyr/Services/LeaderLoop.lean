import Mathlib.Algebra.Order.Ring.Rat
import Mathlib.Logic.Function.Basic
import Mathlib.Tactic.Linarith
import Notifyr.Theory.Runs

/-!
# The leader loop

The instances of the application that run `TaskService._leader_loop` of
`app/services/worker/task_service.py`, and the key in Redis by which they choose a leader.

- `Leadership`: the clock, the key with its holder and expiry, and the instances. An instance is
  named by its `INSTANCE_ID`.
- `leaderStep`: what happens between two awaits of a loop, or time that passes.
- `LeaderSafe`: at most one scheduler runs, and only while the key of its instance has not expired.
- `safeRun_iff`: the runs that are safe in every state; `safeRun_short`: such a run ends
  before the first key of a running scheduler does, since a loop sleeps for longer than a key lives.
-/

namespace Notifyr

open Theory

/-- `LEADER_LOCK_TTL`, in seconds. -/
def leaderLockTtl : ℤ := 600

/-- `LEADER_LOCK_TTL_LOWER_BOUND`. -/
def leaderLockTtlLowerBound : ℤ := leaderLockTtl * 50 / 100

/-- `LEADER_LOCK_TTL_UPPER_BOUND`. -/
def leaderLockTtlUpperBound : ℤ := leaderLockTtl * 550 / 100

/-- Where a loop is: the await that it has to come back from. -/
inductive LoopPoint
  /-- `asyncio.sleep`, until a time. -/
  | sleeping (wake : ℚ)
  /-- `_try_acquire_lock`, right after a `continue`. -/
  | retrying
  /-- `self.resume()`. -/
  | resuming
  /-- `expire`. -/
  | renewing
  /-- `get`. -/
  | looking
  /-- The loop has returned. -/
  | ended
  deriving DecidableEq

/-- An instance: where its loop is, its `_leader`, and whether its scheduler runs un-paused. -/
structure LoopInstance where
  point : LoopPoint
  leader : Bool := false
  running : Bool := false
  deriving DecidableEq

/-- The clock, the key, and the instances. -/
structure Leadership (ι : Type) where
  now : ℚ
  key : Option (ι × ℚ)
  inst : ι → LoopInstance

/-- What happens: time passes, or a loop comes back from an await. The number is the one that
`randint` gives for the next sleep. -/
inductive LeaderAct (ι : Type)
  | tick (d : ℚ)
  | wake (i : ι)
  | resume (i : ι) (r : ℤ)
  | renew (i : ι) (r : ℤ)
  | look (i : ι) (r : ℤ)
  | fail (i : ι)

variable {ι : Type} [DecidableEq ι]

namespace Leadership

/-- The key, if it has not expired. -/
def liveKey (s : Leadership ι) : Option (ι × ℚ) := s.key.filter fun k => s.now < k.2

/-- An instance changes. -/
def setInst (s : Leadership ι) (i : ι) (x : LoopInstance) : Leadership ι :=
  { s with inst := Function.update s.inst i x }

/-- A loop goes on to another await. -/
def goTo (s : Leadership ι) (i : ι) (point : LoopPoint) : Leadership ι :=
  s.setInst i { s.inst i with point }

/-- A loop goes to its sleep at the end of an iteration. -/
def goToSleep (s : Leadership ι) (i : ι) (r : ℤ) : Leadership ι :=
  s.goTo i (.sleeping (s.now + (leaderLockTtl + r : ℤ)))

end Leadership

/-- What `randint` can give. -/
def IsPause (r : ℤ) : Prop := leaderLockTtlLowerBound ≤ r ∧ r ≤ leaderLockTtlUpperBound

instance (r : ℤ) : Decidable (IsPause r) :=
  inferInstanceAs (Decidable (leaderLockTtlLowerBound ≤ r ∧ r ≤ leaderLockTtlUpperBound))

/-- A loop can try to take the key: it has slept, or goes on at once. -/
def LoopPoint.due (now : ℚ) : LoopPoint → Bool
  | .sleeping wake => decide (wake ≤ now)
  | .retrying => true
  | _ => false

/-- `_try_acquire_lock`: `SET key id NX EX ttl`, and the branch that its answer leads to. -/
def tryAcquireLock (s : Leadership ι) (i : ι) : Leadership ι :=
  match s.liveKey with
  | some _ => s.goTo i .looking
  | none =>
    let s := { s with key := some (i, s.now + leaderLockTtl) }
    if (s.inst i).leader then s.goTo i .renewing else s.goTo i .resuming

/-- `expire`, which extends a key whoever holds it. -/
def expireKey (s : Leadership ι) : Leadership ι :=
  { s with key := s.liveKey.map fun k => (k.1, s.now + leaderLockTtl) }

/-- The answer of `get`, and what the loop does with it. -/
def lookAtKey (s : Leadership ι) (i : ι) (r : ℤ) : Leadership ι :=
  match s.liveKey with
  | none => s.goTo i .retrying
  | some (holder, _) =>
    if holder ≠ i then
      if (s.inst i).leader then
        (s.setInst i { s.inst i with running := false, leader := false }).goToSleep i r
      else
        s.goToSleep i r
    else
      s.goTo i .renewing

/-- One step; an action that cannot happen changes nothing. -/
def leaderStep (s : Leadership ι) : LeaderAct ι → Leadership ι
  | .tick d => if 0 ≤ d then { s with now := s.now + d } else s
  | .wake i => if (s.inst i).point.due s.now then tryAcquireLock s i else s
  | .resume i r =>
    if (s.inst i).point = .resuming ∧ IsPause r then
      (s.setInst i { s.inst i with running := true, leader := true }).goToSleep i r
    else s
  | .renew i r =>
    if (s.inst i).point = .renewing ∧ IsPause r then (expireKey s).goToSleep i r else s
  | .look i r => if (s.inst i).point = .looking ∧ IsPause r then lookAtKey s i r else s
  | .fail i => s.goTo i .ended

/-- The instances start, each at its own time, with a scheduler that is paused. -/
def leadersAt (wake : ι → ℚ) : Leadership ι where
  now := 0
  key := none
  inst := fun i => { point := .sleeping (wake i) }

/-! ## Safety -/

/-- An instance holds the key, which has not expired. -/
def Leadership.Holds (s : Leadership ι) (i : ι) : Prop := ∃ e, s.key = some (i, e) ∧ s.now < e

/-- At most one scheduler runs, and only while its instance holds the key. -/
structure LeaderSafe (s : Leadership ι) : Prop where
  single : ∀ i j, (s.inst i).running = true → (s.inst j).running = true → i = j
  holds : ∀ i, (s.inst i).running = true → s.Holds i

/-- A run is safe in every state that it reaches. -/
def SafeRun (wake : ι → ℚ) (as : List (LeaderAct ι)) : Prop :=
  ∀ before after, as = before ++ after → LeaderSafe (runFrom leaderStep (leadersAt wake) before)

/-- The condition on a step: the key of an instance whose scheduler runs does not expire in it, and
a scheduler is resumed only while its instance holds the key. -/
def LeaderGuard (s : Leadership ι) : LeaderAct ι → Prop
  | .tick d => 0 ≤ d → ∀ i e, (s.inst i).running = true → s.key = some (i, e) → s.now + d < e
  | .resume i r => (s.inst i).point = .resuming ∧ IsPause r → s.Holds i
  | _ => True

/-! ## Lemmas about steps -/

section Steps

variable {ι : Type} {s s' : Leadership ι} {i j : ι}

namespace Leadership

/-- A key that an instance holds has not expired. -/
theorem Holds.liveKey (h : s.Holds i) : ∃ e, s.liveKey = some (i, e) := by
  obtain ⟨e, hkey, he⟩ := h
  refine ⟨e, ?_⟩
  unfold Leadership.liveKey
  rw [hkey, Option.filter_some, if_pos (decide_eq_true he)]

/-- Only one instance holds the key. -/
theorem Holds.unique (hi : s.Holds i) (hj : s.Holds j) : i = j := by
  obtain ⟨e, hkey, -⟩ := hi
  obtain ⟨e', hkey', -⟩ := hj
  rw [hkey] at hkey'
  cases hkey'
  rfl

end Leadership

/-- A step that starts no scheduler, and leaves their key to those that run. -/
theorem LeaderSafe.mono (h : LeaderSafe s)
    (hrunning : ∀ i, (s'.inst i).running = true → (s.inst i).running = true)
    (hholds : ∀ i, s.Holds i → s'.Holds i) : LeaderSafe s' where
  single i j hi hj := h.single i j (hrunning i hi) (hrunning j hj)
  holds i hi := hholds i (h.holds i (hrunning i hi))

/-- A key that is extended stays with its holder. -/
theorem LeaderSafe.expireKey (h : LeaderSafe s) : LeaderSafe (expireKey s) := by
  refine h.mono (fun _ => id) fun j hj => ?_
  obtain ⟨e, he⟩ := hj.liveKey
  refine ⟨s.now + leaderLockTtl, ?_, ?_⟩
  · unfold Notifyr.expireKey
    rw [he]
    rfl
  · have httl : (0 : ℚ) < leaderLockTtl := by norm_num [leaderLockTtl]
    exact lt_add_of_pos_right _ httl

variable [DecidableEq ι]

namespace Leadership

@[simp] theorem setInst_self (x : LoopInstance) : (s.setInst i x).inst i = x := by
  unfold setInst
  exact Function.update_self ..

theorem setInst_of_ne (x : LoopInstance) (h : j ≠ i) : (s.setInst i x).inst j = s.inst j := by
  unfold setInst
  exact Function.update_of_ne h ..

/-- Going to an await starts and stops no scheduler. -/
@[simp] theorem goTo_running (point : LoopPoint) (j : ι) :
    ((s.goTo i point).inst j).running = (s.inst j).running := by
  unfold goTo
  by_cases h : j = i
  · subst h
    rw [setInst_self]
  · rw [setInst_of_ne _ h]

@[simp] theorem goToSleep_running (r : ℤ) (j : ι) :
    ((s.goToSleep i r).inst j).running = (s.inst j).running := goTo_running ..

end Leadership

theorem LeaderSafe.goTo (h : LeaderSafe s) (point : LoopPoint) : LeaderSafe (s.goTo i point) :=
  h.mono (fun j hj => by rwa [Leadership.goTo_running] at hj) fun _ => id

theorem LeaderSafe.goToSleep (h : LeaderSafe s) (r : ℤ) : LeaderSafe (s.goToSleep i r) :=
  h.goTo _

/-- The key is taken where no scheduler runs. -/
theorem LeaderSafe.tryAcquireLock (h : LeaderSafe s) (i : ι) :
    LeaderSafe (tryAcquireLock s i) := by
  unfold Notifyr.tryAcquireLock
  cases hlive : s.liveKey with
  | some k => exact h.goTo _
  | none =>
    have hnone : ∀ j, (s.inst j).running ≠ true := by
      intro j hj
      obtain ⟨e, he⟩ := (h.holds j hj).liveKey
      rw [hlive] at he
      cases he
    have hsafe : LeaderSafe { s with key := some (i, s.now + leaderLockTtl) } :=
      ⟨fun j _ hj => absurd hj (hnone j), fun j hj => absurd hj (hnone j)⟩
    dsimp only
    split_ifs
    · exact hsafe.goTo _
    · exact hsafe.goTo _

theorem LeaderSafe.lookAtKey (h : LeaderSafe s) (i : ι) (r : ℤ) :
    LeaderSafe (lookAtKey s i r) := by
  unfold Notifyr.lookAtKey
  cases s.liveKey with
  | none => exact h.goTo _
  | some k =>
    dsimp only
    split_ifs with hother hleader
    · have hpaused :
          LeaderSafe (s.setInst i { s.inst i with running := false, leader := false }) := by
        refine h.mono (fun j hj => ?_) fun _ => id
        by_cases hji : j = i
        · subst hji
          rw [Leadership.setInst_self] at hj
          cases hj
        · rwa [Leadership.setInst_of_ne _ hji] at hj
      exact hpaused.goToSleep r
    · exact h.goToSleep r
    · exact h.goTo _

/-- A scheduler that is resumed while its instance holds the key is the only one. -/
theorem LeaderSafe.resume (h : LeaderSafe s) (hi : s.Holds i) :
    LeaderSafe (s.setInst i { s.inst i with running := true, leader := true }) := by
  have hholds : ∀ j, ((s.setInst i { s.inst i with running := true, leader := true }).inst
      j).running = true → s.Holds j := by
    intro j hj
    by_cases hji : j = i
    · rw [hji]
      exact hi
    · rw [Leadership.setInst_of_ne _ hji] at hj
      exact h.holds j hj
  exact ⟨fun j k hj hk => (hholds j hj).unique (hholds k hk), hholds⟩

/-- A step that meets the condition keeps the schedulers safe. -/
theorem LeaderSafe.step (h : LeaderSafe s) {a : LeaderAct ι} (ha : LeaderGuard s a) :
    LeaderSafe (leaderStep s a) := by
  cases a with
  | tick d =>
    dsimp only [leaderStep]
    split_ifs with hd
    · refine ⟨h.single, fun i hi => ?_⟩
      obtain ⟨e, hkey, -⟩ := h.holds i hi
      exact ⟨e, hkey, ha hd i e hi hkey⟩
    · exact h
  | wake i =>
    dsimp only [leaderStep]
    split_ifs
    · exact h.tryAcquireLock i
    · exact h
  | resume i r =>
    dsimp only [leaderStep]
    split_ifs with hpoint
    · exact (h.resume (ha hpoint)).goToSleep r
    · exact h
  | renew i r =>
    dsimp only [leaderStep]
    split_ifs
    · exact h.expireKey.goToSleep r
    · exact h
  | look i r =>
    dsimp only [leaderStep]
    split_ifs
    · exact h.lookAtKey i r
    · exact h
  | fail i => exact h.goTo _

/-- A step between two safe states meets the condition. -/
theorem LeaderSafe.guard {a : LeaderAct ι} (h : LeaderSafe (leaderStep s a)) :
    LeaderGuard s a := by
  cases a with
  | tick d =>
    intro hd i e hi hkey
    dsimp only [leaderStep] at h
    rw [if_pos hd] at h
    obtain ⟨e', hkey', he'⟩ := h.holds i hi
    rw [hkey] at hkey'
    cases hkey'
    exact he'
  | resume i r =>
    intro hpoint
    dsimp only [leaderStep] at h
    rw [if_pos hpoint] at h
    exact h.holds i (by rw [Leadership.goToSleep_running, Leadership.setInst_self])
  | wake i => trivial
  | renew i r => trivial
  | look i r => trivial
  | fail i => trivial

end Steps

/-! ## Runs -/

omit [DecidableEq ι] in
theorem leaderSafe_leadersAt (wake : ι → ℚ) : LeaderSafe (leadersAt wake) :=
  ⟨fun _ _ hi => absurd hi Bool.false_ne_true, fun _ hi => absurd hi Bool.false_ne_true⟩

/-- A run is safe exactly if no step lets the key of a running scheduler expire, or resumes a
scheduler whose key is gone. -/
theorem safeRun_iff (wake : ι → ℚ) (as : List (LeaderAct ι)) :
    SafeRun wake as ↔ Always leaderStep LeaderGuard (leadersAt wake) as := by
  constructor
  · intro h
    refine always_iff.mpr fun before a after hsplit => ?_
    have hsafe := h (before ++ [a]) after (by rw [hsplit, List.append_assoc]; rfl)
    rw [runFrom_append] at hsafe
    exact hsafe.guard
  · rintro h before after rfl
    have hstep : ∀ (s : Leadership ι) a, LeaderSafe s → LeaderGuard s a →
        True ∧ LeaderSafe (leaderStep s a) :=
      fun s a hs ha => ⟨trivial, hs.step ha⟩
    exact (always_of_inv hstep (leaderSafe_leadersAt wake) h.of_append).2

/-- The second instance takes the key and resumes its scheduler while the first sleeps, whose key
has expired. -/
def overlap : List (LeaderAct Bool) :=
  [.wake false, .resume false 300, .tick 700, .wake true, .resume true 300]

theorem not_safeRun : ¬SafeRun (fun _ => 0) overlap := by
  intro h
  have hsafe := h overlap [] (List.append_nil _).symm
  have hsame := hsafe.single false true (by decide +kernel) (by decide +kernel)
  cases hsame

/-! ## The key is not renewed -/

/-- Where the loop of the key's holder can be: before it has resumed its scheduler, in a sleep that
the key does not outlast, or ended. -/
def WaitsOut (s : Leadership ι) (i : ι) (point : LoopPoint) : Prop :=
  point = .resuming ∨ point = .ended ∨
    ∃ wake, point = .sleeping wake ∧ ∀ e, s.key = some (i, e) → e < wake

/-- What holds in a safe run: the scheduler of an instance that leads runs, no loop is about to
renew the key, and the holder of the key waits until it has expired. -/
structure Asleep (s : Leadership ι) : Prop where
  leader : ∀ i, (s.inst i).leader = true → (s.inst i).running = true
  renewing : ∀ i, (s.inst i).point ≠ .renewing
  fresh : ∀ i e, s.key = some (i, e) → e ≤ s.now + leaderLockTtl
  holder : ∀ i, s.Holds i → WaitsOut s i (s.inst i).point

section Asleep

variable {ι : Type} {s : Leadership ι} {i : ι}

/-- The holder of the key is not due. -/
theorem WaitsOut.not_due {point : LoopPoint} (h : WaitsOut s i point) (hi : s.Holds i) :
    point.due s.now = false := by
  obtain ⟨e, hkey, he⟩ := hi
  rcases h with rfl | rfl | ⟨wake, rfl, hwake⟩
  · rfl
  · rfl
  · exact decide_eq_false (not_le.mpr (he.trans (hwake e hkey)))

theorem not_holds_of_liveKey (h : s.liveKey = none) : ¬s.Holds i := by
  intro hi
  obtain ⟨e, he⟩ := hi.liveKey
  rw [h] at he
  cases he

/-- The holder that an unexpired key names holds it. -/
theorem holds_of_liveKey {e : ℚ} (h : s.liveKey = some (i, e)) : s.Holds i := by
  obtain ⟨hkey, he⟩ := Option.filter_eq_some_iff.mp h
  exact ⟨e, hkey, of_decide_eq_true he⟩

variable [DecidableEq ι]

theorem Leadership.goTo_inst (s : Leadership ι) (i j : ι) (point : LoopPoint) :
    (s.goTo i point).inst j = if j = i then { s.inst i with point } else s.inst j := by
  unfold goTo setInst
  split_ifs with hji
  · subst hji
    exact Function.update_self ..
  · exact Function.update_of_ne hji ..

/-- A loop goes to an await other than a renewal, and waits there if its instance holds the key. -/
theorem asleep_goTo {point : LoopPoint}
    (hleader : ∀ j, (s.inst j).leader = true → (s.inst j).running = true)
    (hrenewing : ∀ j, j ≠ i → (s.inst j).point ≠ .renewing)
    (hfresh : ∀ j e, s.key = some (j, e) → e ≤ s.now + leaderLockTtl)
    (hholder : ∀ j, j ≠ i → s.Holds j → WaitsOut s j (s.inst j).point)
    (hpoint : point ≠ .renewing) (hi : s.Holds i → WaitsOut s i point) :
    Asleep (s.goTo i point) := by
  refine ⟨fun j hj => ?_, fun j => ?_, hfresh, fun j hj => ?_⟩
  · rw [Leadership.goTo_inst] at hj ⊢
    split_ifs at hj ⊢
    · exact hleader i hj
    · exact hleader j hj
  · rw [Leadership.goTo_inst]
    split_ifs with hji
    · exact hpoint
    · exact hrenewing j hji
  · rw [Leadership.goTo_inst]
    split_ifs with hji
    · subst hji
      exact hi hj
    · exact hholder j hji hj

theorem Asleep.goTo (h : Asleep s) {point : LoopPoint} (hpoint : point ≠ .renewing)
    (hi : s.Holds i → WaitsOut s i point) : Asleep (s.goTo i point) :=
  asleep_goTo h.leader (fun j _ => h.renewing j) h.fresh (fun j _ => h.holder j) hpoint hi

/-- An instance whose scheduler and leadership change together, and whose loop goes to sleep: a
sleep is longer than the life of a key. -/
theorem Asleep.goToSleep (h : Asleep s) {r : ℤ} (hr : IsPause r) (leading : Bool) :
    Asleep
      ((s.setInst i { s.inst i with running := leading, leader := leading }).goToSleep i r) := by
  have hne : ∀ j, j ≠ i →
      (s.setInst i { s.inst i with running := leading, leader := leading }).inst j = s.inst j :=
    fun j hji => Leadership.setInst_of_ne _ hji
  refine asleep_goTo (fun j hj => ?_) (fun j hji => ?_) h.fresh (fun j hji hj => ?_) nofun
    fun _ => .inr (.inr ⟨_, rfl, fun e hkey => ?_⟩)
  · by_cases hji : j = i
    · subst hji
      rw [Leadership.setInst_self] at hj ⊢
      exact hj
    · rw [hne j hji] at hj ⊢
      exact h.leader j hj
  · rw [hne j hji]
    exact h.renewing j
  · rw [hne j hji]
    exact h.holder j hj
  · have hfresh := h.fresh i e hkey
    have hpause : (0 : ℚ) < r := by
      have hlow : leaderLockTtlLowerBound ≤ r := hr.1
      have hpos : 0 < leaderLockTtlLowerBound := by decide
      exact_mod_cast lt_of_lt_of_le hpos hlow
    show e < s.now + ((leaderLockTtl + r : ℤ) : ℚ)
    push_cast
    linarith

theorem Asleep.tryAcquireLock (h : Asleep s) (hsafe : LeaderSafe s)
    (hdue : (s.inst i).point.due s.now = true) : Asleep (tryAcquireLock s i) := by
  unfold Notifyr.tryAcquireLock
  cases hlive : s.liveKey with
  | some k =>
    refine h.goTo nofun fun hi => ?_
    rw [(h.holder i hi).not_due hi] at hdue
    cases hdue
  | none =>
    have hleader : (s.inst i).leader ≠ true := fun hi =>
      not_holds_of_liveKey hlive (hsafe.holds i (h.leader i hi))
    dsimp only
    rw [if_neg hleader]
    refine asleep_goTo h.leader (fun j _ => h.renewing j) (fun j e hkey => ?_)
      (fun j hji hj => ?_) nofun fun _ => .inl rfl
    · cases hkey
      exact le_rfl
    · obtain ⟨e, hkey, -⟩ := hj
      cases hkey
      exact absurd rfl hji

theorem Asleep.lookAtKey (h : Asleep s) (hpoint : (s.inst i).point = .looking) {r : ℤ}
    (hr : IsPause r) : Asleep (lookAtKey s i r) := by
  unfold Notifyr.lookAtKey
  cases hlive : s.liveKey with
  | none => exact h.goTo nofun fun hi => absurd hi (not_holds_of_liveKey hlive)
  | some k =>
    have hholds : s.Holds k.1 := holds_of_liveKey hlive
    dsimp only
    split_ifs with hother hleader
    · exact h.goToSleep hr false
    · refine h.goTo nofun fun hi => ?_
      exact absurd (hholds.unique hi) hother
    · -- the holder of the key is not looking at it
      have hsame : k.1 = i := not_not.mp hother
      rw [hsame] at hholds
      rcases h.holder i hholds with hp | hp | ⟨wake, hp, -⟩ <;> rw [hpoint] at hp <;> cases hp

theorem Asleep.step (h : Asleep s) (hsafe : LeaderSafe s) (a : LeaderAct ι) :
    Asleep (leaderStep s a) := by
  cases a with
  | tick d =>
    dsimp only [leaderStep]
    split_ifs with hd
    · refine ⟨h.leader, h.renewing, fun j e hkey => ?_, fun j hj => h.holder j ?_⟩
      · have hfresh := h.fresh j e hkey
        show e ≤ s.now + d + leaderLockTtl
        linarith
      · obtain ⟨e, hkey, he⟩ := hj
        exact ⟨e, hkey, lt_of_le_of_lt (le_add_of_nonneg_right hd) he⟩
    · exact h
  | wake i =>
    dsimp only [leaderStep]
    split_ifs with hdue
    · exact h.tryAcquireLock hsafe hdue
    · exact h
  | resume i r =>
    dsimp only [leaderStep]
    split_ifs with hpoint
    · exact h.goToSleep hpoint.2 true
    · exact h
  | renew i r =>
    dsimp only [leaderStep]
    rw [if_neg fun hpoint => h.renewing i hpoint.1]
    exact h
  | look i r =>
    dsimp only [leaderStep]
    split_ifs with hpoint
    · exact h.lookAtKey hpoint.1 hpoint.2
    · exact h
  | fail i => exact h.goTo nofun fun _ => .inr (.inl rfl)

/-- A scheduler that runs goes on, and the key of its instance stays as it is. -/
theorem Asleep.keeps (h : Asleep s) {e : ℚ} (hrunning : (s.inst i).running = true)
    (hkey : s.key = some (i, e)) (he : s.now < e) (a : LeaderAct ι) :
    ((leaderStep s a).inst i).running = true ∧ (leaderStep s a).key = some (i, e) := by
  have hlive : s.liveKey = some (i, e) := by
    unfold Leadership.liveKey
    rw [hkey, Option.filter_some, if_pos (decide_eq_true he)]
  cases a with
  | tick d =>
    dsimp only [leaderStep]
    split_ifs
    · exact ⟨hrunning, hkey⟩
    · exact ⟨hrunning, hkey⟩
  | wake j =>
    dsimp only [leaderStep]
    split_ifs
    · unfold Notifyr.tryAcquireLock
      rw [hlive]
      exact ⟨(Leadership.goTo_running _ i).trans hrunning, hkey⟩
    · exact ⟨hrunning, hkey⟩
  | resume j r =>
    dsimp only [leaderStep]
    split_ifs
    · refine ⟨?_, hkey⟩
      rw [Leadership.goToSleep_running]
      by_cases hij : i = j
      · subst hij
        rw [Leadership.setInst_self]
      · rwa [Leadership.setInst_of_ne _ hij]
    · exact ⟨hrunning, hkey⟩
  | renew j r =>
    dsimp only [leaderStep]
    rw [if_neg fun hpoint => h.renewing j hpoint.1]
    exact ⟨hrunning, hkey⟩
  | look j r =>
    dsimp only [leaderStep]
    split_ifs with hpoint
    · unfold Notifyr.lookAtKey
      rw [hlive]
      dsimp only
      split_ifs with hother hleader
      · refine ⟨?_, hkey⟩
        rwa [Leadership.goToSleep_running, Leadership.setInst_of_ne _ hother]
      · exact ⟨(Leadership.goToSleep_running r i).trans hrunning, hkey⟩
      · exact ⟨(Leadership.goTo_running _ i).trans hrunning, hkey⟩
    · exact ⟨hrunning, hkey⟩
  | fail j => exact ⟨(Leadership.goTo_running _ i).trans hrunning, hkey⟩

omit [DecidableEq ι] in
theorem asleep_leadersAt (wake : ι → ℚ) : Asleep (leadersAt wake) :=
  ⟨fun _ hi => absurd hi Bool.false_ne_true, nofun, nofun, by rintro i ⟨e, hkey, -⟩; cases hkey⟩

/-- In a safe run the key is never renewed: once a scheduler runs, less than the life of a key is
left to the run. -/
theorem safeRun_short {wake : ι → ℚ} {before after : List (LeaderAct ι)}
    (h : SafeRun wake (before ++ after))
    (hrunning : ((runFrom leaderStep (leadersAt wake) before).inst i).running = true) :
    (runFrom leaderStep (leadersAt wake) (before ++ after)).now <
      (runFrom leaderStep (leadersAt wake) before).now + leaderLockTtl := by
  obtain ⟨hbefore, hafter⟩ := always_append.mp ((safeRun_iff wake _).mp h)
  have hstep : ∀ (s : Leadership ι) a, LeaderSafe s ∧ Asleep s → LeaderGuard s a →
      True ∧ LeaderSafe (leaderStep s a) ∧ Asleep (leaderStep s a) :=
    fun s a hs ha => ⟨trivial, hs.1.step ha, hs.2.step hs.1 a⟩
  obtain ⟨hsafe, hasleep⟩ :=
    (always_of_inv hstep ⟨leaderSafe_leadersAt wake, asleep_leadersAt wake⟩ hbefore).2
  obtain ⟨e, hkey, -⟩ := hsafe.holds i hrunning
  have hkeeps : ∀ (s : Leadership ι) a,
      LeaderSafe s ∧ Asleep s ∧ (s.inst i).running = true ∧ s.key = some (i, e) →
      LeaderGuard s a → True ∧ LeaderSafe (leaderStep s a) ∧ Asleep (leaderStep s a) ∧
        ((leaderStep s a).inst i).running = true ∧ (leaderStep s a).key = some (i, e) := by
    rintro s a ⟨hs, hs', hr, hk⟩ ha
    obtain ⟨e', hk', he'⟩ := hs.holds i hr
    rw [hk] at hk'
    cases hk'
    exact ⟨trivial, hs.step ha, hs'.step hs a, hs'.keeps hr hk he' a⟩
  obtain ⟨hend, -, hr, hk⟩ := (always_of_inv hkeeps ⟨hsafe, hasleep, hrunning, hkey⟩ hafter).2
  obtain ⟨e', hk', he'⟩ := hend.holds i hr
  rw [hk] at hk'
  cases hk'
  rw [runFrom_append]
  exact lt_of_lt_of_le he' (hasleep.fresh i e hkey)

end Asleep

end Notifyr
