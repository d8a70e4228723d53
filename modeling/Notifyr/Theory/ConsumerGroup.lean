import Mathlib.Data.List.Nodup
import Mathlib.Logic.Function.Basic
import Notifyr.Theory.Runs

/-!
# A log read by a group of consumers

Entries are added to a log; the consumers of one group are each delivered batches of new entries,
hand them to a handler that works on a world they share, and acknowledge and delete the ids the
handler returns. Their rounds may interleave in any way and break off at any point.

- `Log`: entries with different ids.
- `Group`: the log, how far the group has been delivered, where each consumer is in its round, and
  the world; `Group.step` is one action of one consumer.
- `Group.Inv`: no entry is held by two consumers, and none that is held has been handled.
- `step_moves`: what an action can do, apart from losing something.
- `Group.rule`: the induction rule. What the handler keeps of each batch of entries that nobody
  has handled before holds after every run.
- `Group.Free`: an entry that has been delivered and that nobody holds; `Free.step`: nobody will
  ever be given it again.
- `Kept.run`: where nothing is lost, what has been delivered goes all the way.
-/

namespace Theory

/-- Entries, oldest first. -/
structure Log {ε ι : Type} (idOf : ε → ι) where
  entries : List ε := []
  nodup : (entries.map idOf).Nodup := by exact List.nodup_nil

/-- Add an entry; one whose id is there is refused. -/
def Log.add {ε ι : Type} [DecidableEq ι] {idOf : ε → ι} (log : Log idOf) (entry : ε) : Log idOf :=
  if h : idOf entry ∈ log.entries.map idOf then log
  else
    ⟨log.entries ++ [entry], by
      rw [List.map_append]
      exact List.nodup_append.mpr ⟨log.nodup, List.nodup_singleton _, by
        rintro a ha b hb rfl
        rw [List.map_singleton, List.mem_singleton] at hb
        exact h (hb ▸ ha)⟩⟩

/-- Adding keeps what is there. -/
theorem Log.entries_add {ε ι : Type} [DecidableEq ι] {idOf : ε → ι} (log : Log idOf) (entry : ε) :
    ∃ rest, (log.add entry).entries = log.entries ++ rest := by
  by_cases h : idOf entry ∈ log.entries.map idOf
  · refine ⟨[], ?_⟩
    rw [Log.add, dif_pos h, List.append_nil]
  · refine ⟨[entry], ?_⟩
    rw [Log.add, dif_neg h]

/-- Where a consumer is in its round. -/
inductive Phase (ε ι : Type)
  | idle
  | holding (batch : List ε)
  | acking (ids : List ι)
  | deleting (ids : List ι)

/-- A group of consumers. `handled` and `returned` only record what the handler has been given
and has answered. -/
structure Group (κ σ : Type) {ε ι : Type} (idOf : ε → ι) where
  log : Log idOf := {}
  cursor : ℕ := 0
  phase : κ → Phase ε ι := fun _ => .idle
  acked : List ι := []
  deleted : List ι := []
  handled : List ε := []
  returned : List ι := []
  world : σ

/-- What can happen. A round ends early where the client raises, where the handler does, or where
the consumer stops. -/
inductive GroupAction (κ ε φ : Type)
  | add (entry : ε)
  | read (k : κ) (count : ℕ) (replyLost : Bool)
  | handle (k : κ) (faults : φ)
  | ack (k : κ) (fails : Bool)
  | del (k : κ) (fails : Bool)
  | stop (k : κ)

/-- An action in which nothing is lost: no reply is, nothing raises but the handler, and nobody
stops. -/
def GroupAction.Smooth {κ ε φ : Type} : GroupAction κ ε φ → Prop
  | .read _ _ replyLost => replyLost = false
  | .ack _ fails | .del _ fails => fails = false
  | .stop _ => False
  | _ => True

namespace Group

variable {κ σ ε ι φ : Type} {idOf : ε → ι}

/-- The next entries that nobody has been delivered. -/
def next (s : Group κ σ idOf) (count : ℕ) : List ε := (s.log.entries.drop s.cursor).take count

/-- The entries that have been delivered. -/
def delivered (s : Group κ σ idOf) : List ε := s.log.entries.take s.cursor

/-- A consumer goes on to another point of its round. -/
def goTo [DecidableEq κ] (s : Group κ σ idOf) (k : κ) (p : Phase ε ι) : Group κ σ idOf :=
  { s with phase := Function.update s.phase k p }

/-- The group is delivered more. -/
def advance (s : Group κ σ idOf) (count : ℕ) : Group κ σ idOf :=
  { s with cursor := s.cursor + (s.next count).length }

/-- A consumer has handed over its batch, and goes on with the ids that have been returned. -/
def finish [DecidableEq κ] (s : Group κ σ idOf) (k : κ) (batch : List ε)
    (out : Option (List ι) × σ) : Group κ σ idOf :=
  { s with
    world := out.2
    handled := s.handled ++ batch
    returned := s.returned ++ out.1.getD [] }.goTo k
      (match out.1 with | none => .idle | some ids => .acking ids)

/-- One action. Acknowledging and deleting refuse an empty list of ids. -/
def step [DecidableEq κ] [DecidableEq ι] (handler : φ → σ → List ε → Option (List ι) × σ)
    (s : Group κ σ idOf) : GroupAction κ ε φ → Group κ σ idOf
  | .add entry => { s with log := s.log.add entry }
  | .read k count replyLost =>
    match s.phase k with
    | .idle =>
      if replyLost || (s.next count).isEmpty then s.advance count
      else (s.advance count).goTo k (.holding (s.next count))
    | _ => s
  | .handle k faults =>
    match s.phase k with
    | .holding batch => s.finish k batch (handler faults s.world batch)
    | _ => s
  | .ack k fails =>
    match s.phase k with
    | .acking ids =>
      if fails || ids.isEmpty then s.goTo k .idle
      else { s with acked := s.acked ++ ids }.goTo k (.deleting ids)
    | _ => s
  | .del k fails =>
    match s.phase k with
    | .deleting ids =>
      if fails then s.goTo k .idle else { s with deleted := s.deleted ++ ids }.goTo k .idle
    | _ => s
  | .stop k => s.goTo k .idle

/-- No entry is held by two consumers, none that is held has been handled, and only ids that the
handler has returned are acknowledged. -/
structure Inv (s : Group κ σ idOf) : Prop where
  cursor_le : s.cursor ≤ s.log.entries.length
  handled_delivered : ∀ e ∈ s.handled, e ∈ s.delivered
  handled_nodup : (s.handled.map idOf).Nodup
  held_delivered : ∀ k batch, s.phase k = .holding batch → ∀ e ∈ batch, e ∈ s.delivered
  held_fresh : ∀ k batch, s.phase k = .holding batch → ((s.handled ++ batch).map idOf).Nodup
  held_apart : ∀ k k' batch batch', s.phase k = .holding batch → s.phase k' = .holding batch' →
    k ≠ k' → ∀ e ∈ batch, ∀ e' ∈ batch', idOf e ≠ idOf e'
  acking_returned : ∀ k ids, s.phase k = .acking ids → ∀ i ∈ ids, i ∈ s.returned
  deleting_acked : ∀ k ids, s.phase k = .deleting ids → ∀ i ∈ ids, i ∈ s.acked
  acked_returned : ∀ i ∈ s.acked, i ∈ s.returned
  deleted_acked : ∀ i ∈ s.deleted, i ∈ s.acked

/-- The entry has been delivered, and nobody holds it. -/
structure Free (s : Group κ σ idOf) (e : ε) : Prop where
  delivered : e ∈ s.delivered
  not_held : ∀ k batch, s.phase k = .holding batch → idOf e ∉ batch.map idOf

variable {s : Group κ σ idOf} {e : ε}

/-! ## What is delivered -/

/-- What has been delivered, and what is delivered next. -/
theorem delivered_append_next (s : Group κ σ idOf) (count : ℕ) :
    s.log.entries.take (s.cursor + (s.next count).length) = s.delivered ++ s.next count := by
  rw [List.take_add, delivered, next, List.length_take]
  congr 1
  rcases Nat.le_total count (s.log.entries.drop s.cursor).length with h | h
  · rw [Nat.min_eq_left h]
  · rw [Nat.min_eq_right h, List.take_length, List.take_of_length_le h]

/-- The two are parts of the log, so their ids differ. -/
theorem nodup_delivered_next (s : Group κ σ idOf) (count : ℕ) :
    ((s.delivered ++ s.next count).map idOf).Nodup := by
  rw [← delivered_append_next]
  exact ((List.take_sublist _ _).map idOf).nodup s.log.nodup

/-- What is delivered next is new to everybody. -/
theorem next_fresh (s : Group κ σ idOf) (count : ℕ) {e e' : ε} (he : e ∈ s.delivered)
    (he' : e' ∈ s.next count) : idOf e ≠ idOf e' := by
  have hnd := s.nodup_delivered_next count
  rw [List.map_append] at hnd
  intro heq
  exact (List.nodup_append.mp hnd).2.2 _ (List.mem_map_of_mem he) _ (List.mem_map_of_mem he') heq

/-- A delivered entry is told by its id. -/
theorem eq_of_delivered {e e' : ε} (he : e ∈ s.delivered) (he' : e' ∈ s.delivered)
    (h : idOf e = idOf e') : e = e' :=
  List.inj_on_of_nodup_map s.log.nodup (List.mem_of_mem_take he) (List.mem_of_mem_take he') h

/-- Adding an entry delivers nothing. -/
theorem delivered_add [DecidableEq ι] (h : s.cursor ≤ s.log.entries.length) (entry : ε) :
    ({ s with log := s.log.add entry } : Group κ σ idOf).delivered = s.delivered := by
  obtain ⟨rest, hrest⟩ := s.log.entries_add entry
  show (s.log.add entry).entries.take s.cursor = _
  rw [hrest, List.take_append_of_le_length h]
  rfl

theorem Inv.add [DecidableEq ι] (h : Inv s) (entry : ε) :
    Inv { s with log := s.log.add entry } := by
  have hsame := delivered_add h.cursor_le entry
  obtain ⟨rest, hrest⟩ := s.log.entries_add entry
  refine { h with cursor_le := ?_, handled_delivered := ?_, held_delivered := ?_ }
  · show s.cursor ≤ (s.log.add entry).entries.length
    rw [hrest, List.length_append]
    exact Nat.le_add_right_of_le h.cursor_le
  · rw [hsame]
    exact h.handled_delivered
  · rw [hsame]
    exact h.held_delivered

theorem delivered_advance (s : Group κ σ idOf) (count : ℕ) :
    (s.advance count).delivered = s.delivered ++ s.next count := delivered_append_next s count

theorem Inv.advance (h : Inv s) (count : ℕ) : Inv (s.advance count) := by
  have hmore : ∀ e ∈ s.delivered, e ∈ (s.advance count).delivered := by
    intro e he
    rw [delivered_advance]
    exact List.mem_append_left _ he
  refine { h with cursor_le := ?_, handled_delivered := ?_, held_delivered := ?_ }
  · show s.cursor + (s.next count).length ≤ s.log.entries.length
    have hle := h.cursor_le
    have hlen : (s.next count).length ≤ s.log.entries.length - s.cursor := by
      rw [next, List.length_take, List.length_drop]
      omega
    omega
  · exact fun e he => hmore e (h.handled_delivered e he)
  · exact fun k batch hk e he => hmore e (h.held_delivered k batch hk e he)

/-! ## Going on -/

section GoTo

variable [DecidableEq κ]

/-- Where a consumer is after another one, or it itself, has gone on. -/
theorem phase_goTo {k k' : κ} {p q : Phase ε ι} (h : (s.goTo k p).phase k' = q) :
    k' = k ∧ p = q ∨ k' ≠ k ∧ s.phase k' = q := by
  by_cases hk : k' = k
  · subst hk
    exact .inl ⟨rfl, by simpa [goTo] using h⟩
  · exact .inr ⟨hk, by simpa [goTo, Function.update_of_ne hk] using h⟩

/-- A consumer that goes on with nothing in its hands. -/
theorem Inv.leave (h : Inv s) (k : κ) {p : Phase ε ι} (hp : ∀ batch, p ≠ .holding batch)
    (hacking : ∀ ids, p = .acking ids → ∀ i ∈ ids, i ∈ s.returned)
    (hdeleting : ∀ ids, p = .deleting ids → ∀ i ∈ ids, i ∈ s.acked) : Inv (s.goTo k p) where
  cursor_le := h.cursor_le
  handled_delivered := h.handled_delivered
  handled_nodup := h.handled_nodup
  held_delivered k' batch hk' := by
    rcases phase_goTo hk' with ⟨-, hpb⟩ | ⟨-, hk'⟩
    · exact absurd hpb (hp batch)
    · exact h.held_delivered k' batch hk'
  held_fresh k' batch hk' := by
    rcases phase_goTo hk' with ⟨-, hpb⟩ | ⟨-, hk'⟩
    · exact absurd hpb (hp batch)
    · exact h.held_fresh k' batch hk'
  held_apart k₁ k₂ batch₁ batch₂ h₁ h₂ hne := by
    rcases phase_goTo h₁ with ⟨-, hpb⟩ | ⟨-, h₁⟩
    · exact absurd hpb (hp batch₁)
    · rcases phase_goTo h₂ with ⟨-, hpb⟩ | ⟨-, h₂⟩
      · exact absurd hpb (hp batch₂)
      · exact h.held_apart k₁ k₂ batch₁ batch₂ h₁ h₂ hne
  acking_returned k' ids hk' := by
    rcases phase_goTo hk' with ⟨-, hpi⟩ | ⟨-, hk'⟩
    · exact hacking ids hpi
    · exact h.acking_returned k' ids hk'
  deleting_acked k' ids hk' := by
    rcases phase_goTo hk' with ⟨-, hpi⟩ | ⟨-, hk'⟩
    · exact hdeleting ids hpi
    · exact h.deleting_acked k' ids hk'
  acked_returned := h.acked_returned
  deleted_acked := h.deleted_acked

/-- A consumer whose round is over. -/
theorem Inv.idle (h : Inv s) (k : κ) : Inv (s.goTo k .idle) := h.leave k nofun nofun nofun

/-- A consumer that is given the next entries. -/
theorem Inv.give (h : Inv s) (k : κ) (count : ℕ) :
    Inv ((s.advance count).goTo k (.holding (s.next count))) := by
  have hadv := h.advance count
  have hnext : ∀ e ∈ s.next count, e ∈ (s.advance count).delivered := by
    intro e he
    rw [delivered_advance]
    exact List.mem_append_right _ he
  have hfresh : ((s.handled ++ s.next count).map idOf).Nodup := by
    rw [List.map_append]
    refine List.nodup_append.mpr ⟨h.handled_nodup, ?_, ?_⟩
    · have hnd := s.nodup_delivered_next count
      rw [List.map_append] at hnd
      exact (List.nodup_append.mp hnd).2.1
    · intro i hi j hj
      obtain ⟨e, he, rfl⟩ := List.mem_map.mp hi
      obtain ⟨e', he', rfl⟩ := List.mem_map.mp hj
      exact s.next_fresh count (h.handled_delivered e he) he'
  refine { hadv with
    held_delivered := ?_, held_fresh := ?_, held_apart := ?_
    acking_returned := ?_, deleting_acked := ?_ }
  · intro k' batch hk'
    rcases phase_goTo hk' with ⟨-, hpb⟩ | ⟨-, hk'⟩
    · cases hpb
      exact hnext
    · exact hadv.held_delivered k' batch hk'
  · intro k' batch hk'
    rcases phase_goTo hk' with ⟨-, hpb⟩ | ⟨-, hk'⟩
    · cases hpb
      exact hfresh
    · exact hadv.held_fresh k' batch hk'
  · intro k₁ k₂ batch₁ batch₂ h₁ h₂ hne e he e' he'
    -- of the two, one has the next entries, and the other what was delivered before
    rcases phase_goTo h₁ with ⟨rfl, hpb₁⟩ | ⟨-, h₁⟩
    · rcases phase_goTo h₂ with ⟨rfl, -⟩ | ⟨-, h₂⟩
      · exact absurd rfl hne
      · cases hpb₁
        exact (s.next_fresh count (h.held_delivered k₂ batch₂ h₂ e' he') he).symm
    · rcases phase_goTo h₂ with ⟨-, hpb₂⟩ | ⟨-, h₂⟩
      · cases hpb₂
        exact s.next_fresh count (h.held_delivered k₁ batch₁ h₁ e he) he'
      · exact h.held_apart k₁ k₂ batch₁ batch₂ h₁ h₂ hne e he e' he'
  · intro k' ids hk'
    rcases phase_goTo hk' with ⟨-, hpb⟩ | ⟨-, hk'⟩
    · cases hpb
    · exact h.acking_returned k' ids hk'
  · intro k' ids hk'
    rcases phase_goTo hk' with ⟨-, hpb⟩ | ⟨-, hk'⟩
    · cases hpb
    · exact h.deleting_acked k' ids hk'

/-- A consumer whose batch is handled, and that goes on with what the handler has answered. -/
theorem Inv.finish (h : Inv s) {k : κ} {batch : List ε} (hk : s.phase k = .holding batch)
    (out : Option (List ι) × σ) : Inv (s.finish k batch out) := by
  obtain ⟨answer, world⟩ := out
  -- what the others hold is new even once this batch has been handled
  have hother : ∀ k' batch', k' ≠ k → s.phase k' = .holding batch' →
      ((s.handled ++ batch ++ batch').map idOf).Nodup := by
    intro k' batch' hne hk'
    have hfresh' := h.held_fresh k' batch' hk'
    rw [List.map_append] at hfresh'
    obtain ⟨-, hnd', hdisj'⟩ := List.nodup_append.mp hfresh'
    rw [List.map_append]
    refine List.nodup_append.mpr ⟨h.held_fresh k batch hk, hnd', ?_⟩
    intro i hi j hj
    rw [List.map_append] at hi
    rcases List.mem_append.mp hi with hi | hi
    · exact hdisj' i hi j hj
    · obtain ⟨e, he, rfl⟩ := List.mem_map.mp hi
      obtain ⟨e', he', rfl⟩ := List.mem_map.mp hj
      exact h.held_apart k k' batch batch' hk hk' hne.symm e he e' he'
  have hnot : ∀ {b}, (match answer with | none => Phase.idle | some ids => .acking ids) ≠
      (.holding b : Phase ε ι) := by
    cases answer <;> exact nofun
  constructor
  · exact h.cursor_le
  · intro e he
    rcases List.mem_append.mp he with he | he
    · exact h.handled_delivered e he
    · exact h.held_delivered k batch hk e he
  · exact h.held_fresh k batch hk
  · intro k' batch' hk'
    rcases phase_goTo hk' with ⟨-, hpb⟩ | ⟨-, hk'⟩
    · exact absurd hpb hnot
    · exact h.held_delivered k' batch' hk'
  · intro k' batch' hk'
    rcases phase_goTo hk' with ⟨-, hpb⟩ | ⟨hne, hk'⟩
    · exact absurd hpb hnot
    · exact hother k' batch' hne hk'
  · intro k₁ k₂ batch₁ batch₂ h₁ h₂ hne
    rcases phase_goTo h₁ with ⟨-, hpb⟩ | ⟨-, h₁⟩
    · exact absurd hpb hnot
    · rcases phase_goTo h₂ with ⟨-, hpb⟩ | ⟨-, h₂⟩
      · exact absurd hpb hnot
      · exact h.held_apart k₁ k₂ batch₁ batch₂ h₁ h₂ hne
  · intro k' ids hk' i hi
    rcases phase_goTo hk' with ⟨-, hpi⟩ | ⟨-, hk'⟩
    · cases answer with
      | none => cases hpi
      | some answered =>
        cases hpi
        exact List.mem_append_right _ hi
    · exact List.mem_append_left _ (h.acking_returned k' ids hk' i hi)
  · intro k' ids hk'
    rcases phase_goTo hk' with ⟨-, hpi⟩ | ⟨-, hk'⟩
    · cases answer <;> cases hpi
    · exact h.deleting_acked k' ids hk'
  · exact fun i hi => List.mem_append_left _ (h.acked_returned i hi)
  · exact h.deleted_acked

/-- Somebody who has something in hand still has it after another one has gone on. -/
theorem held_goTo {β : Type} {mk : List β → Phase ε ι} {b : β} {k : κ} {p : Phase ε ι}
    (hk : ∀ bs, s.phase k ≠ mk bs) (h : ∃ k bs, s.phase k = mk bs ∧ b ∈ bs) :
    ∃ k' bs, (s.goTo k p).phase k' = mk bs ∧ b ∈ bs := by
  obtain ⟨k', bs, hk', hb⟩ := h
  refine ⟨k', bs, ?_, hb⟩
  have hne : k' ≠ k := by
    rintro rfl
    exact hk bs hk'
  rw [← hk']
  exact Function.update_of_ne hne ..

/-- What was done or in somebody's hands still is, once one of them has done what it has in hand. -/
theorem done_goTo {β : Type} {mk : List β → Phase ε ι} (hmk : Function.Injective mk) {b : β}
    {bs done : List β} {k : κ} {p : Phase ε ι} (hk : s.phase k = mk bs)
    (h : b ∈ done ∨ ∃ k bs, s.phase k = mk bs ∧ b ∈ bs) :
    b ∈ done ++ bs ∨ ∃ k' bs, (s.goTo k p).phase k' = mk bs ∧ b ∈ bs := by
  rcases h with hb | ⟨k', bs', hk', hb⟩
  · exact .inl (List.mem_append_left _ hb)
  · by_cases hkk : k' = k
    · rw [hkk, hk] at hk'
      exact .inl (List.mem_append_right _ (hmk hk' ▸ hb))
    · exact .inr ⟨k', bs', (Function.update_of_ne hkk ..).trans hk', hb⟩

end GoTo

/-! ## One action -/

section Step

variable [DecidableEq κ] [DecidableEq ι] (handler : φ → σ → List ε → Option (List ι) × σ)

/-- What an action can do. -/
inductive Moves (s : Group κ σ idOf) (a : GroupAction κ ε φ) : Group κ σ idOf → Prop
  | stay : Moves s a s
  | add (entry : ε) : Moves s a { s with log := s.log.add entry }
  | give (k : κ) (count : ℕ) (hk : s.phase k = .idle) :
      Moves s a ((s.advance count).goTo k (.holding (s.next count)))
  | finish (k : κ) (batch : List ε) (faults : φ) (ha : a = .handle k faults)
      (hk : s.phase k = .holding batch) :
      Moves s a (s.finish k batch (handler faults s.world batch))
  | skip (k : κ) (hk : s.phase k = .acking []) : Moves s a (s.goTo k .idle)
  | ack (k : κ) (ids : List ι) (hk : s.phase k = .acking ids) :
      Moves s a ({ s with acked := s.acked ++ ids }.goTo k (.deleting ids))
  | del (k : κ) (ids : List ι) (hk : s.phase k = .deleting ids) :
      Moves s a ({ s with deleted := s.deleted ++ ids }.goTo k .idle)

/-- What an action in which something is lost can do: entries are delivered to nobody, or a consumer
lets go of what it has in hand. -/
inductive Loses (s : Group κ σ idOf) : Group κ σ idOf → Prop
  | reply (count : ℕ) : Loses s (s.advance count)
  | drop (k : κ) : Loses s (s.goTo k .idle)

omit [DecidableEq κ] [DecidableEq ι] in
theorem advance_of_nil {count : ℕ} (h : s.next count = []) : s.advance count = s := by
  rw [advance, h]
  rfl

theorem step_moves (s : Group κ σ idOf) (a : GroupAction κ ε φ) :
    Moves handler s a (s.step handler a) ∨ ¬ a.Smooth ∧ Loses s (s.step handler a) := by
  cases a with
  | add entry => exact .inl (.add entry)
  | read k count replyLost =>
    cases hk : s.phase k with
    | idle =>
      simp only [step, hk]
      cases replyLost with
      | true => exact .inr ⟨nofun, .reply count⟩
      | false =>
        split
        · rename_i hnil
          rw [advance_of_nil (List.isEmpty_iff.mp hnil)]
          exact .inl .stay
        · exact .inl (.give k count hk)
    | holding | acking | deleting =>
      simp only [step, hk]
      exact .inl .stay
  | handle k faults =>
    cases hk : s.phase k with
    | holding batch =>
      simp only [step, hk]
      exact .inl (.finish k batch faults rfl hk)
    | idle | acking | deleting =>
      simp only [step, hk]
      exact .inl .stay
  | ack k fails =>
    cases hk : s.phase k with
    | acking ids =>
      simp only [step, hk]
      cases fails with
      | true => exact .inr ⟨nofun, .drop k⟩
      | false =>
        split
        · rename_i hnil
          rw [List.isEmpty_iff.mp hnil] at hk
          exact .inl (.skip k hk)
        · exact .inl (.ack k ids hk)
    | idle | holding | deleting =>
      simp only [step, hk]
      exact .inl .stay
  | del k fails =>
    cases hk : s.phase k with
    | deleting ids =>
      simp only [step, hk]
      cases fails with
      | true => exact .inr ⟨nofun, .drop k⟩
      | false => exact .inl (.del k ids hk)
    | idle | holding | acking =>
      simp only [step, hk]
      exact .inl .stay
  | stop k => exact .inr ⟨id, .drop k⟩

variable {handler} {a : GroupAction κ ε φ} {s' : Group κ σ idOf}

theorem Inv.moves (h : Inv s) (hm : Moves handler s a s') : Inv s' := by
  cases hm with
  | stay => exact h
  | add entry => exact h.add entry
  | give k count => exact h.give k count
  | finish k batch faults ha hk => exact h.finish hk _
  | skip k => exact h.idle k
  | ack k ids hk =>
    have hids := h.acking_returned k ids hk
    have hacked : Inv { s with acked := s.acked ++ ids } :=
      { h with
        deleting_acked := fun k ids hk i hi =>
          List.mem_append_left _ (h.deleting_acked k ids hk i hi)
        acked_returned := fun i hi => (List.mem_append.mp hi).elim (h.acked_returned i) (hids i)
        deleted_acked := fun i hi => List.mem_append_left _ (h.deleted_acked i hi) }
    refine hacked.leave k nofun nofun ?_
    rintro ids' ⟨⟩ i hi
    exact List.mem_append_right _ hi
  | del k ids hk =>
    have hids := h.deleting_acked k ids hk
    have hdeleted : Inv { s with deleted := s.deleted ++ ids } :=
      { h with
        deleted_acked := fun i hi => (List.mem_append.mp hi).elim (h.deleted_acked i) (hids i) }
    exact hdeleted.idle k

omit [DecidableEq ι] in
theorem Inv.loses (h : Inv s) (hm : Loses s s') : Inv s' := by
  cases hm with
  | reply count => exact h.advance count
  | drop k => exact h.idle k

/-- An action keeps the invariant. -/
theorem Inv.step (h : Inv s) (a : GroupAction κ ε φ) : Inv (s.step handler a) :=
  (step_moves handler s a).elim h.moves fun hm => h.loses hm.2

omit [DecidableEq ι] in
theorem Free.goTo (hfree : Free s e) (k : κ) {p : Phase ε ι}
    (hp : ∀ batch, p = .holding batch → idOf e ∉ batch.map idOf) : Free (s.goTo k p) e where
  delivered := hfree.delivered
  not_held k' batch hk' := by
    rcases phase_goTo hk' with ⟨-, hpb⟩ | ⟨-, hk'⟩
    · exact hp batch hpb
    · exact hfree.not_held k' batch hk'

omit [DecidableEq κ] [DecidableEq ι] in
theorem Free.advance (hfree : Free s e) (count : ℕ) : Free (s.advance count) e where
  delivered := by
    rw [delivered_advance]
    exact List.mem_append_left _ hfree.delivered
  not_held := hfree.not_held

/-- An entry that nobody holds is not given to anybody again. -/
theorem Free.step (h : Inv s) (hfree : Free s e) (a : GroupAction κ ε φ) :
    Free (s.step handler a) e := by
  rcases step_moves handler s a with hm | ⟨-, hm⟩
  -- the cases of `hm` need a state that is a variable
  · revert hm
    generalize s.step handler a = s'
    intro hm
    cases hm with
    | stay => exact hfree
    | add entry =>
      refine ⟨?_, hfree.not_held⟩
      rw [delivered_add h.cursor_le]
      exact hfree.delivered
    | give k count =>
      refine (hfree.advance count).goTo k ?_
      -- the group has been delivered the entry, so it is not among the next ones
      rintro batch ⟨⟩ hmem
      obtain ⟨e', he', heq⟩ := List.mem_map.mp hmem
      exact s.next_fresh count hfree.delivered he' heq.symm
    | finish k batch faults ha hk =>
      obtain ⟨answer, world⟩ := handler faults s.world batch
      have hsame : Free { s with
          world, handled := s.handled ++ batch, returned := s.returned ++ answer.getD [] } e :=
        ⟨hfree.delivered, hfree.not_held⟩
      refine hsame.goTo k ?_
      cases answer <;> exact nofun
    | skip k => exact hfree.goTo k nofun
    | ack k ids hk =>
      have hsame : Free { s with acked := s.acked ++ ids } e :=
        ⟨hfree.delivered, hfree.not_held⟩
      exact hsame.goTo k nofun
    | del k ids hk =>
      have hsame : Free { s with deleted := s.deleted ++ ids } e :=
        ⟨hfree.delivered, hfree.not_held⟩
      exact hsame.goTo k nofun
  · revert hm
    generalize s.step handler a = s'
    intro hm
    cases hm with
    | reply count => exact hfree.advance count
    | drop k => exact hfree.goTo k nofun

/-- What has been delivered is in somebody's hands or has gone all the way. -/
structure Kept (s : Group κ σ idOf) : Prop where
  delivered : ∀ e ∈ s.delivered, e ∈ s.handled ∨ ∃ k batch, s.phase k = .holding batch ∧ e ∈ batch
  returned : ∀ i ∈ s.returned, i ∈ s.acked ∨ ∃ k ids, s.phase k = .acking ids ∧ i ∈ ids
  acked : ∀ i ∈ s.acked, i ∈ s.deleted ∨ ∃ k ids, s.phase k = .deleting ids ∧ i ∈ ids

/-- An action in which nothing is lost keeps what is there. -/
theorem Kept.moves (h : Inv s) (hkept : Kept s) (hm : Moves handler s a s') : Kept s' := by
  cases hm with
  | stay => exact hkept
  | add entry =>
    refine { hkept with delivered := ?_ }
    rw [delivered_add h.cursor_le]
    exact hkept.delivered
  | give k count hk =>
    have hidle : ∀ {β : Type} {mk : List β → Phase ε ι}, (∀ bs, mk bs ≠ .idle) →
        ∀ bs, s.phase k ≠ mk bs := fun hmk bs heq => hmk bs (heq.symm.trans hk)
    constructor
    · intro e he
      have he : e ∈ (s.advance count).delivered := he
      rw [delivered_advance] at he
      rcases List.mem_append.mp he with he | he
      · exact (hkept.delivered e he).imp_right (held_goTo (hidle nofun))
      · exact .inr ⟨k, s.next count, Function.update_self .., he⟩
    · exact fun i hi => (hkept.returned i hi).imp_right (held_goTo (hidle nofun))
    · exact fun i hi => (hkept.acked i hi).imp_right (held_goTo (hidle nofun))
  | finish k batch faults ha hk =>
    obtain ⟨answer, world⟩ := handler faults s.world batch
    have hother : ∀ {mk : List ι → Phase ε ι}, (∀ bs, mk bs ≠ .holding batch) →
        ∀ bs, s.phase k ≠ mk bs := fun hmk bs heq => hmk bs (heq.symm.trans hk)
    constructor
    · exact fun e he => done_goTo (fun _ _ => Phase.holding.inj) hk (hkept.delivered e he)
    · intro i hi
      rcases List.mem_append.mp hi with hi | hi
      · exact (hkept.returned i hi).imp_right (held_goTo (hother nofun))
      · cases answer with
        | none => cases hi
        | some ids => exact .inr ⟨k, ids, Function.update_self .., hi⟩
    · exact fun i hi => (hkept.acked i hi).imp_right (held_goTo (hother nofun))
  | skip k hk =>
    constructor
    · exact fun e he => (hkept.delivered e he).imp_right
        (held_goTo fun bs heq => nomatch heq.symm.trans hk)
    · intro i hi
      -- nobody loses an id here: there is none to acknowledge
      refine (hkept.returned i hi).imp_right fun hheld => ?_
      obtain ⟨k', ids, hk', hi'⟩ := hheld
      refine ⟨k', ids, (Function.update_of_ne ?_ ..).trans hk', hi'⟩
      rintro rfl
      rw [hk] at hk'
      cases hk'
      cases hi'
    · exact fun i hi => (hkept.acked i hi).imp_right
        (held_goTo fun bs heq => nomatch heq.symm.trans hk)
  | ack k ids hk =>
    constructor
    · exact fun e he => (hkept.delivered e he).imp_right
        (held_goTo fun bs heq => nomatch heq.symm.trans hk)
    · exact fun i hi => done_goTo (fun _ _ => Phase.acking.inj) hk (hkept.returned i hi)
    · intro i hi
      rcases List.mem_append.mp hi with hi | hi
      · exact (hkept.acked i hi).imp_right (held_goTo fun bs heq => nomatch heq.symm.trans hk)
      · exact .inr ⟨k, ids, Function.update_self .., hi⟩
  | del k ids hk =>
    constructor
    · exact fun e he => (hkept.delivered e he).imp_right
        (held_goTo fun bs heq => nomatch heq.symm.trans hk)
    · exact fun i hi => (hkept.returned i hi).imp_right
        (held_goTo fun bs heq => nomatch heq.symm.trans hk)
    · exact fun i hi => done_goTo (fun _ _ => Phase.deleting.inj) hk (hkept.acked i hi)

end Step

/-! ## Runs -/

section Run

/-- The handler keeps a relation between what it has been given, what it has returned and the
world, whenever it is given entries that are new to it and not in `gone`, and nothing goes wrong in
it but what is `fine`. -/
def Keeps (idOf : ε → ι) (handler : φ → σ → List ε → Option (List ι) × σ) (fine : φ → Prop)
    (gone : Set ε) (R : List ε → List ι → σ → Prop) : Prop :=
  ∀ handled returned world batch faults, fine faults → R handled returned world →
    ((handled ++ batch).map idOf).Nodup → (∀ e ∈ gone, idOf e ∉ batch.map idOf) →
    R (handled ++ batch) (returned ++ (handler faults world batch).1.getD [])
      (handler faults world batch).2

variable [DecidableEq κ] [DecidableEq ι] {handler : φ → σ → List ε → Option (List ι) × σ}

/-- **The induction rule.** It holds after every run, where `gone` are entries that have been
delivered and that nobody holds at its start. -/
theorem rule {fine : φ → Prop} {gone : Set ε} {R : List ε → List ι → σ → Prop}
    (hkeeps : Keeps idOf handler fine gone R) (h : Inv s) (hgone : ∀ e ∈ gone, Free s e)
    (hR : R s.handled s.returned s.world) {actions : List (GroupAction κ ε φ)}
    (hfine : ∀ k faults, .handle k faults ∈ actions → fine faults) :
    R (runFrom (step handler) s actions).handled (runFrom (step handler) s actions).returned
      (runFrom (step handler) s actions).world := by
  induction actions generalizing s with
  | nil => exact hR
  | cons a actions ih =>
    refine ih (h.step a) (fun e he => (hgone e he).step h a) ?_ fun k faults hmem =>
      hfine k faults (List.mem_cons_of_mem _ hmem)
    rcases step_moves handler s a with hm | ⟨-, hm⟩
    · revert hm
      generalize s.step handler a = s'
      intro hm
      cases hm with
      | stay | add | give | skip | ack | del => exact hR
      | finish k batch faults ha hk =>
        -- the only action that runs the handler, on a batch that is new to it
        refine hkeeps _ _ _ _ _ (hfine k faults ?_) hR (h.held_fresh k batch hk)
          fun e he => (hgone e he).not_held k batch hk
        rw [ha]
        exact List.mem_cons_self
    · revert hm
      generalize s.step handler a = s'
      rintro ⟨⟩ <;> exact hR

/-- The invariant after a run. -/
theorem Inv.run (h : Inv s) (actions : List (GroupAction κ ε φ)) :
    Inv (runFrom (Group.step handler) s actions) := by
  induction actions generalizing s with
  | nil => exact h
  | cons a actions ih => exact ih (h.step a)

/-- **Nothing is lost by itself.** After a run in which nothing is lost, whatever has been
delivered is in somebody's hands or has gone all the way. -/
theorem Kept.run (h : Inv s) (hkept : Kept s) {actions : List (GroupAction κ ε φ)}
    (hsmooth : ∀ a ∈ actions, a.Smooth) : Kept (runFrom (Group.step handler) s actions) := by
  induction actions generalizing s with
  | nil => exact hkept
  | cons a actions ih =>
    obtain ⟨ha, hrest⟩ := List.forall_mem_cons.mp hsmooth
    refine ih (h.step a) ?_ hrest
    rcases step_moves handler s a with hm | ⟨hlossy, -⟩
    · exact hkept.moves h hm
    · exact absurd ha hlossy

omit [DecidableEq κ] [DecidableEq ι] in
/-- Before anything has happened. -/
theorem inv_init (world : σ) : Inv ({ world } : Group κ σ idOf) where
  cursor_le := Nat.le_refl 0
  handled_delivered := List.forall_mem_nil _
  handled_nodup := List.nodup_nil
  held_delivered := nofun
  held_fresh := nofun
  held_apart := nofun
  acking_returned := nofun
  deleting_acked := nofun
  acked_returned := List.forall_mem_nil _
  deleted_acked := List.forall_mem_nil _

omit [DecidableEq κ] [DecidableEq ι] in
theorem kept_init (world : σ) : Kept ({ world } : Group κ σ idOf) where
  delivered := List.forall_mem_nil _
  returned := List.forall_mem_nil _
  acked := List.forall_mem_nil _

end Run

end Group

end Theory
