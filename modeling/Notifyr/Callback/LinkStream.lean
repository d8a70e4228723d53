import Notifyr.Callback.LinkEvents
import Notifyr.Theory.Runs

/-!
# The stream of link events

`RedisService._consume_stream` (`app/services/database/redis_service.py`) on the stream of link
events: entries are added, read in batches and handed to `Add_Link_Event`, and the ids it returns
are acknowledged and deleted. Every step may fail.

- `RedisStream`: a stream, whose entries have different ids.
- `LinkState`: the stream, how far it has been delivered, what has been acknowledged and deleted,
  and the database; `LinkState.step` is one action.
- `LinkRight`: each valid event that has been delivered has one row and counts once, no invalid
  entry counts, and an entry is acknowledged as it should be.
- `LinkMeets`: the condition on an action.
- `linkRight_step_iff`: what one action does to it; `linkRight_iff`: it holds at the end of a run
  exactly if every action of the run has met the condition. No later action makes good for one
  that has not: the reader asks for new entries only.
-/

namespace Notifyr

open Theory

/-- A stream: `XADD` refuses an id that is there. -/
structure RedisStream where
  entries : List StreamEntry := []
  nodup : (entries.map (·.ids)).Nodup := by exact List.nodup_nil

/-- `XADD`. -/
def RedisStream.xadd (stream : RedisStream) (entry : StreamEntry) : RedisStream :=
  if h : entry.ids ∈ stream.entries.map (·.ids) then stream
  else
    ⟨stream.entries ++ [entry], by
      rw [List.map_append]
      exact List.nodup_append.mpr ⟨stream.nodup, List.nodup_singleton _, by
        rintro a ha b hb rfl
        rw [List.map_singleton, List.mem_singleton] at hb
        exact h (hb ▸ ha)⟩⟩

/-- What goes wrong at the stream: `XREADGROUP` raises, its reply is lost when the entries have
been delivered, or `XACK` or `XDEL` raises. -/
structure StreamFaults where
  read : Bool := false
  reply : Bool := false
  ack : Bool := false
  del : Bool := false

/-- The stream of all entries ever added, how many of them the group has been delivered, the ids
acknowledged and deleted, and the database. -/
structure LinkState (υ : Type) where
  stream : RedisStream := {}
  cursor : ℕ := 0
  acked : List String := []
  deleted : List String := []
  db : LinkDb υ := {}

/-- What happens to the stream. -/
inductive LinkAction
  | xadd (entry : StreamEntry)
  | consume (count : ℕ) (streamFaults : StreamFaults) (faults : LinkFaults)

variable {υ : Type}

namespace LinkState

/-- The entries that `XREADGROUP` gives for `>`. -/
def batch (st : LinkState υ) (count : ℕ) : List StreamEntry :=
  (st.stream.entries.drop st.cursor).take count

/-- `XACK` and `XDEL` of the ids a handler has returned; both refuse an empty list. -/
def acknowledge (st : LinkState υ) (faults : StreamFaults) (ids : List String) : LinkState υ :=
  if ids = [] ∨ faults.ack then st
  else if faults.del then { st with acked := st.acked ++ ids }
  else { st with acked := st.acked ++ ids, deleted := st.deleted ++ ids }

variable [DecidableEq υ]

/-- One round of `_consume_stream`; what it raises is dropped. -/
def consume (env : LinkEnv υ) (st : LinkState υ) (count : ℕ) (streamFaults : StreamFaults)
    (faults : LinkFaults) : LinkState υ :=
  let entries := st.batch count
  if streamFaults.read ∨ entries = [] then st
  else
    let st := { st with cursor := st.cursor + entries.length }
    if streamFaults.reply then st
    else
      let (ids, db) := addLinkEvent env faults st.db entries
      { st with db }.acknowledge streamFaults ids

/-- One action. -/
def step (env : LinkEnv υ) (st : LinkState υ) : LinkAction → LinkState υ
  | .xadd entry => { st with stream := st.stream.xadd entry }
  | .consume count streamFaults faults => st.consume env count streamFaults faults

omit [DecidableEq υ] in
/-- The entries that have been delivered. -/
def delivered (st : LinkState υ) : List StreamEntry := st.stream.entries.take st.cursor

omit [DecidableEq υ] in
/-- The valid events among them. -/
def events (env : LinkEnv υ) (st : LinkState υ) : List (LinkEvent υ) :=
  st.delivered.filterMap (linkEvent env)

end LinkState

variable [DecidableEq υ]

/-- What is owed of the entries that have been delivered. -/
structure LinkRight (env : LinkEnv υ) (st : LinkState υ) : Prop where
  rows : st.db.rows.Perm ((st.events env).map (·.row))
  visits : ∀ link, st.db.visits link = (((st.events env).map (·.link)).count link : ℕ)
  analytics : ∀ place, st.db.analytics place = (((st.events env).map (·.place)).count place : ℕ)
  acked : ∀ entry ∈ st.delivered,
    entry.ids ∈ st.acked ↔ linkEvent env entry = none ∨ entry.ids ∈ st.db.committed

/-- When a batch that has been delivered is treated as it should be: it is answered, the service is
available and the ids are acknowledged; where the batch has a valid event, both transactions
succeed and no entry has an id of a link that is not a UUID; and where the first one commits, no
invalid entry has an id of a link at all. -/
structure BatchMeets (env : LinkEnv υ) (streamFaults : StreamFaults) (faults : LinkFaults)
    (entries : List StreamEntry) : Prop where
  answered : streamFaults.reply = false
  available : faults.unavailable = false
  acked : streamFaults.ack = false
  committed : (∃ entry ∈ entries, linkEvent env entry ≠ none) →
    faults.first = false ∧ faults.second = false ∧ readableLinks env entries
  uncounted : faults.first = false → readableLinks env entries →
    ∀ entry ∈ entries, linkEvent env entry = none → visitKey entry = none

/-- The condition on an action. -/
def LinkMeets (env : LinkEnv υ) (st : LinkState υ) : LinkAction → Prop
  | .xadd _ => True
  | .consume count streamFaults faults =>
    streamFaults.read ∨ st.batch count = [] ∨
      BatchMeets env streamFaults faults (st.batch count)

/-! ## The ledger of a run -/

section Ledger

variable (env : LinkEnv υ)

/-- The ledger tells of the delivered events, and of nothing else unless an invalid entry has been
counted. -/
structure Linked (ledger : LinkLedger υ) (st : LinkState υ) : Prop where
  tells : ledger.Tells st.db
  inserted : ledger.inserted.Sublist (st.events env)
  counted : ledger.counted.Sublist (st.events env)
  stray : ledger.strayVisits = [] → ledger.strayPlaces = []
  cursor : st.cursor ≤ st.stream.entries.length
  acked : ∀ ids ∈ st.acked, ids ∈ st.delivered.map (·.ids)
  committed : ∀ ids ∈ st.db.committed, ids ∈ st.delivered.map (·.ids)

/-- All delivered events have been inserted and counted, and nothing else. -/
structure LinkLedger.Whole (ledger : LinkLedger υ) (es : List (LinkEvent υ)) : Prop where
  inserted : ledger.inserted = es
  counted : ledger.counted = es
  stray : ledger.strayVisits = []

/-- The entries of a list are acknowledged as they should be. -/
def AckedOf (entries : List StreamEntry) (acked committed : List String) : Prop :=
  ∀ entry ∈ entries, entry.ids ∈ acked ↔ linkEvent env entry = none ∨ entry.ids ∈ committed

variable {env} {ledger : LinkLedger υ} {st : LinkState υ}

theorem count_eq_zero_iff {β : Type} [DecidableEq β] {l : List β} :
    (∀ b, l.count b = 0) ↔ l = [] := by
  constructor
  · intro h
    refine List.eq_nil_iff_forall_not_mem.mpr fun b hb => ?_
    exact absurd (h b) (List.count_pos_iff.mpr hb).ne'
  · rintro rfl b
    rfl

/-- What is owed, by the ledger. -/
theorem linkRight_iff_whole (h : Linked env ledger st) :
    LinkRight env st ↔ ledger.Whole (st.events env) ∧
      AckedOf env st.delivered st.acked st.db.committed := by
  constructor
  · intro hright
    have hinserted : ledger.inserted = st.events env := by
      refine h.inserted.eq_of_length ?_
      have hlength := hright.rows.length_eq
      rw [h.tells.rows, List.length_map, List.length_map] at hlength
      exact hlength
    have hstray : ledger.strayVisits = [] := by
      refine count_eq_zero_iff.mp fun link => ?_
      have hvisits := hright.visits link
      rw [h.tells.visits, hinserted] at hvisits
      omega
    have hcounted : ledger.counted = st.events env := by
      refine h.counted.eq_of_length ?_
      have hperm : (ledger.counted.map (·.place)).Perm ((st.events env).map (·.place)) := by
        refine List.perm_iff_count.mpr fun place => ?_
        have hanalytics := hright.analytics place
        rw [h.tells.analytics, h.stray hstray, List.count_nil] at hanalytics
        omega
      have hlength := hperm.length_eq
      rw [List.length_map, List.length_map] at hlength
      exact hlength
    exact ⟨⟨hinserted, hcounted, hstray⟩, hright.acked⟩
  · rintro ⟨⟨hinserted, hcounted, hstray⟩, hacked⟩
    refine ⟨?_, fun link => ?_, fun place => ?_, hacked⟩
    · rw [h.tells.rows, hinserted]
    · rw [h.tells.visits, hinserted, hstray]
      rfl
    · rw [h.tells.analytics, hcounted, h.stray hstray]
      rfl

theorem eq_append_iff_of_sublist {β : Type} {l es b : List β} (h : l.Sublist es) :
    l = es ++ b ↔ l = es ∧ b = [] := by
  constructor
  · intro heq
    have hlength := h.length_le
    rw [heq, List.length_append] at hlength
    have hnil : b = [] := List.eq_nil_of_length_eq_zero (by omega)
    rw [hnil, List.append_nil] at heq
    exact ⟨heq, hnil⟩
  · rintro ⟨rfl, rfl⟩
    exact (List.append_nil _).symm

omit [DecidableEq υ] in
/-- A batch that has a valid event has to be committed whole, and where its first transaction
commits, no invalid entry may be counted. -/
theorem whole_add_iff {es : List (LinkEvent υ)} (hinserted : ledger.inserted.Sublist es)
    (hcounted : ledger.counted.Sublist es) (faults : LinkFaults) (entries : List StreamEntry) :
    (ledger.add env faults entries).Whole (es ++ entries.filterMap (linkEvent env)) ↔
      ledger.Whole es ∧
        (entries.filterMap (linkEvent env) = [] ∨ countsLinks env faults entries) ∧
        (insertsLinks env faults entries → strayVisits env entries = []) := by
  unfold LinkLedger.add
  by_cases hinserts : insertsLinks env faults entries
  · have hstray : (ledger.strayVisits ++ strayVisits env entries = []) ↔
        ledger.strayVisits = [] ∧ strayVisits env entries = [] := List.append_eq_nil_iff
    by_cases hcounts : countsLinks env faults entries
    · rw [if_pos hcounts]
      constructor
      · rintro ⟨hins, hcount, hnone⟩
        obtain ⟨hnone, hbatch⟩ := hstray.mp hnone
        exact ⟨⟨List.append_cancel_right hins, List.append_cancel_right hcount, hnone⟩,
          .inr hcounts, fun _ => hbatch⟩
      · rintro ⟨⟨rfl, hcount, hnone⟩, -, hbatch⟩
        refine ⟨rfl, ?_, hstray.mpr ⟨hnone, hbatch hinserts⟩⟩
        show ledger.counted ++ _ = _
        rw [hcount]
    · rw [if_neg hcounts, if_pos hinserts]
      constructor
      · rintro ⟨hins, hcount, hnone⟩
        obtain ⟨hnone, hbatch⟩ := hstray.mp hnone
        obtain ⟨hcount, hnil⟩ := (eq_append_iff_of_sublist hcounted).mp hcount
        exact ⟨⟨List.append_cancel_right hins, hcount, hnone⟩, .inl hnil, fun _ => hbatch⟩
      · rintro ⟨⟨rfl, hcount, hnone⟩, hvalid, hbatch⟩
        refine ⟨rfl, ?_, hstray.mpr ⟨hnone, hbatch hinserts⟩⟩
        exact (eq_append_iff_of_sublist hcounted).mpr ⟨hcount, hvalid.resolve_right hcounts⟩
  · have hcounts : ¬ countsLinks env faults entries := fun h =>
      hinserts (Bool.and_eq_true_iff.mp h).1
    rw [if_neg hcounts, if_neg hinserts]
    constructor
    · rintro ⟨hins, hcount, hnone⟩
      obtain ⟨hins, hnil⟩ := (eq_append_iff_of_sublist hinserted).mp hins
      obtain ⟨hcount, -⟩ := (eq_append_iff_of_sublist hcounted).mp hcount
      exact ⟨⟨hins, hcount, hnone⟩, .inl hnil, fun h => absurd h hinserts⟩
    · rintro ⟨⟨hins, hcount, hnone⟩, hvalid, -⟩
      have hnil := hvalid.resolve_right hcounts
      exact ⟨(eq_append_iff_of_sublist hinserted).mpr ⟨hins, hnil⟩,
        (eq_append_iff_of_sublist hcounted).mpr ⟨hcount, hnil⟩, hnone⟩

end Ledger

/-! ## One round of the reader -/

section Round

variable {env : LinkEnv υ} {ledger : LinkLedger υ} {st : LinkState υ} {count : ℕ}
  {streamFaults : StreamFaults} {faults : LinkFaults}

omit [DecidableEq υ] in
theorem mem_acknowledge (ids : List String) (x : String) :
    x ∈ (st.acknowledge streamFaults ids).acked ↔
      x ∈ st.acked ∨ (streamFaults.ack = false ∧ x ∈ ids) := by
  unfold LinkState.acknowledge
  split
  · rename_i h
    rcases h with rfl | h
    · simp
    · simp [h]
  · rename_i h
    rw [not_or, Bool.not_eq_true] at h
    split
    · simp [h.2]
    · simp [h.2]

omit [DecidableEq υ] in
/-- Acknowledging leaves the rest as it is. -/
theorem acknowledge_frame (st : LinkState υ) (faults : StreamFaults) (ids : List String) :
    (st.acknowledge faults ids).stream = st.stream ∧
      (st.acknowledge faults ids).cursor = st.cursor ∧
      (st.acknowledge faults ids).db = st.db := by
  unfold LinkState.acknowledge
  split
  · exact ⟨rfl, rfl, rfl⟩
  · split
    · exact ⟨rfl, rfl, rfl⟩
    · exact ⟨rfl, rfl, rfl⟩

/-- The ledger after a round that has been delivered entries. -/
def LinkLedger.round (env : LinkEnv υ) (ledger : LinkLedger υ) (streamFaults : StreamFaults)
    (faults : LinkFaults) (entries : List StreamEntry) : LinkLedger υ :=
  if streamFaults.reply then ledger else ledger.add env faults entries

/-- What a round that has been delivered entries leaves. -/
theorem consume_spec (faults : LinkFaults) (h : ledger.Tells st.db)
    (hread : streamFaults.read = false) (hne : st.batch count ≠ []) :
    let st' := st.consume env count streamFaults faults
    st'.stream = st.stream ∧ st'.cursor = st.cursor + (st.batch count).length ∧
      (ledger.round env streamFaults faults (st.batch count)).Tells st'.db ∧
      (∀ ids, ids ∈ st'.acked ↔ ids ∈ st.acked ∨ (streamFaults.reply = false ∧
        streamFaults.ack = false ∧ faults.unavailable = false ∧
        ∃ entry ∈ st.batch count, entry.ids = ids ∧
          (linkEvent env entry = none ∨ countsLinks env faults (st.batch count)))) ∧
      ∀ ids, ids ∈ st'.db.committed ↔ ids ∈ st.db.committed ∨ (streamFaults.reply = false ∧
        countsLinks env faults (st.batch count) ∧
        ∃ entry ∈ st.batch count, entry.ids = ids ∧ (linkEvent env entry).isSome) := by
  obtain ⟨htells, hids, hcommitted⟩ := LinkLedger.addLinkEvent_tells env h faults (st.batch count)
  unfold LinkState.consume LinkLedger.round
  dsimp only
  rw [if_neg (by rw [hread]; exact fun h => h.elim Bool.false_ne_true hne)]
  cases hreply : streamFaults.reply with
  | true => exact ⟨rfl, rfl, h, by simp, by simp⟩
  | false =>
    simp only [Bool.false_eq_true, if_false, true_and]
    obtain ⟨hstream, hcursor, hdb⟩ := acknowledge_frame { st with
        cursor := st.cursor + (st.batch count).length
        db := (addLinkEvent env faults st.db (st.batch count)).2 } streamFaults
      (addLinkEvent env faults st.db (st.batch count)).1
    rw [hstream, hcursor, hdb]
    refine ⟨rfl, rfl, htells, fun ids => ?_, hcommitted⟩
    rw [mem_acknowledge, hids]

omit [DecidableEq υ] in
/-- A round is delivered the next entries. -/
theorem take_cursor_add (st : LinkState υ) (count : ℕ) :
    st.stream.entries.take (st.cursor + (st.batch count).length) =
      st.delivered ++ st.batch count := by
  unfold LinkState.delivered LinkState.batch
  rw [List.take_add, List.length_take, ← List.take_eq_take_min]

omit [DecidableEq υ] in
/-- The ids of the next entries are not among those delivered. -/
theorem batch_ids_fresh (st : LinkState υ) (count : ℕ) {entry : StreamEntry}
    (hentry : entry ∈ st.batch count) : entry.ids ∉ st.delivered.map (·.ids) := by
  intro hold
  have hnodup : ((st.delivered ++ st.batch count).map (·.ids)).Nodup := by
    rw [← take_cursor_add]
    exact (List.take_sublist _ _).map _ |>.nodup st.stream.nodup
  rw [List.map_append] at hnodup
  exact (List.nodup_append.mp hnodup).2.2 _ hold _ (List.mem_map_of_mem hentry) rfl

omit [DecidableEq υ] in
/-- An entry that is counted for a place is counted for its link. -/
theorem strayPlaces_nil {entries : List StreamEntry} (h : strayVisits env entries = []) :
    strayPlaces env entries = [] := by
  refine List.eq_nil_iff_forall_not_mem.mpr fun place hplace => ?_
  unfold strayPlaces at hplace
  obtain ⟨entry, hentry, hread⟩ := List.mem_filterMap.mp hplace
  unfold analyticsKey placeOf at hread
  simp only [Option.bind_eq_bind, Option.bind_eq_some_iff, Option.map_eq_some_iff] at hread
  obtain ⟨key, ⟨linkId, hid, spot, -, hkey⟩, link, hlink, -⟩ := hread
  cases hkey
  have hmem : link ∈ strayVisits env entries := by
    unfold strayVisits
    exact List.mem_filterMap.mpr ⟨entry, hentry, by rw [hid]; exact hlink⟩
  rw [h] at hmem
  cases hmem

omit [DecidableEq υ] in
/-- What a ledger keeps when a batch is added. -/
theorem add_sublist (env : LinkEnv υ) {es : List (LinkEvent υ)}
    (hinserted : ledger.inserted.Sublist es) (hcounted : ledger.counted.Sublist es)
    (hstray : ledger.strayVisits = [] → ledger.strayPlaces = []) (faults : LinkFaults)
    (entries : List StreamEntry) :
    (ledger.add env faults entries).inserted.Sublist (es ++ entries.filterMap (linkEvent env)) ∧
      (ledger.add env faults entries).counted.Sublist (es ++ entries.filterMap (linkEvent env)) ∧
      ((ledger.add env faults entries).strayVisits = [] →
        (ledger.add env faults entries).strayPlaces = []) := by
  have hlonger := List.sublist_append_left es (entries.filterMap (linkEvent env))
  unfold LinkLedger.add
  split
  · refine ⟨hinserted.append_right _, hcounted.append_right _, fun hnone => ?_⟩
    obtain ⟨hnone, hbatch⟩ := List.append_eq_nil_iff.mp hnone
    exact List.append_eq_nil_iff.mpr ⟨hstray hnone, strayPlaces_nil hbatch⟩
  · split
    · refine ⟨hinserted.append_right _, hcounted.trans hlonger, fun hnone => ?_⟩
      exact hstray (List.append_eq_nil_iff.mp hnone).1
    · exact ⟨hinserted.trans hlonger, hcounted.trans hlonger, hstray⟩

omit [DecidableEq υ] in
theorem events_append (env : LinkEnv υ) {st' : LinkState υ} {entries : List StreamEntry}
    (h : st'.delivered = st.delivered ++ entries) :
    st'.events env = st.events env ++ entries.filterMap (linkEvent env) := by
  unfold LinkState.events
  rw [h, List.filterMap_append]

/-- The ledger goes on telling of the delivered events. -/
theorem linked_consume (faults : LinkFaults) (h : Linked env ledger st)
    (hread : streamFaults.read = false) (hne : st.batch count ≠ []) :
    Linked env (ledger.round env streamFaults faults (st.batch count))
        (st.consume env count streamFaults faults) ∧
      (st.consume env count streamFaults faults).delivered = st.delivered ++ st.batch count := by
  obtain ⟨hstream, hcursor, htells, hacked, hcommitted⟩ :=
    consume_spec faults h.tells hread hne
  have hdelivered : (st.consume env count streamFaults faults).delivered =
      st.delivered ++ st.batch count := by
    rw [← take_cursor_add, ← hcursor, ← hstream]
    rfl
  have hevents := events_append env hdelivered
  have hlonger := List.sublist_append_left (st.events env)
    ((st.batch count).filterMap (linkEvent env))
  obtain ⟨hinserted, hcounted, hstray⟩ :=
    add_sublist env h.inserted h.counted h.stray faults (st.batch count)
  refine ⟨⟨htells, ?_, ?_, ?_, ?_, fun ids hids => ?_, fun ids hids => ?_⟩, hdelivered⟩
  · rw [hevents]
    unfold LinkLedger.round
    split
    · exact h.inserted.trans hlonger
    · exact hinserted
  · rw [hevents]
    unfold LinkLedger.round
    split
    · exact h.counted.trans hlonger
    · exact hcounted
  · unfold LinkLedger.round
    split
    · exact h.stray
    · exact hstray
  · have hcursor' := h.cursor
    rw [hcursor, hstream]
    unfold LinkState.batch
    rw [List.length_take, List.length_drop]
    omega
  · rw [hdelivered, List.map_append]
    rcases (hacked ids).mp hids with hold | ⟨-, -, -, entry, hentry, rfl, -⟩
    · exact List.mem_append_left _ (h.acked ids hold)
    · exact List.mem_append_right _ (List.mem_map_of_mem hentry)
  · rw [hdelivered, List.map_append]
    rcases (hcommitted ids).mp hids with hold | ⟨-, -, entry, hentry, rfl, -⟩
    · exact List.mem_append_left _ (h.committed ids hold)
    · exact List.mem_append_right _ (List.mem_map_of_mem hentry)

omit [DecidableEq υ] in
/-- Of a batch, one entry has an id. -/
theorem exists_batch_iff (st : LinkState υ) (count : ℕ) {entry : StreamEntry}
    (hentry : entry ∈ st.batch count) (P : StreamEntry → Prop) :
    (∃ entry' ∈ st.batch count, entry'.ids = entry.ids ∧ P entry') ↔ P entry := by
  constructor
  · rintro ⟨entry', hentry', hids, hP⟩
    have hnodup : ((st.batch count).map (·.ids)).Nodup :=
      ((List.take_sublist _ _).trans (List.drop_sublist _ _)).map _ |>.nodup st.stream.nodup
    rw [← List.inj_on_of_nodup_map hnodup hentry' hentry hids]
    exact hP
  · exact fun hP => ⟨entry, hentry, rfl, hP⟩

/-- What a batch has to leave of the ids of its entries. -/
def BatchAcked (env : LinkEnv υ) (streamFaults : StreamFaults) (faults : LinkFaults)
    (entries : List StreamEntry) : Prop :=
  ∀ entry ∈ entries,
    (streamFaults.reply = false ∧ streamFaults.ack = false ∧ faults.unavailable = false ∧
      (linkEvent env entry = none ∨ countsLinks env faults entries)) ↔
    (linkEvent env entry = none ∨
      (streamFaults.reply = false ∧ countsLinks env faults entries))

/-- An entry is acknowledged as it should be after a round if it was before, or is new. -/
theorem ackedOf_consume_iff (h : Linked env ledger st) (hread : streamFaults.read = false)
    (hne : st.batch count ≠ []) :
    AckedOf env (st.consume env count streamFaults faults).delivered
        (st.consume env count streamFaults faults).acked
        (st.consume env count streamFaults faults).db.committed ↔
      AckedOf env st.delivered st.acked st.db.committed ∧
        BatchAcked env streamFaults faults (st.batch count) := by
  obtain ⟨-, -, -, hacked, hcommitted⟩ := consume_spec faults h.tells hread hne
  obtain ⟨-, hdelivered⟩ := linked_consume faults h hread hne
  unfold AckedOf BatchAcked
  rw [hdelivered, List.forall_mem_append]
  refine and_congr (forall₂_congr fun entry hentry => ?_) (forall₂_congr fun entry hentry => ?_)
  · have hold : ∀ P : StreamEntry → Prop,
        ¬ ∃ entry' ∈ st.batch count, entry'.ids = entry.ids ∧ P entry' := by
      rintro P ⟨entry', hentry', hids, -⟩
      exact batch_ids_fresh st count hentry' (hids ▸ List.mem_map_of_mem hentry)
    have hsame := (hacked entry.ids).trans (or_iff_left fun hnew => hold _ hnew.2.2.2)
    have hsame' := (hcommitted entry.ids).trans (or_iff_left fun hnew => hold _ hnew.2.2)
    rw [hsame, hsame']
  · have hnew := batch_ids_fresh st count hentry
    rw [hacked, hcommitted, or_iff_right fun hids => hnew (h.acked _ hids),
      or_iff_right fun hids => hnew (h.committed _ hids), exists_batch_iff st count hentry,
      exists_batch_iff st count hentry fun entry => (linkEvent env entry).isSome]
    cases linkEvent env entry with
    | none => simp
    | some e => simp

omit [DecidableEq υ] in
/-- A batch is committed whole, uncounted where it is invalid, and acknowledged, exactly if it
meets the condition. -/
theorem batchMeets_iff {entries : List StreamEntry} (hne : entries ≠ []) :
    ((entries.filterMap (linkEvent env) = [] ∨
        (streamFaults.reply = false ∧ countsLinks env faults entries)) ∧
      (streamFaults.reply = false → insertsLinks env faults entries →
        strayVisits env entries = []) ∧
      BatchAcked env streamFaults faults entries) ↔
    BatchMeets env streamFaults faults entries := by
  constructor
  · rintro ⟨hvalid, hstray, hacked⟩
    obtain ⟨entry, hentry⟩ := List.exists_mem_of_ne_nil _ hne
    have hanswered : streamFaults.reply = false ∧ streamFaults.ack = false ∧
        faults.unavailable = false := by
      have hiff := hacked entry hentry
      cases hevent : linkEvent env entry with
      | none =>
        obtain ⟨hreply, hack, hup, -⟩ := hiff.mpr (.inl hevent)
        exact ⟨hreply, hack, hup⟩
      | some e =>
        have hcounts := hvalid.resolve_left
          (List.ne_nil_of_mem (List.mem_filterMap.mpr ⟨entry, hentry, hevent⟩))
        obtain ⟨hreply, hack, hup, -⟩ := hiff.mpr (.inr hcounts)
        exact ⟨hreply, hack, hup⟩
    obtain ⟨hreply, hack, hup⟩ := hanswered
    refine ⟨hreply, hup, hack, ?_, fun hfirst hread entry hentry hnone => ?_⟩
    · rintro ⟨entry, hentry, hsome⟩
      obtain ⟨e, he⟩ := Option.ne_none_iff_exists'.mp hsome
      have hcounts := (hvalid.resolve_left
        (List.ne_nil_of_mem (List.mem_filterMap.mpr ⟨entry, hentry, he⟩))).2
      unfold countsLinks insertsLinks at hcounts
      simp only [Bool.and_eq_true, Bool.not_eq_true'] at hcounts
      exact ⟨hcounts.1.1.2, hcounts.2, hcounts.1.2⟩
    · have hinserts : insertsLinks env faults entries := by
        unfold insertsLinks
        rw [hup, hfirst, hread]
        rfl
      by_contra hsome
      obtain ⟨linkId, hid⟩ := Option.ne_none_iff_exists'.mp hsome
      have hlink := List.all_eq_true.mp hread entry hentry
      rw [hid] at hlink
      obtain ⟨link, hlink⟩ := Option.isSome_iff_exists.mp hlink
      have hmem : link ∈ strayVisits env entries := by
        unfold strayVisits
        refine List.mem_filterMap.mpr ⟨entry, List.mem_filter.mpr ⟨hentry, ?_⟩, ?_⟩
        · rw [hnone]
          rfl
        · rw [hid]
          exact hlink
      rw [hstray hreply hinserts] at hmem
      cases hmem
  · rintro ⟨hreply, hup, hack, hcommitted, huncounted⟩
    have hcounts : ∀ entry ∈ entries, linkEvent env entry ≠ none →
        countsLinks env faults entries := by
      intro entry hentry hsome
      obtain ⟨hfirst, hsecond, hread⟩ := hcommitted ⟨entry, hentry, hsome⟩
      unfold countsLinks insertsLinks
      rw [hup, hfirst, hsecond, hread]
      rfl
    refine ⟨?_, fun _ hinserts => ?_, fun entry hentry => ?_⟩
    · by_cases hnone : ∀ entry ∈ entries, linkEvent env entry = none
      · exact .inl (List.filterMap_eq_nil_iff.mpr hnone)
      · push Not at hnone
        obtain ⟨entry, hentry, hsome⟩ := hnone
        exact .inr ⟨hreply, hcounts entry hentry hsome⟩
    · unfold insertsLinks at hinserts
      simp only [Bool.and_eq_true, Bool.not_eq_true'] at hinserts
      unfold strayVisits
      refine List.filterMap_eq_nil_iff.mpr fun entry hentry => ?_
      obtain ⟨hentry, hinvalid⟩ := List.mem_filter.mp hentry
      have hnone : linkEvent env entry = none := by
        simpa using hinvalid
      rw [huncounted hinserts.1.2 hinserts.2 entry hentry hnone]
      rfl
    · refine iff_of_true ⟨hreply, hack, hup, ?_⟩ ?_
      · exact (em (linkEvent env entry = none)).imp id (hcounts entry hentry)
      · exact (em (linkEvent env entry = none)).imp id fun h => ⟨hreply, hcounts entry hentry h⟩

theorem whole_round_iff (h : Linked env ledger st) (hread : streamFaults.read = false)
    (hne : st.batch count ≠ []) :
    (ledger.round env streamFaults faults (st.batch count)).Whole
        ((st.consume env count streamFaults faults).events env) ↔
      ledger.Whole (st.events env) ∧
        ((st.batch count).filterMap (linkEvent env) = [] ∨
          (streamFaults.reply = false ∧ countsLinks env faults (st.batch count))) ∧
        (streamFaults.reply = false → insertsLinks env faults (st.batch count) →
          strayVisits env (st.batch count) = []) := by
  obtain ⟨-, hdelivered⟩ := linked_consume faults h hread hne
  have hevents := events_append env hdelivered
  rw [hevents]
  unfold LinkLedger.round
  cases hreply : streamFaults.reply with
  | false =>
    simp only [Bool.false_eq_true, if_false, true_and, true_implies]
    exact whole_add_iff h.inserted h.counted faults (st.batch count)
  | true =>
    simp only [if_true, Bool.true_eq_false, false_and, or_false, false_implies, and_true]
    constructor
    · rintro ⟨hins, hcount, hnone⟩
      obtain ⟨hins, hnil⟩ := (eq_append_iff_of_sublist h.inserted).mp hins
      obtain ⟨hcount, -⟩ := (eq_append_iff_of_sublist h.counted).mp hcount
      exact ⟨⟨hins, hcount, hnone⟩, hnil⟩
    · rintro ⟨⟨hins, hcount, hnone⟩, hnil⟩
      exact ⟨(eq_append_iff_of_sublist h.inserted).mpr ⟨hins, hnil⟩,
        (eq_append_iff_of_sublist h.counted).mpr ⟨hcount, hnil⟩, hnone⟩

end Round

/-! ## Runs -/

section Runs

variable (env : LinkEnv υ) {ledger : LinkLedger υ} {st : LinkState υ}

omit [DecidableEq υ] in
/-- A new entry has not been delivered. -/
theorem delivered_xadd (h : st.cursor ≤ st.stream.entries.length) (entry : StreamEntry) :
    { st with stream := st.stream.xadd entry }.delivered = st.delivered := by
  unfold LinkState.delivered RedisStream.xadd
  dsimp only
  split
  · rfl
  · exact List.take_append_of_le_length h

/-- **The step lemma.** An action keeps what is owed if it meets the condition, and nothing that
was missing before it is made good. -/
theorem linkRight_step_iff (h : Linked env ledger st) (action : LinkAction) :
    (∃ ledger', Linked env ledger' (st.step env action)) ∧
      (LinkRight env (st.step env action) ↔ LinkRight env st ∧ LinkMeets env st action) := by
  cases action with
  | xadd entry =>
    have hdelivered := delivered_xadd h.cursor entry
    have hevents : (st.step env (.xadd entry)).events env = st.events env :=
      congrArg (List.filterMap (linkEvent env)) hdelivered
    have hlength : st.stream.entries.length ≤ (st.stream.xadd entry).entries.length := by
      unfold RedisStream.xadd
      split
      · exact le_rfl
      · rw [List.length_append]
        exact Nat.le_add_right _ _
    have hlinked : Linked env ledger (st.step env (.xadd entry)) := by
      refine ⟨h.tells, ?_, ?_, h.stray, h.cursor.trans hlength, fun ids hids => ?_,
        fun ids hids => ?_⟩
      · rw [hevents]
        exact h.inserted
      · rw [hevents]
        exact h.counted
      · show ids ∈ List.map _ (LinkState.delivered { st with stream := st.stream.xadd entry })
        rw [hdelivered]
        exact h.acked ids hids
      · show ids ∈ List.map _ (LinkState.delivered { st with stream := st.stream.xadd entry })
        rw [hdelivered]
        exact h.committed ids hids
    refine ⟨⟨ledger, hlinked⟩, ?_⟩
    have hsame : AckedOf env (st.step env (.xadd entry)).delivered st.acked st.db.committed ↔
        AckedOf env st.delivered st.acked st.db.committed := by
      show AckedOf env (LinkState.delivered { st with stream := st.stream.xadd entry }) _ _ ↔ _
      rw [hdelivered]
    refine (linkRight_iff_whole hlinked).trans ?_
    rw [hevents, linkRight_iff_whole h]
    exact (and_congr_right fun _ => hsame).trans (and_iff_left trivial).symm
  | consume count streamFaults faults =>
    by_cases hread : streamFaults.read = true ∨ st.batch count = []
    · have hstep : st.step env (.consume count streamFaults faults) = st := if_pos hread
      rw [hstep]
      exact ⟨⟨ledger, h⟩, (and_iff_left (hread.imp id .inl)).symm⟩
    · rw [not_or, Bool.not_eq_true] at hread
      obtain ⟨hread, hne⟩ := hread
      obtain ⟨hlinked, -⟩ := linked_consume faults h hread hne
      refine ⟨⟨_, hlinked⟩, ?_⟩
      have hmeets : LinkMeets env st (.consume count streamFaults faults) ↔
          BatchMeets env streamFaults faults (st.batch count) := by
        unfold LinkMeets
        dsimp only
        rw [hread, or_iff_right Bool.false_ne_true, or_iff_right hne]
      rw [hmeets, ← batchMeets_iff hne, linkRight_iff_whole h]
      refine (linkRight_iff_whole hlinked).trans ?_
      rw [whole_round_iff h hread hne, ackedOf_consume_iff h hread hne]
      tauto

/-- The state after some actions. -/
def linkRun (actions : List LinkAction) : LinkState υ := runFrom (LinkState.step env) {} actions

theorem linkRight_runFrom_iff (h : Linked env ledger st) (actions : List LinkAction) :
    LinkRight env (runFrom (LinkState.step env) st actions) ↔
      LinkRight env st ∧ Always (LinkState.step env) (LinkMeets env) st actions := by
  induction actions generalizing st ledger with
  | nil => exact (and_iff_left trivial).symm
  | cons action actions ih =>
    obtain ⟨⟨ledger', hlinked⟩, hstep⟩ := linkRight_step_iff env h action
    rw [runFrom_cons, ih hlinked, hstep, and_assoc]
    rfl

theorem linked_start : Linked env {} {} where
  tells := ⟨rfl, fun _ => rfl, fun _ => rfl⟩
  inserted := .slnil
  counted := .slnil
  stray _ := rfl
  cursor := le_rfl
  acked := nofun
  committed := nofun

/-- **The exact condition.** At the end of a run what is owed of the delivered entries has been
done if and only if every action of the run has met the condition. -/
theorem linkRight_iff (actions : List LinkAction) :
    LinkRight env (linkRun env actions) ↔
      Always (LinkState.step env) (LinkMeets env) {} actions := by
  have hstart : LinkRight env {} := ⟨.nil, fun _ => rfl, fun _ => rfl, nofun⟩
  exact (linkRight_runFrom_iff env (linked_start env) actions).trans (and_iff_right hstart)

end Runs

/-- UUIDs are texts, every user agent is a desktop, and the contact `x` is refused. -/
def plainLinks : LinkEnv String :=
  ⟨.plain, fun _ => .ok "desktop", fun val => val.get? "contact_id" ≠ some (some "x")⟩

/-- A visit of a link, an invalid entry with the same link, and one round in which nothing goes
wrong. -/
def strayRun : List LinkAction :=
  [.xadd ⟨"1-0", .ofEntries [("link_id", "l"), ("contact_id", "")]⟩,
    .xadd ⟨"2-0", .ofEntries [("link_id", "l"), ("contact_id", "x")]⟩, .consume 4000 {} {}]

/-- The invalid entry counts as a visit. -/
theorem not_linkRight : ¬ LinkRight plainLinks (linkRun plainLinks strayRun) := by
  intro h
  have hvisits := h.visits "l"
  have htwo : (linkRun plainLinks strayRun).db.visits "l" = 2 := by decide +kernel
  have hone : (((linkRun plainLinks strayRun).events plainLinks).map (·.link)).count "l" = 1 := by
    decide +kernel
  rw [htwo, hone] at hvisits
  exact absurd hvisits (by decide)

end Notifyr
