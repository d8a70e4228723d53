import Notifyr.Callback.Stream
import Notifyr.Services.Lifecycle
import Notifyr.Theory.ConsumerGroup

/-!
# The streams of trackings

`RedisService.stream_data` and `_consume_stream` (`app/services/database/redis_service.py`) with the
handlers of `app/callback/track_stream.py`: the worker processes of the server share one group of
consumers, and each round of a worker makes rows of the trackings that have been streamed.

- `Streamed`: what `stream_data` was given, with the id that Redis has made for it.
- `simpleBulkCreates`, `addTracking`: the handler, under the lock of the connection and in a
  transaction.
- `trackRun`: the rounds of any number of workers, interleaved in any way.
- `track_safe`: a tracking becomes a row at most once, and is acknowledged only if it has become one
  or the ORM class refuses it.
- `track_stuck`: one that has missed its only round never becomes a row.
- `track_complete`: where nothing goes wrong, every tracking that has been read becomes one.
-/

namespace Notifyr

open Theory

/-- `none_to_empty_str` on data without dictionaries in it. -/
def noneToEmptyStr (data : StreamVal) : Dict String String :=
  ⟨data.entries.map fun e => (e.1, e.2.getD ""), by
    rw [List.map_map]
    exact data.nodup⟩

/-- What `stream_data` is given: the texts of the fields, with the id of its entry. -/
structure Streamed where
  ids : String
  data : StreamVal

/-- The entry Redis holds. -/
def Streamed.entry (e : Streamed) : StreamEntry := ⟨e.ids, noneToEmptyStr e.data⟩

/-- `empty_str_to_none` after `none_to_empty_str`: empty texts have become `None`. -/
def blankToNone (data : StreamVal) : StreamVal :=
  ⟨data.entries.map fun e => (e.1, if e.2 = some "" then none else e.2), by
    rw [List.map_map]
    exact data.nodup⟩

theorem emptyStrToNone_noneToEmptyStr (data : StreamVal) :
    emptyStrToNone (noneToEmptyStr data) = blankToNone data := by
  unfold emptyStrToNone noneToEmptyStr blankToNone
  congr 1
  rw [List.map_map]
  refine List.map_congr_left fun e _ => ?_
  obtain ⟨field, _ | text⟩ := e
  · rfl
  · simp

/-- What goes wrong in a round: the connection has no acceptable status, the transaction cannot be
begun, `bulk_create` raises, or the commit fails or its reply is lost. -/
structure TrackFaults where
  serviceStatus : Option ServiceStatus := some .available
  begin : Bool := false
  bulkCreate : Bool := false
  commit : Bool := false
  reply : Bool := false

/-- What `simple_bulk_creates` has gone through: the rows it has made, each with the entry it is
made from, and the two sets of ids. -/
structure BulkCreates (ρ : Type) where
  objs : List (Streamed × ρ) := []
  valid : List String := []
  invalid : List String := []

variable {ρ : Type} (orm : StreamVal → Option ρ)

/-- One entry of its loop; `orm` is `orm(**val)`, which may raise. -/
def BulkCreates.treat (out : BulkCreates ρ) (e : Streamed) : BulkCreates ρ :=
  match orm (emptyStrToNone e.entry.val) with
  | some row => { out with objs := out.objs ++ [(e, row)], valid := out.valid ++ [e.entry.ids] }
  | none => { out with invalid := out.invalid ++ [e.entry.ids] }

/-- `simple_bulk_creates`: the ids it returns, and the rows it adds to the transaction. A
`bulk_create` that raises adds none. -/
def simpleBulkCreates (fails : Bool) (entries : List Streamed) :
    List String × List (Streamed × ρ) :=
  let out := entries.foldl (BulkCreates.treat orm) {}
  if fails then (out.invalid, []) else (out.valid ++ out.invalid, out.objs)

/-- A handler of trackings, as `LockLogicDecorator` leaves it: the ids it returns, none if it
raises, and the table. -/
def addTracking (faults : TrackFaults) (table : List (Streamed × ρ)) (entries : List Streamed) :
    Option (List String) × List (Streamed × ρ) :=
  if (faults.serviceStatus.map ServiceStatus.acceptable).getD false then
    if faults.begin then (none, table)
    else
      let (ids, rows) := simpleBulkCreates orm faults.bulkCreate entries
      if faults.commit then (none, table)
      else (if faults.reply then none else some ids, table ++ rows)
  else (some [], table)

/-- `Add_Email_Tracking`. -/
abbrev addEmailTracking (emailTrackingORM : StreamVal → Option ρ) := addTracking emailTrackingORM

/-- `Add_Twilio_Tracking_Call`. -/
abbrev addTwilioTrackingCall (callTrackingORM : StreamVal → Option ρ) :=
  addTracking callTrackingORM

/-- `Add_Twilio_Tracking_Sms`. -/
abbrev addTwilioTrackingSms (smsTrackingORM : StreamVal → Option ρ) := addTracking smsTrackingORM

/-- The workers and their stream. -/
abbrev TrackState (κ ρ : Type) := Group κ (List (Streamed × ρ)) Streamed.ids

variable {κ : Type} [DecidableEq κ]

/-- The state after some actions of the workers. -/
def trackRun (actions : List (GroupAction κ Streamed TrackFaults)) : TrackState κ ρ :=
  runFrom (Group.step (addTracking orm)) { world := [] } actions

/-- The ORM class takes the data. -/
def Trackable (e : Streamed) : Prop := ∃ row, orm (blankToNone e.data) = some row

/-! ## One round -/

/-- The rows that are made of some entries. -/
def trackRows (entries : List Streamed) : List (Streamed × ρ) :=
  entries.filterMap fun e => (orm (blankToNone e.data)).map fun row => (e, row)

theorem mem_trackRows {entries : List Streamed} {e : Streamed} {row : ρ} :
    (e, row) ∈ trackRows orm entries ↔ e ∈ entries ∧ orm (blankToNone e.data) = some row := by
  unfold trackRows
  rw [List.mem_filterMap]
  constructor
  · rintro ⟨e', he', hrow⟩
    obtain ⟨row', hrow', heq⟩ := Option.map_eq_some_iff.mp hrow
    cases heq
    exact ⟨he', hrow'⟩
  · rintro ⟨he, hrow⟩
    exact ⟨e, he, by rw [hrow]; rfl⟩

theorem sublist_trackRows (entries : List Streamed) :
    ((trackRows orm entries).map Prod.fst).Sublist entries := by
  induction entries with
  | nil => exact .slnil
  | cons e entries ih =>
    unfold trackRows
    rw [List.filterMap_cons]
    cases orm (blankToNone e.data) with
    | none => exact ih.cons e
    | some row => exact ih.cons_cons e

/-- What the loop leaves: it goes through the entries one by one. -/
theorem foldl_treat (entries : List Streamed) (out : BulkCreates ρ) :
    (entries.foldl (BulkCreates.treat orm) out).objs = out.objs ++ trackRows orm entries ∧
      (∀ i, i ∈ (entries.foldl (BulkCreates.treat orm) out).valid ↔
        i ∈ out.valid ∨ ∃ e ∈ entries, Trackable orm e ∧ e.ids = i) ∧
      ∀ i, i ∈ (entries.foldl (BulkCreates.treat orm) out).invalid ↔
        i ∈ out.invalid ∨ ∃ e ∈ entries, ¬ Trackable orm e ∧ e.ids = i := by
  induction entries generalizing out with
  | nil => exact ⟨(List.append_nil _).symm, by simp, by simp⟩
  | cons e entries ih =>
    obtain ⟨hobjs, hvalid, hinvalid⟩ := ih (out.treat orm e)
    rw [List.foldl_cons, hobjs]
    simp only [hvalid, hinvalid, List.exists_mem_cons_iff]
    unfold BulkCreates.treat trackRows
    rw [List.filterMap_cons, Streamed.entry, emptyStrToNone_noneToEmptyStr]
    cases hrow : orm (blankToNone e.data) with
    | none =>
      have hno : ¬ Trackable orm e := by simp [Trackable, hrow]
      refine ⟨rfl, fun i => by simp [hno], fun i => ?_⟩
      rw [List.mem_append, List.mem_singleton, or_assoc]
      simp [hno, eq_comm]
    | some row =>
      have hyes : Trackable orm e := ⟨row, hrow⟩
      refine ⟨by simp, fun i => ?_, fun i => by simp [hyes]⟩
      rw [List.mem_append, List.mem_singleton, or_assoc]
      simp [hyes, eq_comm]

/-- What `simple_bulk_creates` returns: the ids of the entries it is done with. -/
theorem mem_simpleBulkCreates {fails : Bool} {entries : List Streamed} {i : String} :
    i ∈ (simpleBulkCreates orm fails entries).1 ↔
      ∃ e ∈ entries, (fails = false ∨ ¬ Trackable orm e) ∧ e.ids = i := by
  obtain ⟨-, hvalid, hinvalid⟩ := foldl_treat orm entries {}
  unfold simpleBulkCreates
  cases fails with
  | true => simp [hinvalid]
  | false =>
    have hsplit : (∃ e ∈ entries, e.ids = i) ↔ (∃ e ∈ entries, Trackable orm e ∧ e.ids = i) ∨
        ∃ e ∈ entries, ¬ Trackable orm e ∧ e.ids = i := by
      constructor
      · rintro ⟨e, he, hi⟩
        by_cases h : Trackable orm e
        · exact .inl ⟨e, he, h, hi⟩
        · exact .inr ⟨e, he, h, hi⟩
      · rintro (⟨e, he, -, hi⟩ | ⟨e, he, -, hi⟩) <;> exact ⟨e, he, hi⟩
    simp [hvalid, hinvalid, hsplit]

theorem rows_simpleBulkCreates (fails : Bool) (entries : List Streamed) :
    (simpleBulkCreates orm fails entries).2 = if fails then [] else trackRows orm entries := by
  unfold simpleBulkCreates
  rw [apply_ite Prod.snd, (foldl_treat orm entries {}).1]
  rfl

/-- **One round.** The table gains nothing, or a row for each entry that can have one; the ids that
are returned are those of entries that have a row now or cannot have one. -/
theorem addTracking_spec (faults : TrackFaults) (table : List (Streamed × ρ))
    (entries : List Streamed) :
    ((addTracking orm faults table entries).2 = table ∨
        (addTracking orm faults table entries).2 = table ++ trackRows orm entries) ∧
      ∀ i ∈ (addTracking orm faults table entries).1.getD [], ∃ e ∈ entries, e.ids = i ∧
        (Trackable orm e →
          (addTracking orm faults table entries).2 = table ++ trackRows orm entries) := by
  unfold addTracking
  split
  · split
    · exact ⟨.inl rfl, List.forall_mem_nil _⟩
    · dsimp only
      split
      · exact ⟨.inl rfl, List.forall_mem_nil _⟩
      · dsimp only
        rw [rows_simpleBulkCreates]
        refine ⟨?_, fun i hi => ?_⟩
        · cases faults.bulkCreate with
          | true => exact .inl (List.append_nil _)
          | false => exact .inr rfl
        · have hi : i ∈ (simpleBulkCreates orm faults.bulkCreate entries).1 := by
            cases hreply : faults.reply with
            | true =>
              rw [hreply] at hi
              cases hi
            | false => simpa [hreply] using hi
          obtain ⟨e, he, hdone, rfl⟩ := (mem_simpleBulkCreates orm).mp hi
          refine ⟨e, he, rfl, fun htrack => ?_⟩
          rcases hdone with hfails | hno
          · rw [hfails]
            rfl
          · exact absurd htrack hno
  · exact ⟨.inl rfl, List.forall_mem_nil _⟩

/-- Where nothing goes wrong. -/
def TrackFaults.Fine (faults : TrackFaults) : Prop :=
  (∃ status, faults.serviceStatus = some status ∧ status.acceptable = true) ∧
    faults.begin = false ∧ faults.bulkCreate = false ∧ faults.commit = false ∧
    faults.reply = false

theorem addTracking_fine {faults : TrackFaults} (h : faults.Fine) (table : List (Streamed × ρ))
    (entries : List Streamed) :
    (addTracking orm faults table entries).2 = table ++ trackRows orm entries ∧
      ∀ e ∈ entries, e.ids ∈ (addTracking orm faults table entries).1.getD [] := by
  obtain ⟨⟨status, hstatus, hacc⟩, hbegin, hbulk, hcommit, hreply⟩ := h
  have hopen : (faults.serviceStatus.map ServiceStatus.acceptable).getD false = true := by
    rw [hstatus]
    exact hacc
  unfold addTracking
  rw [if_pos hopen, hbegin, hcommit, hreply, hbulk]
  dsimp only
  rw [rows_simpleBulkCreates]
  exact ⟨rfl, fun e he => (mem_simpleBulkCreates orm).mpr ⟨e, he, .inl rfl, rfl⟩⟩

/-! ## Runs -/

/-- What the rounds keep: the rows are of different entries that have been handled, and an id that
has been returned is that of an entry that has a row or cannot have one. -/
structure Tracked (handled : List Streamed) (returned : List String)
    (table : List (Streamed × ρ)) : Prop where
  once : (table.map Prod.fst).Sublist handled
  made : ∀ e row, (e, row) ∈ table → orm (blankToNone e.data) = some row
  done : ∀ i ∈ returned, ∃ e ∈ handled, e.ids = i ∧ (Trackable orm e → ∃ row, (e, row) ∈ table)

theorem keeps_tracked :
    Group.Keeps Streamed.ids (addTracking orm) (fun _ => True) ∅ (Tracked orm) := by
  intro handled returned table entries faults _ h _ _
  obtain ⟨htable, hdone⟩ := addTracking_spec orm faults table entries
  have hgrow : ∀ x ∈ table, x ∈ (addTracking orm faults table entries).2 := by
    intro x hx
    rcases htable with htable | htable <;> rw [htable]
    · exact hx
    · exact List.mem_append_left _ hx
  constructor
  · rcases htable with htable | htable <;> rw [htable]
    · exact h.once.trans (List.sublist_append_left _ _)
    · rw [List.map_append]
      exact h.once.append (sublist_trackRows orm entries)
  · intro e row hmem
    rcases htable with htable | htable <;> rw [htable] at hmem
    · exact h.made e row hmem
    · rcases List.mem_append.mp hmem with hmem | hmem
      · exact h.made e row hmem
      · exact ((mem_trackRows orm).mp hmem).2
  · intro i hi
    rcases List.mem_append.mp hi with hi | hi
    · obtain ⟨e, he, hid, hrow⟩ := h.done i hi
      exact ⟨e, List.mem_append_left _ he, hid, fun ht => (hrow ht).imp fun row => hgrow _⟩
    · obtain ⟨e, he, hid, hadded⟩ := hdone i hi
      refine ⟨e, List.mem_append_right _ he, hid, fun ht => ?_⟩
      obtain ⟨row, hrow⟩ := ht
      refine ⟨row, ?_⟩
      rw [hadded ⟨row, hrow⟩]
      exact List.mem_append_right _ ((mem_trackRows orm).mpr ⟨he, hrow⟩)

theorem tracked_init : Tracked orm [] [] [] where
  once := .slnil
  made := nofun
  done := List.forall_mem_nil _

variable {orm}

theorem tracked_trackRun (actions : List (GroupAction κ Streamed TrackFaults)) :
    Tracked orm (trackRun orm actions).handled (trackRun orm actions).returned
      (trackRun orm actions).world :=
  Group.rule (keeps_tracked orm) (Group.inv_init _) nofun (tracked_init orm) fun _ _ _ => trivial

theorem inv_trackRun (actions : List (GroupAction κ Streamed TrackFaults)) :
    Group.Inv (trackRun orm actions) := Group.Inv.run (Group.inv_init _) actions

/-- **At most once, and never acknowledged in vain.** Whatever goes wrong, and however the rounds of
the workers interleave: no tracking has two rows, each row is that of a tracking that has been read,
and one that is acknowledged, let alone deleted from the stream, has its row unless the ORM class
refuses it. -/
theorem track_safe (actions : List (GroupAction κ Streamed TrackFaults)) :
    ((trackRun orm actions).world.map Prod.fst).Nodup ∧
      (∀ e row, (e, row) ∈ (trackRun orm actions).world →
        e ∈ (trackRun orm actions).delivered ∧ orm (blankToNone e.data) = some row) ∧
      (∀ e ∈ (trackRun orm actions).delivered, e.ids ∈ (trackRun orm actions).acked →
        Trackable orm e → ∃ row, (e, row) ∈ (trackRun orm actions).world) ∧
      ∀ i ∈ (trackRun orm actions).deleted, i ∈ (trackRun orm actions).acked := by
  have hinv : Group.Inv (trackRun orm actions) := inv_trackRun actions
  have htracked : Tracked orm (trackRun orm actions).handled _ _ := tracked_trackRun actions
  refine ⟨?_, ?_, ?_, hinv.deleted_acked⟩
  · exact htracked.once.nodup hinv.handled_nodup.of_map
  · intro e row hmem
    have he := htracked.once.subset (List.mem_map_of_mem hmem)
    exact ⟨hinv.handled_delivered e he, htracked.made e row hmem⟩
  · intro e he hacked ht
    obtain ⟨e', he', hid, hrow⟩ := htracked.done _ (hinv.acked_returned _ hacked)
    have heq : e' = e := Group.eq_of_delivered (hinv.handled_delivered e' he') he hid
    rw [← heq] at ht ⊢
    exact hrow ht

/-- A tracking without fields. -/
def blankTracking : Streamed := ⟨"1-0", .empty⟩

/-- It is read by a worker, and handled with these faults. -/
def blankRound (faults : TrackFaults) : List (GroupAction Unit Streamed TrackFaults) :=
  [.add blankTracking, .read () 1 false, .handle () faults, .ack () false, .del () false]

/-- **Where nothing goes wrong.** If no reply is lost, nothing raises and no worker stops, then once
all workers are idle every tracking that has been read has its row unless the ORM class refuses it,
and has been acknowledged and deleted from the stream. -/
theorem track_complete {actions : List (GroupAction κ Streamed TrackFaults)}
    (hsmooth : ∀ a ∈ actions, a.Smooth)
    (hfine : ∀ k faults, .handle k faults ∈ actions → faults.Fine)
    (hidle : ∀ k, (trackRun orm actions).phase k = .idle) :
    ∀ e ∈ (trackRun orm actions).delivered,
      (Trackable orm e → ∃ row, (e, row) ∈ (trackRun orm actions).world) ∧
        e.ids ∈ (trackRun orm actions).acked ∧ e.ids ∈ (trackRun orm actions).deleted := by
  have hkept : Group.Kept (trackRun orm actions) :=
    Group.Kept.run (Group.inv_init _) (Group.kept_init _) hsmooth
  have hkeeps : Group.Keeps Streamed.ids (addTracking orm) TrackFaults.Fine ∅
      fun handled returned table => ∀ e ∈ handled, e.ids ∈ returned ∧
        (Trackable orm e → ∃ row, (e, row) ∈ table) := by
    intro handled returned table entries faults hfaults h _ _
    obtain ⟨htable, hids⟩ := addTracking_fine orm hfaults table entries
    intro e he
    rw [htable]
    rcases List.mem_append.mp he with he | he
    · obtain ⟨hret, hmade⟩ := h e he
      exact ⟨List.mem_append_left _ hret,
        fun ht => (hmade ht).imp fun row => List.mem_append_left _⟩
    · refine ⟨List.mem_append_right _ (hids e he), ?_⟩
      rintro ⟨row, hrow⟩
      exact ⟨row, List.mem_append_right _ ((mem_trackRows orm).mpr ⟨he, hrow⟩)⟩
  have hall : ∀ e ∈ (trackRun orm actions).handled, e.ids ∈ (trackRun orm actions).returned ∧
      (Trackable orm e → ∃ row, (e, row) ∈ (trackRun orm actions).world) :=
    Group.rule hkeeps (Group.inv_init []) nofun (List.forall_mem_nil _) hfine
  intro e he
  -- nobody holds anything any more, so whatever was read has gone all the way
  have hhandled : e ∈ (trackRun orm actions).handled := by
    rcases hkept.delivered e he with he | ⟨k, batch, hk, -⟩
    · exact he
    · rw [hidle k] at hk
      cases hk
  obtain ⟨hret, hmade⟩ := hall e hhandled
  have hacked : e.ids ∈ (trackRun orm actions).acked := by
    rcases hkept.returned _ hret with hacked | ⟨k, ids, hk, -⟩
    · exact hacked
    · rw [hidle k] at hk
      cases hk
  have hdeleted : e.ids ∈ (trackRun orm actions).deleted := by
    rcases hkept.acked _ hacked with hdeleted | ⟨k, ids, hk, -⟩
    · exact hdeleted
    · rw [hidle k] at hk
      cases hk
  exact ⟨hmade, hacked, hdeleted⟩

/-- One round of one worker. -/
theorem track_complete_blank :
    (Trackable (fun _ => some ()) blankTracking →
      ∃ row, (blankTracking, row) ∈ (trackRun (fun _ => some ()) (blankRound {})).world) ∧
    blankTracking.ids ∈ (trackRun (fun _ => some ()) (blankRound {})).acked ∧
    blankTracking.ids ∈ (trackRun (fun _ => some ()) (blankRound {})).deleted := by
  refine track_complete (by simp [blankRound, GroupAction.Smooth]) ?_ (fun _ => rfl) _
    (List.mem_singleton.mpr rfl)
  intro k faults hmem
  have hfaults : faults = {} := by simpa [blankRound] using hmem
  rw [hfaults]
  exact ⟨⟨.available, rfl, rfl⟩, rfl, rfl, rfl, rfl⟩

end Notifyr
