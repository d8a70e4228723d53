import Mathlib.Data.List.Dedup
import Notifyr.Callback.Stream

/-!
# Link events

`Add_Link_Event` (`app/callback/event_stream.py`): a batch of visits of any links is inserted and
counted, by link and by link, location and device.

- `LinkEnv`: the texts of UUIDs, the device of a user agent, and what the ORM class accepts.
- `treatLink`: the body of the loop, which counts an entry before it looks at all of it.
- `addLinkEvent`: the handler with its two transactions, any of which may fail.
- `linkEvent`, `strayVisit`, `strayPlace`: the event of a valid entry, and what an invalid one
  leaves in the counters.
- `addLinkEvent_eq`: what a batch leaves in the database, and which ids it returns.
-/

namespace Notifyr

open Theory

/-- The texts of UUIDs, the type of the device of a user agent as the parser gives it, and whether
the ORM class accepts the fields of an entry other than `link_id`. -/
structure LinkEnv (υ : Type) where
  uuid : UuidText υ
  deviceType : String → Py String
  accepts : StreamVal → Bool

/-- The whitespace of `str.strip`. -/
def isSpace (c : Char) : Bool :=
  c.toNat ∈ [9, 10, 11, 12, 13, 28, 29, 30, 31, 32, 133, 160, 5760, 8192, 8193, 8194, 8195, 8196,
    8197, 8198, 8199, 8200, 8201, 8202, 8232, 8233, 8239, 8287, 12288]

/-- `str.strip`. -/
def strip (s : String) : String :=
  String.ofList ((s.toList.dropWhile isSpace).reverse.dropWhile isSpace).reverse

/-- Where and with what a link is visited: location and device. -/
abbrev LinkSpot := Location × String

/-- A key of `analytics`; the id of the link is a text, or `None`. -/
abbrev LinkKey := Option String × LinkSpot

/-- What a row of the analytics counts. -/
structure Place (υ : Type) where
  link : υ
  spot : LinkSpot
  deriving DecidableEq

variable {υ : Type}

/-! ## The body of the loop -/

/-- The dictionaries and sets of the handler that the entries fill. -/
structure LinkWorld where
  eventCount : Dict (Option String) ℤ := .empty
  analytics : Dict LinkKey ℤ := .empty
  objs : List StreamVal := []
  validEntries : List String := []

/-- A computation on them. -/
abbrev LinkM := EffectM LinkWorld

/-- `event_count`. -/
def eventCounters : Counters LinkWorld (Option String) :=
  ⟨(·.eventCount), fun w d => { w with eventCount := d }, fun _ _ => rfl, fun _ _ _ => rfl⟩

/-- `analytics`. -/
def linkCounters : Counters LinkWorld LinkKey :=
  ⟨(·.analytics), fun w d => { w with analytics := d }, fun _ _ => rfl, fun _ _ _ => rfl⟩

/-- The device of an entry. -/
def deviceOf (env : LinkEnv υ) (userAgent : Option String) : Py String :=
  match userAgent with
  | none => .ok "unknown"
  | some userAgent => do
    let device := strip (← env.deviceType userAgent)
    return if device = "" then "unknown" else device

/-- The rest of a key of `analytics`. -/
def linkSpot (env : LinkEnv υ) (val : StreamVal) : Py LinkSpot := do
  let device ← deviceOf env (val.get? "user_agent").join
  if (val.get? "country").join = none then return (nowhere, device)
  else
    let country ← getItem val "country"
    let region ← getItem val "region"
    let city ← getItem val "city"
    return ((country, region, city), device)

/-- `LinkEventORM(**val)`. -/
def linkEventORM (env : LinkEnv υ) (val : StreamVal) : Py StreamVal :=
  if fieldOk val "link_id" (fun value => (env.uuid.parse value).isSome) ∧ env.accepts val then
    .ok val
  else .error .valueError

/-- The body of the `try`, on an entry. -/
def treatLink (env : LinkEnv υ) (entry : StreamEntry) : LinkM Unit := do
  let val := emptyStrToNone entry.val
  let linkId ← EffectM.lift (getItem val "link_id")
  countAt eventCounters linkId
  let spot ← EffectM.lift (linkSpot env val)
  countAt linkCounters (linkId, spot)
  let event ← EffectM.lift (linkEventORM env val)
  modify fun w =>
    { w with objs := w.objs ++ [event], validEntries := entry.ids :: w.validEntries }

/-! ## The database -/

/-- What the handler writes: the rows of `LinkEvent`, the visits of each link and of each place.
`committed` are the ids of the entries whose effects have all been written, which is no table. -/
structure LinkDb (υ : Type) where
  rows : List StreamVal := []
  visits : υ → ℤ := fun _ => 0
  analytics : Place υ → ℤ := fun _ => 0
  committed : List String := []

/-- The link of a key. -/
def linkOf (env : LinkEnv υ) (linkId : Option String) : Option υ := linkId.bind env.uuid.parse

/-- The place of a key. -/
def placeOf (env : LinkEnv υ) (key : LinkKey) : Option (Place υ) :=
  (linkOf env key.1).map fun link => ⟨link, key.2⟩

variable [DecidableEq υ]

/-- `bulk_upsert_links_vc`: refused where an id is not a UUID. -/
def bulkUpsertLinksVc (env : LinkEnv υ) (visits : υ → ℤ) (data : Dict (Option String) ℤ) :
    Option (υ → ℤ) :=
  if ∀ k ∈ data.keys, (linkOf env k).isSome then
    some fun link => visits link + data.total fun k => linkOf env k = some link
  else none

/-- `bulk_upsert_analytics`. -/
def bulkUpsertAnalytics (env : LinkEnv υ) (analytics : Place υ → ℤ) (data : Dict LinkKey ℤ) :
    Option (Place υ → ℤ) :=
  if ∀ k ∈ data.keys, (placeOf env k).isSome then
    some fun place => analytics place + data.total fun k => placeOf env k = some place
  else none

/-- What goes wrong while a batch is treated: the service is down, or the database refuses a
statement or the end of one of the two transactions, or is lost. -/
structure LinkFaults where
  unavailable : Bool := false
  first : Bool := false
  second : Bool := false

/-- The first transaction. -/
def insertLinks (env : LinkEnv υ) (fault : Bool) (db : LinkDb υ) (w : LinkWorld) :
    Option (LinkDb υ) :=
  if fault then none
  else
    (bulkUpsertLinksVc env db.visits w.eventCount).map fun visits =>
      { db with rows := db.rows ++ w.objs, visits }

/-- The second transaction. -/
def countLinks (env : LinkEnv υ) (fault : Bool) (db : LinkDb υ) (w : LinkWorld) :
    Option (LinkDb υ) :=
  if fault then none
  else
    (bulkUpsertAnalytics env db.analytics w.analytics).map fun analytics =>
      { db with analytics, committed := db.committed ++ w.validEntries }

/-- `Add_Link_Event` under `lock_logic`: the ids to acknowledge, and the database. -/
def addLinkEvent (env : LinkEnv υ) (faults : LinkFaults) (db : LinkDb υ)
    (entries : List StreamEntry) : List String × LinkDb υ :=
  if faults.unavailable then ([], db)
  else
    let (w, invalid) := treatEach (treatLink env) {} entries
    match insertLinks env faults.first db w with
    | none => (invalid.map (·.ids), db)
    | some db =>
      match countLinks env faults.second db w with
      | none => (invalid.map (·.ids), db)
      | some db => ((w.validEntries ++ invalid.map (·.ids)).dedup, db)

/-! ## What an entry counts -/

/-- The key of an entry in `event_count`. -/
def visitKey (entry : StreamEntry) : Option (Option String) :=
  (emptyStrToNone entry.val).get? "link_id"

/-- Its key in `analytics`. -/
def analyticsKey (env : LinkEnv υ) (entry : StreamEntry) : Option LinkKey := do
  let linkId ← visitKey entry
  let spot ← (linkSpot env (emptyStrToNone entry.val)).toOption
  return (linkId, spot)

/-- A valid event: a visit of a link. -/
structure LinkEvent (υ : Type) where
  link : υ
  spot : LinkSpot
  row : StreamVal

/-- The place of an event. -/
def LinkEvent.place (e : LinkEvent υ) : Place υ := ⟨e.link, e.spot⟩

/-- The event of an entry with a link and a location, whose row the class accepts. -/
def linkEvent (env : LinkEnv υ) (entry : StreamEntry) : Option (LinkEvent υ) := do
  let key ← analyticsKey env entry
  let row ← (linkEventORM env (emptyStrToNone entry.val)).toOption
  let link ← linkOf env key.1
  return { link, spot := key.2, row }

/-! ## What one entry does -/

section Entry

variable (env : LinkEnv υ)

/-- What an entry leaves: it is counted as far as it can be read. -/
def afterLink (w : LinkWorld) (entry : StreamEntry) : LinkWorld :=
  let eventCount := w.eventCount.tally (visitKey entry)
  let analytics := w.analytics.tally (analyticsKey env entry)
  match linkEvent env entry with
  | none => { w with eventCount, analytics }
  | some e =>
    { eventCount, analytics
      objs := w.objs ++ [e.row]
      validEntries := entry.ids :: w.validEntries }

omit [DecidableEq υ] in
/-- The row of an entry has its link. -/
theorem linkEventORM_ok {val row : StreamVal} (h : linkEventORM env val = .ok row) :
    row = val ∧ ∀ linkId, val.get? "link_id" = some linkId → (linkOf env linkId).isSome := by
  unfold linkEventORM at h
  split at h
  · rename_i htaken
    cases h
    refine ⟨rfl, fun linkId hid => ?_⟩
    have hlink := htaken.1
    unfold fieldOk at hlink
    rw [hid] at hlink
    cases linkId with
    | none => cases hlink
    | some text => exact hlink
  · cases h

omit [DecidableEq υ] in
theorem treatLink_run (w : LinkWorld) (entry : StreamEntry) :
    ∃ r : Py Unit, (treatLink env entry).run w = (r, afterLink env w entry) ∧
      r.isOk = (linkEvent env entry).isSome := by
  unfold treatLink afterLink linkEvent analyticsKey visitKey
  dsimp only
  rw [EffectM.run_bind_lift]
  unfold getItem
  cases hid : (emptyStrToNone entry.val).get? "link_id" with
  | none => exact ⟨.error .keyError, rfl, rfl⟩
  | some linkId =>
    dsimp only [Option.bind_eq_bind, Option.bind_some]
    rw [EffectM.run_bind, countAt_run]
    dsimp only
    rw [EffectM.run_bind_lift]
    cases linkSpot env (emptyStrToNone entry.val) with
    | error e => exact ⟨.error e, rfl, rfl⟩
    | ok spot =>
      dsimp only [Except.toOption, Option.bind_some]
      rw [EffectM.run_bind, countAt_run]
      dsimp only
      rw [EffectM.run_bind_lift]
      cases hrow : linkEventORM env (emptyStrToNone entry.val) with
      | error e => exact ⟨.error e, rfl, rfl⟩
      | ok row =>
        obtain ⟨link, hlink⟩ :=
          Option.isSome_iff_exists.mp ((linkEventORM_ok env hrow).2 linkId hid)
        dsimp only [pure, Option.bind_some]
        rw [hlink]
        exact ⟨.ok (), rfl, rfl⟩

end Entry

/-! ## What a batch does -/

section Batch

variable (env : LinkEnv υ)

/-- The dictionaries after a batch. -/
def linksAfter (entries : List StreamEntry) : LinkWorld := entries.foldl (afterLink env) {}

omit [DecidableEq υ] in
theorem treatEach_treatLink (entries : List StreamEntry) :
    treatEach (treatLink env) {} entries =
      (linksAfter env entries, entries.filter fun entry => !(linkEvent env entry).isSome) :=
  treatEach_eq _ (fun _ => True) (fun _ _ _ => trivial)
    (fun w entry _ => treatLink_run env w entry) trivial entries

omit [DecidableEq υ] in
theorem eventCount_foldl (w : LinkWorld) (entries : List StreamEntry) :
    (entries.foldl (afterLink env) w).eventCount =
      entries.foldl (fun d entry => d.tally (visitKey entry)) w.eventCount := by
  induction entries generalizing w with
  | nil => rfl
  | cons entry entries ih =>
    rw [List.foldl_cons, ih, List.foldl_cons]
    unfold afterLink
    cases linkEvent env entry with
    | none => rfl
    | some e => rfl

omit [DecidableEq υ] in
theorem analytics_foldl (w : LinkWorld) (entries : List StreamEntry) :
    (entries.foldl (afterLink env) w).analytics =
      entries.foldl (fun d entry => d.tally (analyticsKey env entry)) w.analytics := by
  induction entries generalizing w with
  | nil => rfl
  | cons entry entries ih =>
    rw [List.foldl_cons, ih, List.foldl_cons]
    unfold afterLink
    cases linkEvent env entry with
    | none => rfl
    | some e => rfl

omit [DecidableEq υ] in
theorem linkObjs_foldl (w : LinkWorld) (entries : List StreamEntry) :
    (entries.foldl (afterLink env) w).objs =
      w.objs ++ (entries.filterMap (linkEvent env)).map (·.row) := by
  induction entries generalizing w with
  | nil => exact (List.append_nil _).symm
  | cons entry entries ih =>
    rw [List.foldl_cons, ih, List.filterMap_cons]
    unfold afterLink
    cases linkEvent env entry with
    | none => rfl
    | some e => exact List.append_assoc w.objs [e.row] _

omit [DecidableEq υ] in
theorem mem_validEntries_foldl (w : LinkWorld) (entries : List StreamEntry) (ids : String) :
    ids ∈ (entries.foldl (afterLink env) w).validEntries ↔ ids ∈ w.validEntries ∨
      ∃ entry ∈ entries, (linkEvent env entry).isSome ∧ entry.ids = ids := by
  induction entries generalizing w with
  | nil => simp
  | cons entry entries ih =>
    rw [List.foldl_cons, ih, List.exists_mem_cons_iff, ← or_assoc]
    unfold afterLink
    cases linkEvent env entry with
    | none => simp
    | some e =>
      dsimp only
      rw [List.mem_cons, or_comm (a := ids = entry.ids), Option.isSome_some, eq_comm (a := ids)]
      simp only [true_and]

/-- The links that the invalid entries of a batch are counted for. -/
def strayVisits (entries : List StreamEntry) : List υ :=
  (entries.filter fun entry => !(linkEvent env entry).isSome).filterMap fun entry =>
    (visitKey entry).bind (linkOf env)

/-- The places that they are counted for. -/
def strayPlaces (entries : List StreamEntry) : List (Place υ) :=
  (entries.filter fun entry => !(linkEvent env entry).isSome).filterMap fun entry =>
    (analyticsKey env entry).bind (placeOf env)

omit [DecidableEq υ] in
/-- What a valid event has been read from. -/
theorem linkEvent_eq_some {entry : StreamEntry} {e : LinkEvent υ}
    (h : linkEvent env entry = some e) :
    (visitKey entry).bind (linkOf env) = some e.link ∧
      (analyticsKey env entry).bind (placeOf env) = some e.place := by
  unfold linkEvent analyticsKey at h
  simp only [Option.bind_eq_bind, Option.bind_eq_some_iff] at h
  obtain ⟨key, ⟨linkId, hid, spot, hspot, hkey⟩, row, hrow, link, hlink, h⟩ := h
  cases hkey
  cases h
  unfold analyticsKey
  rw [hid, Option.bind_eq_bind, Option.bind_some, Option.bind_some, hspot]
  refine ⟨hlink, ?_⟩
  show (linkOf env linkId).map _ = _
  rw [show linkOf env linkId = some link from hlink]
  rfl

omit [DecidableEq υ] in
/-- What the valid entries of a list give by some reading, and what the others give. -/
theorem countP_reading {β : Type} [DecidableEq β] (read : StreamEntry → Option β)
    (value : LinkEvent υ → β)
    (hread : ∀ entry e, linkEvent env entry = some e → read entry = some (value e))
    (entries : List StreamEntry) (b : β) :
    (entries.countP fun entry => read entry = some b) =
      ((entries.filterMap (linkEvent env)).map value).count b +
        ((entries.filter fun entry => !(linkEvent env entry).isSome).filterMap read).count b := by
  induction entries with
  | nil => rfl
  | cons entry entries ih =>
    rw [List.countP_cons, ih, List.filterMap_cons, List.filter_cons]
    cases hevent : linkEvent env entry with
    | some e =>
      rw [hread entry e hevent]
      simp only [List.map_cons, List.count_cons, Option.isSome_some, Bool.not_true,
        Bool.false_eq_true, if_false, Option.some_inj, decide_eq_true_eq, beq_iff_eq]
      omega
    | none =>
      simp only [Option.isSome_none, Bool.not_false, if_true, List.filterMap_cons]
      cases read entry with
      | none => simp
      | some b' =>
        simp only [List.count_cons, Option.some_inj, decide_eq_true_eq, beq_iff_eq]
        omega

/-- All ids of links in a batch are UUIDs. -/
def readableLinks (entries : List StreamEntry) : Bool :=
  entries.all fun entry => (visitKey entry).all fun linkId => (linkOf env linkId).isSome

/-- The first transaction of a batch commits. -/
def insertsLinks (faults : LinkFaults) (entries : List StreamEntry) : Bool :=
  !faults.unavailable && !faults.first && readableLinks env entries

/-- The second transaction of a batch commits. -/
def countsLinks (faults : LinkFaults) (entries : List StreamEntry) : Bool :=
  insertsLinks env faults entries && !faults.second

omit [DecidableEq υ] in
theorem mem_eventCount_keys (entries : List StreamEntry) (linkId : Option String) :
    linkId ∈ (linksAfter env entries).eventCount.keys ↔
      ∃ entry ∈ entries, visitKey entry = some linkId := by
  unfold linksAfter
  rw [eventCount_foldl, Dict.mem_keys_foldl_tally]
  exact or_iff_right List.not_mem_nil

omit [DecidableEq υ] in
theorem readableLinks_iff (entries : List StreamEntry) :
    readableLinks env entries ↔
      ∀ k ∈ (linksAfter env entries).eventCount.keys, (linkOf env k).isSome := by
  unfold readableLinks
  simp only [List.all_eq_true, Option.all_eq_true, mem_eventCount_keys]
  exact ⟨fun h k ⟨entry, hentry, hk⟩ => h entry hentry k hk,
    fun h entry hentry k hk => h k ⟨entry, hentry, hk⟩⟩

omit [DecidableEq υ] in
/-- The second transaction reads no other links than the first. -/
theorem placeOf_isSome {entries : List StreamEntry} (h : readableLinks env entries) :
    ∀ k ∈ (linksAfter env entries).analytics.keys, (placeOf env k).isSome := by
  intro k hk
  unfold linksAfter at hk
  rw [analytics_foldl, Dict.mem_keys_foldl_tally] at hk
  obtain ⟨entry, hentry, hkey⟩ := hk.resolve_left List.not_mem_nil
  unfold analyticsKey at hkey
  simp only [Option.bind_eq_bind, Option.bind_eq_some_iff] at hkey
  obtain ⟨linkId, hid, spot, -, hk⟩ := hkey
  cases hk
  unfold placeOf
  rw [Option.isSome_map]
  exact (readableLinks_iff env entries).mp h linkId
    ((mem_eventCount_keys env entries linkId).mpr ⟨entry, hentry, hid⟩)

/-- What the first transaction adds for a link. -/
theorem eventCount_total (entries : List StreamEntry) (link : υ) :
    ((linksAfter env entries).eventCount.total fun k => linkOf env k = some link) =
      (((entries.filterMap (linkEvent env)).map (·.link)).count link +
        (strayVisits env entries).count link : ℕ) := by
  unfold linksAfter
  rw [eventCount_foldl, Dict.total_foldl_tally, Dict.total_empty, zero_add]
  have hread := countP_reading env (fun entry => (visitKey entry).bind (linkOf env))
    (fun e => e.link) (fun entry e h => (linkEvent_eq_some env h).1) entries link
  unfold strayVisits
  rw [← hread]
  refine congrArg _ (List.countP_congr fun entry _ => ?_)
  cases visitKey entry with
  | none => simp
  | some k => simp

/-- What the second transaction adds for a place. -/
theorem analytics_total (entries : List StreamEntry) (place : Place υ) :
    ((linksAfter env entries).analytics.total fun k => placeOf env k = some place) =
      (((entries.filterMap (linkEvent env)).map (·.place)).count place +
        (strayPlaces env entries).count place : ℕ) := by
  unfold linksAfter
  rw [analytics_foldl, Dict.total_foldl_tally, Dict.total_empty, zero_add]
  have hread := countP_reading env (fun entry => (analyticsKey env entry).bind (placeOf env))
    (fun e => e.place) (fun entry e h => (linkEvent_eq_some env h).2) entries place
  unfold strayPlaces
  rw [← hread]
  refine congrArg _ (List.countP_congr fun entry _ => ?_)
  cases analyticsKey env entry with
  | none => simp
  | some k => simp

end Batch

/-! ## The ledger of the database -/

/-- What the database has been given: the events inserted, the events counted in the analytics, and
what invalid entries have added to the counts. -/
structure LinkLedger (υ : Type) where
  inserted : List (LinkEvent υ) := []
  counted : List (LinkEvent υ) := []
  strayVisits : List υ := []
  strayPlaces : List (Place υ) := []

namespace LinkLedger

/-- The database holds what the ledger tells. -/
structure Tells (ledger : LinkLedger υ) (db : LinkDb υ) : Prop where
  rows : db.rows = ledger.inserted.map (·.row)
  visits : ∀ link, db.visits link =
    ((ledger.inserted.map (·.link)).count link + ledger.strayVisits.count link : ℕ)
  analytics : ∀ place, db.analytics place =
    ((ledger.counted.map (·.place)).count place + ledger.strayPlaces.count place : ℕ)

/-- A batch whose first transaction commits. -/
def insert (env : LinkEnv υ) (entries : List StreamEntry) (ledger : LinkLedger υ) : LinkLedger υ :=
  { ledger with
    inserted := ledger.inserted ++ entries.filterMap (linkEvent env)
    strayVisits := ledger.strayVisits ++ Notifyr.strayVisits env entries }

/-- A batch whose second transaction commits. -/
def count (env : LinkEnv υ) (entries : List StreamEntry) (ledger : LinkLedger υ) : LinkLedger υ :=
  { ledger with
    counted := ledger.counted ++ entries.filterMap (linkEvent env)
    strayPlaces := ledger.strayPlaces ++ Notifyr.strayPlaces env entries }

/-- A batch. -/
def add (env : LinkEnv υ) (faults : LinkFaults) (entries : List StreamEntry)
    (ledger : LinkLedger υ) : LinkLedger υ :=
  if countsLinks env faults entries then (ledger.insert env entries).count env entries
  else if insertsLinks env faults entries then ledger.insert env entries
  else ledger

variable (env : LinkEnv υ) {ledger : LinkLedger υ} {db : LinkDb υ}

theorem Tells.insert (h : ledger.Tells db) (entries : List StreamEntry) :
    (ledger.insert env entries).Tells { db with
      rows := db.rows ++ (linksAfter env entries).objs
      visits := fun link => db.visits link +
        (linksAfter env entries).eventCount.total fun k => linkOf env k = some link } where
  rows := by
    unfold linksAfter LinkLedger.insert
    rw [linkObjs_foldl, h.rows, List.map_append]
    rfl
  visits link := by
    unfold LinkLedger.insert
    dsimp only
    rw [h.visits, eventCount_total, List.map_append, List.count_append, List.count_append]
    push_cast
    omega
  analytics := h.analytics

theorem Tells.count (h : ledger.Tells db) (entries : List StreamEntry) (committed : List String) :
    (ledger.count env entries).Tells { db with
      analytics := fun place => db.analytics place +
        (linksAfter env entries).analytics.total fun k => placeOf env k = some place
      committed } where
  rows := h.rows
  visits := h.visits
  analytics place := by
    unfold LinkLedger.count
    dsimp only
    rw [h.analytics, analytics_total, List.map_append, List.count_append, List.count_append]
    push_cast
    omega

variable {faults : LinkFaults} {entries : List StreamEntry}

/-- The first transaction of a batch. -/
theorem insertLinks_eq (db : LinkDb υ) (h : faults.unavailable = false) :
    insertLinks env faults.first db (linksAfter env entries) =
      if insertsLinks env faults entries then
        some { db with
          rows := db.rows ++ (linksAfter env entries).objs
          visits := fun link => db.visits link +
            (linksAfter env entries).eventCount.total fun k => linkOf env k = some link }
      else none := by
  unfold insertLinks bulkUpsertLinksVc insertsLinks
  rw [h]
  cases faults.first
  · by_cases hread : readableLinks env entries
    · rw [if_pos ((readableLinks_iff env entries).mp hread), hread]
      rfl
    · rw [if_neg fun hall => hread ((readableLinks_iff env entries).mpr hall),
        Bool.eq_false_iff.mpr hread]
      rfl
  · rfl

/-- The second transaction of a batch, where the first one has committed. -/
theorem countLinks_eq (db : LinkDb υ) (h : insertsLinks env faults entries) :
    countLinks env faults.second db (linksAfter env entries) =
      if countsLinks env faults entries then
        some { db with
          analytics := fun place => db.analytics place +
            (linksAfter env entries).analytics.total fun k => placeOf env k = some place
          committed := db.committed ++ (linksAfter env entries).validEntries }
      else none := by
  have hread : readableLinks env entries := (Bool.and_eq_true_iff.mp h).2
  unfold countLinks bulkUpsertAnalytics countsLinks
  rw [h]
  cases faults.second
  · rw [if_pos (placeOf_isSome env hread)]
    rfl
  · rfl

/-- **What a batch leaves.** The database holds what its ledger tells, and a batch that is
available adds the ids of its entries to those it returns and to those it has committed. -/
theorem addLinkEvent_tells (h : ledger.Tells db) (faults : LinkFaults)
    (entries : List StreamEntry) :
    (ledger.add env faults entries).Tells (addLinkEvent env faults db entries).2 ∧
      (∀ ids, ids ∈ (addLinkEvent env faults db entries).1 ↔ faults.unavailable = false ∧
        ∃ entry ∈ entries, entry.ids = ids ∧
          (linkEvent env entry = none ∨ countsLinks env faults entries)) ∧
      ∀ ids, ids ∈ (addLinkEvent env faults db entries).2.committed ↔ ids ∈ db.committed ∨
        (countsLinks env faults entries ∧
          ∃ entry ∈ entries, entry.ids = ids ∧ (linkEvent env entry).isSome) := by
  have hvalid : ∀ ids, ids ∈ (linksAfter env entries).validEntries ↔
      ∃ entry ∈ entries, (linkEvent env entry).isSome ∧ entry.ids = ids := fun ids =>
    (mem_validEntries_foldl env {} entries ids).trans (or_iff_right List.not_mem_nil)
  have hinvalid : ∀ ids, ids ∈ (entries.filter fun entry => !(linkEvent env entry).isSome).map
      (·.ids) ↔ ∃ entry ∈ entries, entry.ids = ids ∧ linkEvent env entry = none := by
    intro ids
    simp only [List.mem_map, List.mem_filter, Bool.not_eq_true', Option.isSome_eq_false_iff,
      Option.isNone_iff_eq_none]
    exact ⟨fun ⟨entry, ⟨hentry, hnone⟩, hids⟩ => ⟨entry, hentry, hids, hnone⟩,
      fun ⟨entry, hentry, hids, hnone⟩ => ⟨entry, ⟨hentry, hnone⟩, hids⟩⟩
  unfold addLinkEvent LinkLedger.add
  cases hdown : faults.unavailable with
  | true =>
    have hinserts : insertsLinks env faults entries = false := by
      unfold insertsLinks
      rw [hdown]
      rfl
    have hcounts : countsLinks env faults entries = false := by
      unfold countsLinks
      rw [hinserts]
      rfl
    rw [hinserts, hcounts]
    exact ⟨h, by simp, by simp⟩
  | false =>
    rw [treatEach_treatLink]
    dsimp only
    rw [insertLinks_eq env db hdown]
    cases hinserts : insertsLinks env faults entries with
    | false =>
      have hcounts : countsLinks env faults entries = false := by
        unfold countsLinks
        rw [hinserts]
        rfl
      rw [hcounts]
      refine ⟨h, fun ids => ?_, by simp⟩
      simp only [Bool.false_eq_true, if_false, hinvalid, or_false, true_and]
    | true =>
      simp only [if_true, Bool.false_eq_true, if_false]
      rw [countLinks_eq env _ hinserts]
      cases hcounts : countsLinks env faults entries with
      | false =>
        refine ⟨h.insert env entries, fun ids => ?_, by simp⟩
        simp only [Bool.false_eq_true, if_false, hinvalid, or_false, true_and]
      | true =>
        refine ⟨(h.insert env entries).count env entries _, fun ids => ?_, fun ids => ?_⟩
        · simp only [if_true, List.mem_dedup, List.mem_append, hvalid, hinvalid, true_and, or_true,
            and_true]
          constructor
          · rintro (⟨entry, hentry, -, hids⟩ | ⟨entry, hentry, hids, -⟩)
            · exact ⟨entry, hentry, hids⟩
            · exact ⟨entry, hentry, hids⟩
          · rintro ⟨entry, hentry, hids⟩
            cases hevent : linkEvent env entry with
            | none => exact .inr ⟨entry, hentry, hids, hevent⟩
            | some e => exact .inl ⟨entry, hentry, by rw [hevent]; rfl, hids⟩
        · simp only [if_true, List.mem_append, hvalid, true_and, and_comm]

end LinkLedger

end Notifyr
