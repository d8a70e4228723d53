import Notifyr.Callback.SmsEvents

/-!
# Contact events, and the counting of events

`Add_Contact_Subs_Event` and `Add_Contact_Creation_Event` (`app/callback/event_stream.py`): a
batch of events is to be counted by location.

- `treatSubs`, `treatCreation`: the bodies of the loops; `addContactSubsEvent` and
  `addContactCreationEvent`: the handlers up to their upserts, with what the upserts are given.
- `ContactRight`: what an upsert should be given.
- `CountChannel`: the channels that are counted without a look at other batches, these two and the
  messages; `countsRight_iff`: when a batch of one of them is counted as it should be.
-/

namespace Notifyr

open Theory

/-- The key of an entry whose country has been read. -/
def contactKey (country : Option String) (val : StreamVal) : Py Location :=
  if country ≠ none then do
    let state ← getItem val "state"
    let region ← getItem val "region"
    return (country, state, region)
  else .ok nowhere

/-- The dictionary and the set of a handler that the entries fill. -/
structure ContactWorld (ν : Type) where
  analytics : Dict Location ν := .empty
  validEntries : List String := []

/-- `valid_entries.add(ids)`. -/
def addValid {ν : Type} (ids : String) : EffectM (ContactWorld ν) Unit :=
  modify fun w => { w with validEntries := ids :: w.validEntries }

/-- What an upsert is given, the entries that have been marked invalid, and the ids the handler
returns if the upsert commits. -/
structure ContactWrite (ν : Type) where
  analytics : Dict Location ν
  invalid : List StreamEntry
  ids : List String

/-- A handler up to its upsert. -/
def addContactEvent {ν : Type} (treat : StreamEntry → EffectM (ContactWorld ν) Unit)
    (entries : List StreamEntry) : ContactWrite ν :=
  let (w, invalid) := treatEach treat {} entries
  { analytics := w.analytics, invalid, ids := (w.validEntries ++ invalid.map (·.ids)).dedup }

/-! ## Subscriptions -/

/-- A computation of `Add_Contact_Subs_Event`. -/
abbrev SubsM := EffectM (ContactWorld (Dict String ℤ))

/-- `analytics[key][name] = 0`. -/
def zeroSubs (key : Location) (name : String) : SubsM Unit := do
  let counters ← EffectM.lift (getItem (← get).analytics key)
  modify fun w => { w with analytics := w.analytics.set key (counters.set name 0) }

/-- `analytics[key] += n`: a dictionary and something else. -/
def addSubs (key : Location) : SubsM Unit := do
  let _ ← EffectM.lift (getItem (← get).analytics key)
  throw .typeError

/-- The body of the `try` of `Add_Contact_Subs_Event`. -/
def treatSubs (entry : StreamEntry) : SubsM Unit := do
  let val := emptyStrToNone entry.val
  let key ← EffectM.lift (contactKey (val.get? "country").join val)
  if key ∉ (← get).analytics.keys then
    zeroSubs key "sub"
    zeroSubs key "unsub"
  addSubs key
  addSubs key
  addValid entry.ids

/-- `Add_Contact_Subs_Event`. -/
def addContactSubsEvent (entries : List StreamEntry) : ContactWrite (Dict String ℤ) :=
  addContactEvent treatSubs entries

/-! ## Creations -/

/-- A computation of `Add_Contact_Creation_Event`. -/
abbrev CreationM := EffectM (ContactWorld ℤ)

/-- `analytics`. -/
def creationCounters : Counters (ContactWorld ℤ) Location :=
  ⟨(·.analytics), fun w d => { w with analytics := d }, fun _ _ => rfl, fun _ _ _ => rfl⟩

/-- The body of the `try` of `Add_Contact_Creation_Event`. -/
def treatCreation (entry : StreamEntry) : CreationM Unit := do
  let val := emptyStrToNone entry.val
  let country ← EffectM.lift (getItem val "country")
  let key ← EffectM.lift (contactKey country val)
  countAt creationCounters key
  addValid entry.ids

/-- `Add_Contact_Creation_Event`. -/
def addContactCreationEvent (entries : List StreamEntry) : ContactWrite ℤ :=
  addContactEvent treatCreation entries

/-! ## What is counted -/

/-- A valid event, with the columns of its location that count it. -/
structure ContactEvent where
  location : Location
  correction : Bool
  columns : List String

/-- The sign of an event. -/
def ContactEvent.factor (e : ContactEvent) : ℤ := if e.correction then -1 else 1

/-- An entry is a correction. -/
def isCorrection (val : StreamVal) : Bool := (val.get? "correction").join.isSome

/-- The event of an entry with a location, or without a country. -/
def subsEvent (entry : StreamEntry) : Option ContactEvent := do
  let val := emptyStrToNone entry.val
  let location ← (contactKey (val.get? "country").join val).toOption
  let sub := if (val.get? "subscription").join.isSome then ["subscriptions_count"] else []
  let unsub := if (val.get? "unsubscription").join.isSome then ["unsubscriptions_count"] else []
  some { location, correction := isCorrection val, columns := sub ++ unsub }

/-- The event of an entry with a location, or whose country is empty. -/
def creationEvent (entry : StreamEntry) : Option ContactEvent := do
  let val := emptyStrToNone entry.val
  let country ← val.get? "country"
  let location ← (contactKey country val).toOption
  some { location, correction := isCorrection val, columns := ["contacts_created_count"] }

/-- What an upsert should be given: `handed` is what it adds to each column of a location,
`invalid` are the entries that have been marked. -/
structure ContactRight (event : StreamEntry → Option ContactEvent) (entries : List StreamEntry)
    (handed : Location → String → ℤ) (invalid : List StreamEntry) : Prop where
  counted : ∀ location column, handed location column =
    signedSum ContactEvent.factor (fun e => e.location = location ∧ column ∈ e.columns)
      (entries.filterMap event)
  kept : ∀ entry ∈ entries, (event entry).isSome → entry ∉ invalid

/-- The key that `bulk_upsert_contact_analytics` reads for a column. -/
def subsField (column : String) : Option String :=
  if column = "subscriptions_count" then some "subscriptions"
  else if column = "unsubscriptions_count" then some "unsubscriptions"
  else none

/-- What `bulk_upsert_contact_analytics` adds to a column of a location. -/
def handedSubs (analytics : Dict Location (Dict String ℤ)) (location : Location)
    (column : String) : ℤ :=
  ((analytics.get? location).bind fun counters =>
    (subsField column).bind fun field => counters.get? field).getD 0

/-- What `bulk_upsert_contact_creation_analytics` adds to a column of a location. -/
def handedCreations (analytics : Dict Location ℤ) (location : Location) (column : String) : ℤ :=
  if column = "contacts_created_count" then analytics.count location else 0

/-! ## The channels -/

/-- A channel, with what its handler depends on beside the batch. -/
inductive CountChannel (υ : Type)
  | sms (env : SmsEnv υ) (rows : List υ)
  | subscription
  | creation

variable {υ : Type} [DecidableEq υ]

/-- A batch is counted as it should be. -/
def CountChannel.Right (entries : List StreamEntry) : CountChannel υ → Prop
  | sms env rows => ∃ w, addTwilioSmsEvent env rows entries = .ok w ∧ SmsRight env entries w
  | subscription =>
    let w := addContactSubsEvent entries
    ContactRight subsEvent entries (handedSubs w.analytics) w.invalid
  | creation =>
    let w := addContactCreationEvent entries
    ContactRight creationEvent entries (handedCreations w.analytics) w.invalid

/-- When it is: no subscription is counted, and no correction of a creation. -/
def CountChannel.Meets (entries : List StreamEntry) : CountChannel υ → Prop
  | sms env rows => SmsMeets env rows entries
  | subscription => ∀ entry ∈ entries, subsEvent entry = none
  | creation => ∀ entry ∈ entries, ∀ e, creationEvent entry = some e → e.correction = false

/-! ## Subscriptions are not counted -/

/-- A location that is not there is subscripted before it is set. -/
theorem treatSubs_run {w : ContactWorld (Dict String ℤ)} (h : w.analytics = .empty)
    (entry : StreamEntry) :
    ∃ r : Py Unit, (treatSubs entry).run w = (r, w) ∧ r.isOk = false := by
  unfold treatSubs
  dsimp only
  rw [EffectM.run_bind_lift]
  cases contactKey ((emptyStrToNone entry.val).get? "country").join (emptyStrToNone entry.val) with
  | error e => exact ⟨.error e, rfl, rfl⟩
  | ok key =>
    have hnew : key ∉ w.analytics.keys := by
      rw [h]
      exact List.not_mem_nil
    have hzero : (zeroSubs key "sub").run w = (.error .keyError, w) := by
      unfold zeroSubs
      rw [EffectM.run_bind_get, EffectM.run_bind_lift, h]
      rfl
    refine ⟨.error .keyError, ?_, rfl⟩
    dsimp only
    rw [EffectM.run_bind_get, if_pos hnew]
    exact EffectM.run_bind_error hzero

theorem addContactSubsEvent_eq (entries : List StreamEntry) :
    (addContactSubsEvent entries).analytics = .empty ∧
      (addContactSubsEvent entries).invalid = entries := by
  have hrun : treatEach treatSubs {} entries =
      (entries.foldl (fun w _ => w) {}, entries.filter fun _ => !false) :=
    treatEach_eq (fun _ => false) (fun w => w.analytics = .empty) (fun _ _ h => h)
      (fun _ entry h => treatSubs_run h entry) rfl entries
  have hfoldl : ∀ w : ContactWorld (Dict String ℤ), entries.foldl (fun w _ => w) w = w :=
    fun _ => List.foldl_fixed entries
  unfold addContactSubsEvent addContactEvent
  rw [hrun, hfoldl]
  exact ⟨rfl, List.filter_true entries⟩

theorem subsRight_iff (entries : List StreamEntry) :
    ContactRight subsEvent entries (handedSubs (addContactSubsEvent entries).analytics)
        (addContactSubsEvent entries).invalid ↔
      ∀ entry ∈ entries, subsEvent entry = none := by
  obtain ⟨hanalytics, hinvalid⟩ := addContactSubsEvent_eq entries
  rw [hanalytics, hinvalid]
  constructor
  · intro h entry hentry
    by_contra hvalid
    exact h.kept entry hentry (Option.isSome_iff_ne_none.mpr hvalid) hentry
  · intro h
    have hnil : entries.filterMap subsEvent = [] := List.filterMap_eq_nil_iff.mpr h
    refine ⟨fun location column => ?_, fun entry hentry hvalid => ?_⟩
    · rw [hnil]
      rfl
    · rw [h entry hentry] at hvalid
      cases hvalid

/-! ## Creations are counted without their signs -/

/-- What an entry leaves. -/
def afterCreation (w : ContactWorld ℤ) (entry : StreamEntry) : ContactWorld ℤ :=
  match creationEvent entry with
  | none => w
  | some e =>
    { analytics := (w.analytics.start e.location).bump e.location 1
      validEntries := entry.ids :: w.validEntries }

theorem treatCreation_run (w : ContactWorld ℤ) (entry : StreamEntry) :
    ∃ r : Py Unit, (treatCreation entry).run w = (r, afterCreation w entry) ∧
      r.isOk = (creationEvent entry).isSome := by
  unfold treatCreation afterCreation creationEvent
  dsimp only
  rw [EffectM.run_bind_lift]
  unfold getItem
  cases (emptyStrToNone entry.val).get? "country" with
  | none => exact ⟨.error .keyError, rfl, rfl⟩
  | some country =>
    dsimp only [Option.bind_eq_bind, Option.bind_some]
    rw [EffectM.run_bind_lift]
    cases contactKey country (emptyStrToNone entry.val) with
    | error e => exact ⟨.error e, rfl, rfl⟩
    | ok key =>
      dsimp only
      rw [EffectM.run_bind, countAt_run]
      exact ⟨.ok (), rfl, rfl⟩

theorem count_afterCreation (w : ContactWorld ℤ) (entry : StreamEntry) (location : Location) :
    (afterCreation w entry).analytics.count location = w.analytics.count location +
      signedSum (fun _ => 1) (fun e => e.location = location) (creationEvent entry).toList := by
  unfold afterCreation
  cases creationEvent entry with
  | none => exact (add_zero _).symm
  | some e =>
    dsimp only
    rw [Dict.count_bump, Dict.count_start, Option.toList_some, signedSum_singleton]
    simp only [decide_eq_true_eq]

/-- After a batch each location has its events, whether corrections or not. -/
theorem count_foldl_afterCreation (w : ContactWorld ℤ) (entries : List StreamEntry)
    (location : Location) :
    (entries.foldl afterCreation w).analytics.count location = w.analytics.count location +
      signedSum (fun _ => 1) (fun e => e.location = location)
        (entries.filterMap creationEvent) := by
  induction entries generalizing w with
  | nil => exact (add_zero _).symm
  | cons entry entries ih =>
    rw [List.foldl_cons, ih, count_afterCreation, List.filterMap_cons]
    cases creationEvent entry with
    | none => rw [Option.toList_none, signedSum_nil, add_zero]
    | some e => rw [Option.toList_some, signedSum_singleton, signedSum_cons, add_assoc]

theorem addContactCreationEvent_eq (entries : List StreamEntry) :
    (∀ location, (addContactCreationEvent entries).analytics.count location =
      signedSum (fun _ => 1) (fun e => e.location = location)
        (entries.filterMap creationEvent)) ∧
      (addContactCreationEvent entries).invalid =
        entries.filter fun entry => !(creationEvent entry).isSome := by
  have hrun : treatEach treatCreation {} entries = (entries.foldl afterCreation {},
      entries.filter fun entry => !(creationEvent entry).isSome) :=
    treatEach_eq _ (fun _ => True) (fun _ _ _ => trivial)
      (fun w entry _ => treatCreation_run w entry) trivial entries
  unfold addContactCreationEvent addContactEvent
  rw [hrun]
  refine ⟨fun location => ?_, rfl⟩
  rw [count_foldl_afterCreation]
  exact zero_add _

theorem creationEvent_columns {entry : StreamEntry} {e : ContactEvent}
    (h : creationEvent entry = some e) : e.columns = ["contacts_created_count"] := by
  unfold creationEvent at h
  simp only [Option.bind_eq_bind, Option.bind_eq_some_iff] at h
  obtain ⟨_, -, _, -, h⟩ := h
  cases h
  rfl

theorem factor_le_one (e : ContactEvent) : e.factor ≤ 1 := by
  unfold ContactEvent.factor
  split
  · decide
  · exact le_rfl

theorem creationRight_iff (entries : List StreamEntry) :
    ContactRight creationEvent entries
        (handedCreations (addContactCreationEvent entries).analytics)
        (addContactCreationEvent entries).invalid ↔
      ∀ entry ∈ entries, ∀ e, creationEvent entry = some e → e.correction = false := by
  obtain ⟨hcount, hinvalid⟩ := addContactCreationEvent_eq entries
  have hcolumns : ∀ e ∈ entries.filterMap creationEvent,
      e.columns = ["contacts_created_count"] := by
    intro e he
    obtain ⟨entry, -, hevent⟩ := List.mem_filterMap.mp he
    exact creationEvent_columns hevent
  constructor
  · intro h entry hentry e he
    by_contra hcorrection
    have hmem : e ∈ entries.filterMap creationEvent := List.mem_filterMap.mpr ⟨entry, hentry, he⟩
    have hlt : signedSum ContactEvent.factor (fun e' => e'.location = e.location)
          (entries.filterMap creationEvent) <
        signedSum (fun _ => 1) (fun e' => e'.location = e.location)
          (entries.filterMap creationEvent) := by
      refine signedSum_lt _ factor_le_one ⟨e, hmem, decide_eq_true rfl, ?_⟩
      unfold ContactEvent.factor
      rw [if_pos (Bool.not_eq_false _ ▸ hcorrection)]
      decide
    have hcounted := h.counted e.location "contacts_created_count"
    unfold handedCreations at hcounted
    rw [if_pos rfl, hcount] at hcounted
    rw [hcounted, signedSum_congr (fun e' he' => ?_) fun _ _ => rfl] at hlt
    · exact lt_irrefl _ hlt
    · simp [hcolumns e' he']
  · intro h
    refine ⟨fun location column => ?_, fun entry hentry hvalid hmem => ?_⟩
    · unfold handedCreations
      split
      · rename_i hcolumn
        subst hcolumn
        rw [hcount]
        refine signedSum_congr (fun e he => ?_) fun e he => ?_
        · simp [hcolumns e he]
        · obtain ⟨entry, hentry, hevent⟩ := List.mem_filterMap.mp he
          unfold ContactEvent.factor
          rw [h entry hentry e hevent]
          rfl
      · rename_i hcolumn
        unfold signedSum
        rw [List.filter_eq_nil_iff.mpr fun e he hcounts => ?_]
        · rfl
        · rw [hcolumns e he, decide_eq_true_eq, List.mem_singleton] at hcounts
          exact hcolumn hcounts.2
    · rw [hinvalid, List.mem_filter, hvalid] at hmem
      exact Bool.false_ne_true hmem.2

/-- **The exact condition.** A batch of one of the channels is counted as it should be if and only
if it meets the condition of its channel. -/
theorem countsRight_iff (channel : CountChannel υ) (entries : List StreamEntry) :
    channel.Right entries ↔ channel.Meets entries := by
  cases channel with
  | sms env rows => exact smsRight_iff_meets env rows entries
  | subscription => exact subsRight_iff entries
  | creation => exact creationRight_iff entries

/-- A `SENT` event of a message with all its fields. -/
def sentSms : StreamEntry :=
  ⟨"1-0", .ofEntries [("event_id", "e"), ("sms_id", "m"), ("direction", "O"),
    ("current_event", "SENT"), ("correction", ""), ("price", ""), ("price_unit", "")]⟩

/-- UUIDs are texts, no text is a number, and all other fields are accepted. -/
def plainSms : SmsEnv String := ⟨.plain, fun _ => none, fun _ => true⟩

/-- The event is marked invalid. -/
theorem not_countsRight : ¬ (CountChannel.sms plainSms []).Right [sentSms] := by
  rintro ⟨w, hw, hright⟩
  obtain ⟨-, -, hinvalid⟩ := of_addTwilioSmsEvent_ok plainSms hw
  refine hright.kept sentSms List.mem_cons_self (by decide +kernel) ?_
  have hloud : quietSms plainSms sentSms = false := by decide +kernel
  rw [hinvalid, List.filter_cons, hloud]
  exact List.mem_cons_self

end Notifyr
