import Mathlib
import Notifyr.Callback.Stream
import Notifyr.Theory.Batch

/-!
# SMS events

`Add_Twilio_Sms_Event` (`app/callback/event_stream.py`): a batch of events of any messages is to
be counted by direction, with the price of each message.

- `SmsEnv`: the texts of UUIDs and numbers, and what the ORM class accepts.
- `treatSms`: the body of the loop; `addTwilioSmsEvent`: the handler up to its transaction, with
  what the transaction is given.
- `SmsRight`: what the transaction should be given; `SmsMeets`: when it is.
- `treatSms_run`: what one entry does; `smsRight_iff_meets`: the exact condition.
-/

namespace Notifyr

open Theory

attribute [local instance] lawfulBEq_option

/-- `SMSStatusEnum`. -/
inductive SmsStatus
  | queued
  | sent
  | delivered
  | failed
  | received
  | bounce
  | rejected
  deriving DecidableEq

/-- Its value. -/
def SmsStatus.value : SmsStatus → String
  | queued => "QUEUED"
  | sent => "SENT"
  | delivered => "DELIVERED"
  | failed => "FAILED"
  | received => "RECEIVED"
  | bounce => "BOUNCE"
  | rejected => "REJECTED"

/-- `SMSStatusEnum(value)`. -/
def SmsStatus.ofValue (value : String) : Option SmsStatus :=
  [queued, sent, delivered, failed, received, bounce, rejected].find? fun status =>
    status.value = value

/-- The counters, by direction and name. -/
abbrev SmsCounters := Dict (String × String) ℤ

/-- `analytics` before the first entry. -/
def smsAnalytics : SmsCounters :=
  .ofEntries <| ["I", "O"].flatMap fun direction =>
    ["received", "sent", "delivered", "failed", "bounce", "price", "rejected"].map fun name =>
      ((direction, name), 0)

/-- The texts of UUIDs and of numbers, and whether the ORM class accepts the fields of an entry
other than `sms_id`, `direction` and `current_event`. -/
structure SmsEnv (υ : Type) where
  uuid : UuidText υ
  float : String → Option ℚ
  accepts : StreamVal → Bool

variable {υ : Type}

/-! ## The body of the loop -/

/-- `SMSEventORM(**val)`. An entry that lacks a field makes an event without it. -/
def smsEventORM (env : SmsEnv υ) (val : StreamVal) : Py StreamVal :=
  if fieldOk val "sms_id" (fun value => (env.uuid.parse value).isSome) ∧
      fieldOk val "direction" (fun value => value ∈ ["I", "O"]) ∧
      fieldOk val "current_event" (fun value => (SmsStatus.ofValue value).isSome) ∧
      env.accepts val then .ok val
  else .error .valueError

/-- The row of an entry: its fields less three of them. -/
def smsRow (env : SmsEnv υ) (val : StreamVal) : Py StreamVal := do
  let copy ← delItem val "correction"
  let copy ← delItem copy "price"
  let copy ← delItem copy "price_unit"
  smsEventORM env copy

/-- The dictionaries and sets of the handler that the entries fill. -/
structure SmsWorld where
  obs : List StreamVal := []
  validEntries : List String := []
  analytics : SmsCounters := smsAnalytics
  prices : Dict (Option String) (Dict String (Option String)) := .empty
  smsTrackingStatus : Dict (Option String) (Option String) := .empty

/-- A computation on them. -/
abbrev SmsM := EffectM SmsWorld

/-- `analytics[val[analytics]][name] += factor`: a dictionary is not a key. -/
def bumpSms (_name : String) (_factor : ℤ) : SmsM Unit := throw .typeError

/-- `prices[sms_id][field] = value`. -/
def setPrice (smsId : Option String) (field : String) (value : Option String) : SmsM Unit := do
  let price ← EffectM.lift (getItem (← get).prices smsId)
  modify fun w => { w with prices := w.prices.set smsId (price.set field value) }

/-- `analytics[val['direction']]['price'] += val['price']`: a number and a text. -/
def bumpPrice (val : StreamVal) : SmsM Unit := do
  match ← EffectM.lift (getItem val "direction") with
  | some direction =>
    let _ ← EffectM.lift (getItem (← get).analytics (direction, "price"))
    throw .typeError
  | none => throw .keyError

/-- The `match val['current_event']`. -/
def countSms (val : StreamVal) : SmsM Unit := do
  let factor : ℤ := if (val.get? "correction").join.isSome then 1 else -1
  let current ← EffectM.lift (getItem val "current_event")
  match current.bind SmsStatus.ofValue with
  | some .received => bumpSms "received" factor
  | some .rejected => bumpSms "received" factor
  | some .sent => bumpSms "sent" factor
  | some .failed => bumpSms "failed" factor
  | some .bounce => bumpSms "bounce" factor
  | some .delivered => bumpSms "delivered" factor
  | some .queued | none => return ()

/-- The price of a message that has none yet. -/
def priceSms (val : StreamVal) (smsId : Option String) : SmsM Unit := do
  if smsId ∉ (← get).prices.keys then
    let price ← EffectM.lift (getItem val "price")
    if price ≠ none then
      setPrice smsId "price" price
      bumpPrice val
    let unit ← EffectM.lift (getItem val "price_unit")
    if unit ≠ none then
      setPrice smsId "price_unit" unit

/-- The body of the `try` after the row has been made. -/
def foldSms (val : StreamVal) : SmsM Unit := do
  countSms val
  let smsId ← EffectM.lift (getItem val "sms_id")
  priceSms val smsId
  let current ← EffectM.lift (getItem val "current_event")
  modify fun w => { w with smsTrackingStatus := w.smsTrackingStatus.set smsId current }

/-- The body of the `try`, on an entry. -/
def treatSms (env : SmsEnv υ) (entry : StreamEntry) : SmsM Unit := do
  let val := emptyStrToNone entry.val
  let event ← EffectM.lift (smsRow env val)
  modify fun w =>
    { w with obs := w.obs ++ [event], validEntries := entry.ids :: w.validEntries }
  foldSms val

/-! ## The handler -/

/-- What the transaction is given, the entries that have been marked invalid, and the ids the
handler returns if it commits. -/
structure SmsWrite (υ : Type) where
  smsTracking : List (υ × Option String)
  obs : List StreamVal
  analytics : SmsCounters
  invalid : List StreamEntry
  ids : List String

/-- `for st in sms_tracking`: the new status of a message. No message is found in `prices`. -/
def trackSms (env : SmsEnv υ) (w : SmsWorld) (row : υ) : Py (υ × Option String) := do
  let status ← getItem w.smsTrackingStatus (some (env.uuid.text row))
  if uuidIn row (w.prices.keys.filterMap id) then .error .keyError
  else return (row, status)

variable [DecidableEq υ]

/-- `SMSTrackingORM.filter(sms_id__in=sms_tracking_status.keys())`. -/
def trackedSms (env : SmsEnv υ) (w : SmsWorld) (rows : List υ) : List υ :=
  rows.filter fun row => some row ∈ w.smsTrackingStatus.keys.map (·.bind env.uuid.parse)

/-- `Add_Twilio_Sms_Event` up to its transaction; `rows` are the tracked messages of the
database. -/
def addTwilioSmsEvent (env : SmsEnv υ) (rows : List υ) (entries : List StreamEntry) :
    Py (SmsWrite υ) := do
  let (w, invalid) := treatEach (treatSms env) {} entries
  let smsTracking ← (trackedSms env w rows).mapM (trackSms env w)
  return {
    smsTracking
    obs := w.obs
    analytics := w.analytics
    invalid
    ids := (w.validEntries ++ invalid.map (·.ids)).dedup }

/-! ## What is counted -/

/-- The counter of an event. -/
def SmsStatus.counter : SmsStatus → Option String
  | received => some "received"
  | sent => some "sent"
  | delivered => some "delivered"
  | failed => some "failed"
  | bounce => some "bounce"
  | rejected => some "rejected"
  | queued => none

/-- A valid event of a message: `text` is how the entry spells its UUID. -/
structure SmsEvent (υ : Type) where
  message : υ
  text : String
  direction : String
  status : SmsStatus
  price : Option ℚ
  correction : Bool
  row : StreamVal

omit [DecidableEq υ] in
/-- The sign of an event. -/
def SmsEvent.factor (e : SmsEvent υ) : ℤ := if e.correction then -1 else 1

/-- The price of an entry, if any. -/
def smsPrice (env : SmsEnv υ) (val : StreamVal) : Option (Option ℚ) :=
  match (val.get? "price").join with
  | none => some none
  | some number => (env.float number).map some

/-- The fields of an entry less the three the handler deletes. -/
def smsFields (val : StreamVal) : StreamVal :=
  ((val.erase "correction").erase "price").erase "price_unit"

/-- The event of an entry whose row the class accepts, with a message, a direction and a status; a
price is a number. -/
def smsEvent (env : SmsEnv υ) (entry : StreamEntry) : Option (SmsEvent υ) := do
  let val := emptyStrToNone entry.val
  let text ← (← val.get? "sms_id")
  let message ← env.uuid.parse text
  let direction ← (← val.get? "direction")
  let status ← (← val.get? "current_event").bind SmsStatus.ofValue
  let price ← smsPrice env val
  let row := smsFields val
  let correction := (val.get? "correction").join.isSome
  if direction ∈ ["I", "O"] ∧ env.accepts row then
    some { message, text, direction, status, price, correction, row }
  else none

/-- The valid events of a batch. -/
def smsEvents (env : SmsEnv υ) (entries : List StreamEntry) : List (SmsEvent υ) :=
  entries.filterMap (smsEvent env)

/-- The first event of its message that has a price. -/
def firstPrice (before : List (SmsEvent υ)) (e : SmsEvent υ) : Bool :=
  e.price.isSome && !before.any fun e' => e'.price.isSome && e'.message = e.message

/-- What the messages of a direction have cost: the price of each counts once. -/
def pricesOf (es : List (SmsEvent υ)) (direction : String) : ℚ :=
  ((keepAlong firstPrice es).filter fun e => e.direction = direction).map (·.price.getD 0) |>.sum

/-- What a batch owes. -/
structure SmsRight (env : SmsEnv υ) (entries : List StreamEntry) (w : SmsWrite υ) : Prop where
  counted : ∀ direction name, name ≠ "price" → w.analytics.count (direction, name) =
    signedSum SmsEvent.factor (fun e => e.direction = direction ∧ e.status.counter = some name)
      (smsEvents env entries)
  priced : ∀ direction,
    (w.analytics.count (direction, "price") : ℚ) = pricesOf (smsEvents env entries) direction
  kept : ∀ entry ∈ entries, (smsEvent env entry).isSome → entry ∉ w.invalid
  inserted : w.obs.Sublist ((smsEvents env entries).map (·.row))

/-- Nothing is to be counted on a `QUEUED` event of a message without a price and a unit. -/
def nothingToCount (val : StreamVal) : Bool :=
  (val.get? "sms_id").isSome &&
    (val.get? "current_event").join.bind SmsStatus.ofValue = some .queued &&
    ((val.get? "price").join.isNone && (val.get? "price_unit").join.isNone)

/-- An entry of such an event of which a row can be made: it has the three fields the handler
deletes, too. -/
def quietSms (env : SmsEnv υ) (entry : StreamEntry) : Bool :=
  let val := emptyStrToNone entry.val
  (smsRow env val).isOk && nothingToCount val

/-- When a batch is treated as it should be: each entry that is a valid event, or that makes a
row, is a valid event on which nothing is to be counted, and no tracked message is named by
another spelling of its UUID only. -/
structure SmsMeets (env : SmsEnv υ) (rows : List υ) (entries : List StreamEntry) : Prop where
  quiet : ∀ entry ∈ entries,
    (smsEvent env entry).isSome ∨ (smsRow env (emptyStrToNone entry.val)).isOk →
      (smsEvent env entry).isSome ∧ quietSms env entry
  spelled : ∀ row ∈ rows, (∃ e ∈ smsEvents env entries, e.message = row) →
    ∃ e ∈ smsEvents env entries, e.text = env.uuid.text row

/-! ## What one entry does -/

section Entry

variable (env : SmsEnv υ) (val : StreamVal)

theorem get?_smsFields {k : String} (h : k ∉ ["correction", "price", "price_unit"]) :
    (smsFields val).get? k = val.get? k := by
  simp only [List.mem_cons, List.not_mem_nil, or_false, not_or] at h
  obtain ⟨hcorrection, hprice, hunit⟩ := h
  unfold smsFields
  rw [Dict.get?_erase_ne _ hunit, Dict.get?_erase_ne _ hprice, Dict.get?_erase_ne _ hcorrection]

omit [DecidableEq υ] in
/-- A row is made of the fields of an entry that has the three. -/
theorem smsRow_eq_ok_iff (row : StreamVal) :
    smsRow env val = .ok row ↔
      (∀ k ∈ ["correction", "price", "price_unit"], k ∈ val.keys) ∧
        smsEventORM env (smsFields val) = .ok row := by
  have hprice : "price" ∈ (val.erase "correction").keys ↔ "price" ∈ val.keys :=
    Dict.mem_keys_erase _ (by decide)
  have hunit : "price_unit" ∈ ((val.erase "correction").erase "price").keys ↔
      "price_unit" ∈ val.keys := by
    rw [Dict.mem_keys_erase _ (by decide), Dict.mem_keys_erase _ (by decide)]
  simp only [List.mem_cons, List.not_mem_nil, or_false, forall_eq_or_imp, forall_eq]
  unfold smsRow delItem
  by_cases h₁ : "correction" ∈ val.keys
  · by_cases h₂ : "price" ∈ val.keys
    · by_cases h₃ : "price_unit" ∈ val.keys
      · rw [if_pos h₁]
        dsimp only [bind, Except.bind]
        rw [if_pos (hprice.mpr h₂)]
        dsimp only
        rw [if_pos (hunit.mpr h₃)]
        exact (and_iff_right ⟨h₁, h₂, h₃⟩).symm
      · rw [if_pos h₁]
        dsimp only [bind, Except.bind]
        rw [if_pos (hprice.mpr h₂)]
        dsimp only
        rw [if_neg (hunit.not.mpr h₃)]
        exact iff_of_false nofun fun h => h₃ h.1.2.2
    · rw [if_pos h₁]
      dsimp only [bind, Except.bind]
      rw [if_neg (hprice.not.mpr h₂)]
      exact iff_of_false nofun fun h => h₂ h.1.2.1
  · rw [if_neg h₁]
    exact iff_of_false nofun fun h => h₁ h.1.1

variable {val} {w : SmsWorld}

/-- Only a `QUEUED` event gets past the counters. -/
theorem countSms_run
    (h : fieldOk val "current_event" fun value => (SmsStatus.ofValue value).isSome) :
    ∃ r : Py Unit, (countSms val).run w = (r, w) ∧
      r.isOk = decide ((val.get? "current_event").join.bind SmsStatus.ofValue = some .queued) := by
  unfold countSms
  dsimp only
  rw [EffectM.run_bind_lift]
  unfold fieldOk at h
  unfold getItem
  rcases hcurrent : val.get? "current_event" with _ | _ | value
  · exact ⟨.error .keyError, rfl, rfl⟩
  · rw [hcurrent] at h
    cases h
  · rw [hcurrent] at h
    obtain ⟨status, hstatus⟩ := Option.isSome_iff_exists.mp h
    have hjoin : (some (some value)).join.bind SmsStatus.ofValue = some status := hstatus
    dsimp only
    rw [hjoin, show (some value).bind SmsStatus.ofValue = some status from hstatus]
    cases status with
    | queued => exact ⟨.ok (), rfl, rfl⟩
    | _ => exact ⟨.error .typeError, rfl, rfl⟩

/-- A price is put into an entry of `prices`, and there is none. -/
theorem setPrice_run (h : w.prices = .empty) (smsId : Option String) (field : String)
    (value : Option String) : (setPrice smsId field value).run w = (.error .keyError, w) := by
  unfold setPrice
  rw [EffectM.run_bind_get, EffectM.run_bind_lift, h]
  rfl

theorem priceSms_run (hprices : w.prices = .empty)
    (hprice : "price" ∈ val.keys) (hunit : "price_unit" ∈ val.keys) (smsId : Option String) :
    ∃ r : Py Unit, (priceSms val smsId).run w = (r, w) ∧
      r.isOk = ((val.get? "price").join.isNone && (val.get? "price_unit").join.isNone) := by
  obtain ⟨price, hprice⟩ := (Dict.mem_keys_iff val "price").mp hprice
  obtain ⟨unit, hunit⟩ := (Dict.mem_keys_iff val "price_unit").mp hunit
  have hnew : smsId ∉ w.prices.keys := by
    rw [hprices]
    exact List.not_mem_nil
  unfold priceSms getItem
  rw [EffectM.run_bind_get, if_pos hnew, hprice, hunit, EffectM.run_bind_lift]
  cases price with
  | some price =>
    refine ⟨.error .keyError, ?_, rfl⟩
    exact EffectM.run_bind_error (setPrice_run hprices smsId "price" (some price))
  | none =>
    cases unit with
    | some unit =>
      exact ⟨.error .keyError, setPrice_run hprices smsId "price_unit" (some unit), rfl⟩
    | none => exact ⟨.ok (), rfl, rfl⟩

/-- The status of its message that an event leaves. -/
def setSmsStatus (w : SmsWorld) (val : StreamVal) : SmsWorld :=
  let status := w.smsTrackingStatus.set (val.get? "sms_id").join (val.get? "current_event").join
  { w with smsTrackingStatus := status }

/-- An event on which something is to be counted raises. -/
theorem foldSms_run (hprices : w.prices = .empty)
    (htaken : fieldOk val "current_event" fun value => (SmsStatus.ofValue value).isSome)
    (hprice : "price" ∈ val.keys) (hunit : "price_unit" ∈ val.keys) :
    ∃ r : Py Unit, r.isOk = nothingToCount val ∧
      (foldSms val).run w = (r, if nothingToCount val then setSmsStatus w val else w) := by
  unfold foldSms
  obtain ⟨r, hcount, hkind⟩ := countSms_run (w := w) htaken
  rw [EffectM.run_bind, hcount]
  unfold nothingToCount
  rw [← hkind]
  cases r with
  | error e => exact ⟨.error e, by rw [Except.isOk, Except.toBool, Bool.and_false]; rfl, by
      rw [Except.isOk, Except.toBool, Bool.and_false]; rfl⟩
  | ok u =>
    dsimp only
    rw [EffectM.run_bind_lift]
    unfold getItem
    cases hid : val.get? "sms_id" with
    | none => exact ⟨.error .keyError, rfl, rfl⟩
    | some smsId =>
      obtain ⟨r, hpriced, hok⟩ := priceSms_run hprices hprice hunit smsId
      dsimp only
      rw [EffectM.run_bind, hpriced, ← hok]
      cases r with
      | error e => exact ⟨.error e, rfl, rfl⟩
      | ok u =>
        dsimp only
        rw [EffectM.run_bind_lift]
        unfold setSmsStatus
        rw [hid]
        cases hcurrent : val.get? "current_event" with
        | none =>
          rw [hcurrent] at hkind
          cases hkind
        | some current => exact ⟨.ok (), rfl, rfl⟩

/-- What an entry leaves. -/
def afterSms (w : SmsWorld) (entry : StreamEntry) : SmsWorld :=
  let val := emptyStrToNone entry.val
  match smsRow env val with
  | .error _ => w
  | .ok row =>
    let w := { w with obs := w.obs ++ [row], validEntries := entry.ids :: w.validEntries }
    if nothingToCount val then setSmsStatus w val else w

omit [DecidableEq υ] in
/-- A row has been made of a known kind, if of any. -/
theorem fieldOk_of_smsRow {row : StreamVal} (h : smsRow env val = .ok row) :
    fieldOk val "current_event" fun value => (SmsStatus.ofValue value).isSome := by
  obtain ⟨-, h⟩ := (smsRow_eq_ok_iff env val row).mp h
  unfold smsEventORM at h
  split at h
  · rename_i htaken
    obtain ⟨-, -, htaken, -⟩ := htaken
    unfold fieldOk at htaken ⊢
    rw [get?_smsFields val (by decide)] at htaken
    exact htaken
  · cases h

omit [DecidableEq υ] in
/-- An entry leaves its row where one can be made of it, even if it is marked invalid then. -/
theorem treatSms_run (h : w.prices = .empty) (entry : StreamEntry) :
    ∃ r : Py Unit, (treatSms env entry).run w = (r, afterSms env w entry) ∧
      r.isOk = quietSms env entry := by
  unfold treatSms afterSms quietSms
  dsimp only
  rw [EffectM.run_bind_lift]
  cases hrow : smsRow env (emptyStrToNone entry.val) with
  | error e => exact ⟨.error e, rfl, rfl⟩
  | ok row =>
    obtain ⟨hkeys, -⟩ := (smsRow_eq_ok_iff env _ row).mp hrow
    dsimp only
    rw [EffectM.run_bind_modify]
    obtain ⟨r, hok, hr⟩ := foldSms_run (w := { w with
      obs := w.obs ++ [row], validEntries := entry.ids :: w.validEntries }) h
      (fieldOk_of_smsRow env hrow) (hkeys _ (by decide)) (hkeys _ (by decide))
    exact ⟨r, hr, hok⟩

omit [DecidableEq υ] in
/-- What a valid event has been read from. -/
theorem smsEvent_eq_some {entry : StreamEntry} {e : SmsEvent υ}
    (h : smsEvent env entry = some e) :
    (emptyStrToNone entry.val).get? "sms_id" = some (some e.text) ∧
      env.uuid.parse e.text = some e.message ∧
      ((emptyStrToNone entry.val).get? "current_event").join.bind SmsStatus.ofValue =
        some e.status ∧
      (((emptyStrToNone entry.val).get? "price").join = none → e.price = none) ∧
      e.row = smsFields (emptyStrToNone entry.val) := by
  unfold smsEvent at h
  simp only [Option.bind_eq_bind, Option.bind_eq_some_iff] at h
  obtain ⟨_, hid, text, rfl, message, hmessage, _, -, direction, -, _, hcurrent, status, hstatus,
    price, hprice, h⟩ := h
  split at h
  · cases h
    refine ⟨hid, hmessage, ?_, fun hnone => ?_, rfl⟩
    · rw [hcurrent]
      exact Option.bind_eq_some_iff.mpr hstatus
    · unfold smsPrice at hprice
      rw [hnone] at hprice
      exact (Option.some.inj hprice).symm
  · cases h

end Entry

/-! ## What a batch does -/

section Batch

variable (env : SmsEnv υ)

theorem smsAnalytics_count (k : String × String) : smsAnalytics.count k = 0 := by
  unfold Dict.count
  cases h : smsAnalytics.get? k with
  | none => rfl
  | some n =>
    have hmem := Dict.mem_of_ofEntries ((Dict.mem_entries_iff _ _ _).mpr h)
    simp only [List.mem_flatMap, List.mem_map] at hmem
    obtain ⟨_, -, _, -, hentry⟩ := hmem
    cases hentry
    rfl

/-- What no entry changes. -/
def SmsWorld.Untouched (w : SmsWorld) : Prop := w.prices = .empty ∧ w.analytics = smsAnalytics

omit [DecidableEq υ] in
theorem untouched_afterSms {w : SmsWorld} (h : w.Untouched) (entry : StreamEntry) :
    (afterSms env w entry).Untouched := by
  unfold afterSms
  dsimp only
  split
  · exact h
  · split
    · exact h
    · exact h

omit [DecidableEq υ] in
theorem untouched_foldl {w : SmsWorld} (h : w.Untouched) (entries : List StreamEntry) :
    (entries.foldl (afterSms env) w).Untouched := by
  induction entries generalizing w with
  | nil => exact h
  | cons entry entries ih => exact ih (untouched_afterSms env h entry)

/-- The row of an entry, if one can be made. -/
def smsRow? (entry : StreamEntry) : Option StreamVal :=
  (smsRow env (emptyStrToNone entry.val)).toOption

omit [DecidableEq υ] in
theorem obs_afterSms (w : SmsWorld) (entry : StreamEntry) :
    (afterSms env w entry).obs = w.obs ++ (smsRow? env entry).toList := by
  unfold afterSms smsRow?
  dsimp only
  cases smsRow env (emptyStrToNone entry.val) with
  | error e => exact (List.append_nil _).symm
  | ok row =>
    dsimp only
    split
    · rfl
    · rfl

omit [DecidableEq υ] in
theorem obs_foldl (w : SmsWorld) (entries : List StreamEntry) :
    (entries.foldl (afterSms env) w).obs = w.obs ++ entries.filterMap (smsRow? env) := by
  induction entries generalizing w with
  | nil => exact (List.append_nil _).symm
  | cons entry entries ih =>
    rw [List.foldl_cons, ih, obs_afterSms, List.append_assoc, List.filterMap_cons]
    cases smsRow? env entry with
    | none => rfl
    | some row => rfl

omit [DecidableEq υ] in
theorem mem_keys_afterSms (w : SmsWorld) (entry : StreamEntry) (k : Option String) :
    k ∈ (afterSms env w entry).smsTrackingStatus.keys ↔
      k ∈ w.smsTrackingStatus.keys ∨
        (quietSms env entry ∧ ((emptyStrToNone entry.val).get? "sms_id").join = k) := by
  unfold afterSms quietSms
  dsimp only
  cases smsRow env (emptyStrToNone entry.val) with
  | error e => simp [Except.isOk, Except.toBool]
  | ok row =>
    dsimp only
    split
    · rename_i hquiet
      unfold setSmsStatus
      dsimp only
      rw [Dict.mem_keys_set, hquiet, or_comm, eq_comm]
      simp [Except.isOk, Except.toBool]
    · rename_i hquiet
      simp [hquiet]

omit [DecidableEq υ] in
theorem mem_keys_foldl (w : SmsWorld) (entries : List StreamEntry) (k : Option String) :
    k ∈ (entries.foldl (afterSms env) w).smsTrackingStatus.keys ↔
      k ∈ w.smsTrackingStatus.keys ∨ ∃ entry ∈ entries,
        quietSms env entry ∧ ((emptyStrToNone entry.val).get? "sms_id").join = k := by
  induction entries generalizing w with
  | nil => simp
  | cons entry entries ih =>
    rw [List.foldl_cons, ih, mem_keys_afterSms, List.exists_mem_cons_iff, or_assoc]

/-- The dictionaries after a batch. -/
def smsAfter (entries : List StreamEntry) : SmsWorld := entries.foldl (afterSms env) {}

omit [DecidableEq υ] in
/-- The messages that have a status after a batch. -/
theorem mem_keys_smsAfter (entries : List StreamEntry) (k : Option String) :
    k ∈ (smsAfter env entries).smsTrackingStatus.keys ↔ ∃ entry ∈ entries,
      quietSms env entry ∧ ((emptyStrToNone entry.val).get? "sms_id").join = k :=
  (mem_keys_foldl env {} entries k).trans (or_iff_right List.not_mem_nil)

omit [DecidableEq υ] in
theorem treatEach_treatSms (entries : List StreamEntry) :
    treatEach (treatSms env) {} entries =
      (smsAfter env entries, entries.filter fun entry => !quietSms env entry) :=
  treatEach_eq _ SmsWorld.Untouched (fun _ entry h => untouched_afterSms env h entry)
    (fun _ entry h => treatSms_run env h.1 entry)
    ⟨rfl, rfl⟩ entries

omit [DecidableEq υ] in
theorem exists_trackSms_iff (entries : List StreamEntry) (row : υ) :
    (∃ tracked, trackSms env (smsAfter env entries) row = .ok tracked) ↔
      ∃ entry ∈ entries, quietSms env entry ∧
        ((emptyStrToNone entry.val).get? "sms_id").join = some (env.uuid.text row) := by
  rw [← mem_keys_smsAfter, Dict.mem_keys_iff]
  unfold trackSms getItem
  cases (smsAfter env entries).smsTrackingStatus.get? (some (env.uuid.text row)) with
  | none => exact iff_of_false nofun nofun
  | some status => exact iff_of_true ⟨(row, status), rfl⟩ ⟨status, rfl⟩

theorem mem_trackedSms (entries : List StreamEntry) (rows : List υ) (row : υ) :
    row ∈ trackedSms env (smsAfter env entries) rows ↔ row ∈ rows ∧
      ∃ entry ∈ entries, quietSms env entry ∧
        ((emptyStrToNone entry.val).get? "sms_id").join.bind env.uuid.parse = some row := by
  unfold trackedSms
  rw [List.mem_filter, decide_eq_true_eq, List.mem_map]
  refine and_congr_right fun _ => ?_
  constructor
  · rintro ⟨k, hk, hparse⟩
    obtain ⟨entry, hentry, hquiet, rfl⟩ := (mem_keys_smsAfter env entries k).mp hk
    exact ⟨entry, hentry, hquiet, hparse⟩
  · rintro ⟨entry, hentry, hquiet, hparse⟩
    exact ⟨_, (mem_keys_smsAfter env entries _).mpr ⟨entry, hentry, hquiet, rfl⟩, hparse⟩

omit [DecidableEq υ] in
/-- No counter is changed, and each entry has left its row. -/
theorem smsAfter_eq (entries : List StreamEntry) :
    (smsAfter env entries).analytics = smsAnalytics ∧
      (smsAfter env entries).obs = entries.filterMap (smsRow? env) :=
  ⟨(untouched_foldl env (show SmsWorld.Untouched {} from ⟨rfl, rfl⟩) entries).2,
    obs_foldl env {} entries⟩

/-- A batch gets to its transaction unless a tracked message is named by another spelling of its
UUID only. -/
theorem exists_addTwilioSmsEvent_iff (rows : List υ) (entries : List StreamEntry) :
    (∃ w, addTwilioSmsEvent env rows entries = .ok w) ↔
      ∀ row ∈ rows, (∃ entry ∈ entries, quietSms env entry ∧
          ((emptyStrToNone entry.val).get? "sms_id").join.bind env.uuid.parse = some row) →
        ∃ entry ∈ entries, quietSms env entry ∧
          ((emptyStrToNone entry.val).get? "sms_id").join = some (env.uuid.text row) := by
  have htracked : (∃ tracked, (trackedSms env (smsAfter env entries) rows).mapM
        (trackSms env (smsAfter env entries)) = .ok tracked) ↔ _ := exists_mapM_ok_iff
  simp only [mem_trackedSms, and_imp, exists_trackSms_iff] at htracked
  rw [← htracked]
  unfold addTwilioSmsEvent
  rw [treatEach_treatSms]
  dsimp only
  constructor
  · rintro ⟨w, hw⟩
    obtain ⟨tracked, h, -⟩ := bind_ok hw
    exact ⟨tracked, h⟩
  · rintro ⟨tracked, h⟩
    rw [h]
    exact ⟨_, rfl⟩

/-- What the transaction is given. -/
theorem of_addTwilioSmsEvent_ok {rows : List υ} {entries : List StreamEntry} {w : SmsWrite υ}
    (h : addTwilioSmsEvent env rows entries = .ok w) :
    w.analytics = smsAnalytics ∧ w.obs = entries.filterMap (smsRow? env) ∧
      w.invalid = entries.filter fun entry => !quietSms env entry := by
  obtain ⟨hanalytics, hobs⟩ := smsAfter_eq env entries
  unfold addTwilioSmsEvent at h
  rw [treatEach_treatSms] at h
  dsimp only at h
  obtain ⟨tracked, -, h⟩ := bind_ok h
  cases h
  exact ⟨hanalytics, hobs, rfl⟩

end Batch

/-! ## The exact condition -/

section Exact

variable (env : SmsEnv υ)

omit [DecidableEq υ] in
theorem smsRow?_isSome (entry : StreamEntry) :
    (smsRow? env entry).isSome = (smsRow env (emptyStrToNone entry.val)).isOk := by
  unfold smsRow?
  cases smsRow env (emptyStrToNone entry.val) with
  | error e => rfl
  | ok row => rfl

omit [DecidableEq υ] in
/-- A valid event on which nothing is to be counted, and its row. -/
theorem quiet_smsEvent {entry : StreamEntry} {e : SmsEvent υ} (h : smsEvent env entry = some e)
    (hquiet : quietSms env entry) :
    e.status = .queued ∧ e.price = none ∧ smsRow? env entry = some e.row := by
  obtain ⟨-, -, hstatus, hprice, hrow⟩ := smsEvent_eq_some env h
  unfold quietSms nothingToCount at hquiet
  simp only [Bool.and_eq_true, decide_eq_true_eq, Option.isNone_iff_eq_none] at hquiet
  obtain ⟨hok, ⟨-, hqueued⟩, hnone, -⟩ := hquiet
  refine ⟨?_, hprice hnone, ?_⟩
  · rw [hqueued] at hstatus
    exact (Option.some.inj hstatus).symm
  · unfold smsRow?
    cases hmade : smsRow env (emptyStrToNone entry.val) with
    | error e =>
      rw [hmade] at hok
      cases hok
    | ok row =>
      obtain ⟨-, hmade⟩ := (smsRow_eq_ok_iff env _ row).mp hmade
      unfold smsEventORM at hmade
      split at hmade
      · cases hmade
        rw [hrow]
        rfl
      · cases hmade

omit [DecidableEq υ] in
theorem quietSms_row {entry : StreamEntry} (h : quietSms env entry) :
    (smsRow env (emptyStrToNone entry.val)).isOk :=
  (Bool.and_eq_true_iff.mp h).1

omit [DecidableEq υ] in
/-- The events of a batch on which nothing is to be counted do not count. -/
theorem counted_quiet {es : List (SmsEvent υ)} (h : ∀ e ∈ es, e.status = .queued)
    (direction name : String) :
    signedSum SmsEvent.factor (fun e => e.direction = direction ∧ e.status.counter = some name)
      es = 0 := by
  unfold signedSum
  rw [List.filter_eq_nil_iff.mpr]
  · rfl
  · intro e he hcounts
    obtain ⟨-, hcounter⟩ := of_decide_eq_true hcounts
    rw [h e he] at hcounter
    cases hcounter

theorem pricesOf_quiet {es : List (SmsEvent υ)} (h : ∀ e ∈ es, e.price = none)
    (direction : String) : pricesOf es direction = 0 := by
  unfold pricesOf
  rw [keepAlong_eq_nil fun before e he => ?_]
  · rfl
  · unfold firstPrice
    rw [h e he]
    rfl

omit [DecidableEq υ] in
/-- Where the valid events make rows, and no more rows are made than there are valid events, each
row is that of a valid event. -/
theorem smsEvent_of_row {entries : List StreamEntry}
    (hmade : ∀ entry ∈ entries, (smsEvent env entry).isSome → (smsRow? env entry).isSome)
    (hlength : (entries.filterMap (smsRow? env)).length ≤ (smsEvents env entries).length)
    {entry : StreamEntry} (hentry : entry ∈ entries) (hrow : (smsRow? env entry).isSome) :
    (smsEvent env entry).isSome := by
  unfold smsEvents at hlength
  rw [List.length_filterMap_eq_countP, List.length_filterMap_eq_countP,
    List.countP_eq_length_filter, List.countP_eq_length_filter] at hlength
  have hsublist : (entries.filter fun entry => (smsEvent env entry).isSome).Sublist
      (entries.filter fun entry => (smsRow? env entry).isSome) := by
    have hfilter : (entries.filter fun entry => (smsEvent env entry).isSome) =
        (entries.filter fun entry => (smsRow? env entry).isSome).filter fun entry =>
          (smsEvent env entry).isSome := by
      rw [List.filter_filter]
      refine List.filter_congr fun entry hentry => ?_
      cases hvalid : (smsEvent env entry).isSome with
      | false => rfl
      | true => exact (hmade entry hentry hvalid).symm
    rw [hfilter]
    exact List.filter_sublist
  have hmem : entry ∈ entries.filter fun entry => (smsRow? env entry).isSome :=
    List.mem_filter.mpr ⟨hentry, hrow⟩
  rw [← hsublist.eq_of_length_le hlength] at hmem
  exact (List.mem_filter.mp hmem).2

theorem smsRight_iff_meets (rows : List υ) (entries : List StreamEntry) :
    (∃ w, addTwilioSmsEvent env rows entries = .ok w ∧ SmsRight env entries w) ↔
      SmsMeets env rows entries := by
  constructor
  · rintro ⟨w, hw, hright⟩
    obtain ⟨-, hobs, hinvalid⟩ := of_addTwilioSmsEvent_ok env hw
    have hquiet : ∀ entry ∈ entries, (smsEvent env entry).isSome → quietSms env entry := by
      intro entry hentry hvalid
      have hkept := hright.kept entry hentry hvalid
      rw [hinvalid, List.mem_filter] at hkept
      by_contra hloud
      exact hkept ⟨hentry, by simpa using hloud⟩
    have hmade : ∀ entry ∈ entries, (smsEvent env entry).isSome → (smsRow? env entry).isSome := by
      intro entry hentry hvalid
      rw [smsRow?_isSome]
      exact quietSms_row env (hquiet entry hentry hvalid)
    have hlength := hright.inserted.length_le
    rw [hobs, List.length_map] at hlength
    refine ⟨fun entry hentry h => ?_, fun row hrow => ?_⟩
    · have hvalid : (smsEvent env entry).isSome := by
        rcases h with h | h
        · exact h
        · rw [← smsRow?_isSome] at h
          exact smsEvent_of_row env hmade hlength hentry h
      exact ⟨hvalid, hquiet entry hentry hvalid⟩
    · rintro ⟨e, he, rfl⟩
      obtain ⟨entry, hentry, hevent⟩ := List.mem_filterMap.mp he
      obtain ⟨htext, hmessage, -⟩ := smsEvent_eq_some env hevent
      obtain ⟨entry', hentry', hquiet', hspelled⟩ :=
        (exists_addTwilioSmsEvent_iff env rows entries).mp ⟨w, hw⟩ e.message hrow
          ⟨entry, hentry, hquiet entry hentry (by rw [hevent]; rfl), by rw [htext]; exact hmessage⟩
      have hvalid := smsEvent_of_row env hmade hlength hentry' (by
        rw [smsRow?_isSome]
        exact quietSms_row env hquiet')
      obtain ⟨e', he'⟩ := Option.isSome_iff_exists.mp hvalid
      obtain ⟨htext', -⟩ := smsEvent_eq_some env he'
      rw [htext'] at hspelled
      exact ⟨e', List.mem_filterMap.mpr ⟨entry', hentry', he'⟩, Option.some.inj hspelled⟩
  · rintro ⟨hquiet, hspelled⟩
    have hevents : ∀ entry ∈ entries, quietSms env entry → ∃ e, smsEvent env entry = some e :=
      fun entry hentry h =>
        Option.isSome_iff_exists.mp (hquiet entry hentry (.inr (quietSms_row env h))).1
    obtain ⟨w, hw⟩ := (exists_addTwilioSmsEvent_iff env rows entries).mpr fun row hrow => by
      rintro ⟨entry, hentry, hentryQuiet, hparse⟩
      obtain ⟨e, he⟩ := hevents entry hentry hentryQuiet
      obtain ⟨htext, hmessage, -⟩ := smsEvent_eq_some env he
      rw [htext] at hparse
      obtain ⟨e', he', htext'⟩ := hspelled row hrow ⟨e, List.mem_filterMap.mpr ⟨entry, hentry, he⟩,
        Option.some.inj (hmessage.symm.trans hparse)⟩
      obtain ⟨entry', hentry', hevent'⟩ := List.mem_filterMap.mp he'
      obtain ⟨hget, -⟩ := smsEvent_eq_some env hevent'
      refine ⟨entry', hentry', (hquiet entry' hentry' (.inl (by rw [hevent']; rfl))).2, ?_⟩
      rw [hget, ← htext']
      rfl
    obtain ⟨hanalytics, hobs, hinvalid⟩ := of_addTwilioSmsEvent_ok env hw
    have hes : ∀ e ∈ smsEvents env entries, e.status = .queued ∧ e.price = none := by
      intro e he
      obtain ⟨entry, hentry, hevent⟩ := List.mem_filterMap.mp he
      obtain ⟨hstatus, hprice, -⟩ := quiet_smsEvent env hevent
        (hquiet entry hentry (.inl (by rw [hevent]; rfl))).2
      exact ⟨hstatus, hprice⟩
    refine ⟨w, hw, fun direction name _ => ?_, fun direction => ?_, fun entry hentry hvalid h => ?_,
      ?_⟩
    · rw [hanalytics, smsAnalytics_count, counted_quiet fun e he => (hes e he).1]
    · rw [hanalytics, smsAnalytics_count, pricesOf_quiet fun e he => (hes e he).2]
      rfl
    · rw [hinvalid, List.mem_filter, (hquiet entry hentry (.inl hvalid)).2] at h
      exact Bool.false_ne_true h.2
    · rw [hobs]
      unfold smsEvents
      rw [List.map_filterMap, List.filterMap_congr fun entry hentry => ?_]
      cases hevent : smsEvent env entry with
      | none =>
        rw [Option.map_none, ← Option.not_isSome_iff_eq_none, smsRow?_isSome]
        intro hok
        have hvalid := (hquiet entry hentry (.inr hok)).1
        rw [hevent] at hvalid
        cases hvalid
      | some e =>
        have hvalid : (smsEvent env entry).isSome := by
          rw [hevent]
          rfl
        exact (quiet_smsEvent env hevent (hquiet entry hentry (.inl hvalid)).2).2.2

end Exact

end Notifyr
