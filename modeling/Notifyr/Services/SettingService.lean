import Mathlib.Data.Fintype.Pi
import Notifyr.Runtime.Python
import Notifyr.Theory.Runs

/-!
# The settings

`SettingService` (`app/services/setting_service.py`) and the route `modify_settings`
(`app/ressources/properties_ressource.py`).

- `Settings`: a dictionary of settings; `settings_validator`, `SettingsModel`: the body of a request.
- `SettingState`: what the service holds, and the file or the secret that it is kept in.
- `modifySettings`, `aioGetSettings`: an update, and the refresh that each update sends out.
- `SettingsRight`: what a run of updates is to do; `settingsRight_iff`: which runs do.
-/

namespace Notifyr

open Theory

/-! ## Dictionaries of settings -/

/-- The keys of `SettingDBConstant` that are settings. -/
inductive SettingKey
  | AUTH_EXPIRATION
  | REFRESH_EXPIRATION
  | CHAT_EXPIRATION
  | ASSET_LANG
  | CONTACT_TOKEN_EXPIRATION
  | API_EXPIRATION
  | ALL_ACCESS_EXPIRATION_SETTING
  deriving DecidableEq

instance SettingKey.fintype : Fintype SettingKey :=
  Fintype.ofList
    [AUTH_EXPIRATION, REFRESH_EXPIRATION, CHAT_EXPIRATION, ASSET_LANG, CONTACT_TOKEN_EXPIRATION,
      API_EXPIRATION, ALL_ACCESS_EXPIRATION_SETTING]
    (by intro key; cases key <;> decide)

/-- The type of the value under a key. -/
abbrev SettingKey.Value : SettingKey → Type
  | ASSET_LANG => String
  | AUTH_EXPIRATION | REFRESH_EXPIRATION | CHAT_EXPIRATION | CONTACT_TOKEN_EXPIRATION
  | API_EXPIRATION | ALL_ACCESS_EXPIRATION_SETTING => ℤ

instance SettingKey.Value.decidableEq : (key : SettingKey) → DecidableEq key.Value
  | ASSET_LANG => inferInstanceAs (DecidableEq String)
  | AUTH_EXPIRATION | REFRESH_EXPIRATION | CHAT_EXPIRATION | CONTACT_TOKEN_EXPIRATION
  | API_EXPIRATION | ALL_ACCESS_EXPIRATION_SETTING => inferInstanceAs (DecidableEq ℤ)

/-- A dictionary of settings, which may lack any of the keys. -/
abbrev Settings : Type := (key : SettingKey) → Option key.Value

namespace Settings

/-- The dictionary `{}`. -/
def empty : Settings := fun _ => none

/-- `dict.update`. -/
def update (d sent : Settings) : Settings := fun key => (sent key).or (d key)

@[simp] theorem update_empty (d : Settings) : d.update empty = d := rfl

@[simp] theorem update_self (d : Settings) : d.update d = d := by
  funext key
  show (d key).or (d key) = d key
  cases d key <;> rfl

/-- What an update has changed is not changed by the updated dictionary. -/
@[simp] theorem update_update (d sent : Settings) : d.update (d.update sent) = d.update sent := by
  funext key
  show ((sent key).or (d key)).or (d key) = (sent key).or (d key)
  cases sent key with
  | none => exact congrFun d.update_self key
  | some value => rfl

/-- An update changes no key that was not sent. -/
theorem update_of_none {sent : Settings} {key : SettingKey} (h : sent key = none) (d : Settings) :
    d.update sent key = d key := by
  show (sent key).or (d key) = d key
  rw [h]
  rfl

theorem update_of_some {sent : Settings} {key : SettingKey} {value : key.Value}
    (h : sent key = some value) (d : Settings) : d.update sent key = some value := by
  show (sent key).or (d key) = some value
  rw [h]
  rfl

end Settings

def SECONDS_IN_AN_HOUR : ℤ := 3600

def DEFAULT_SETTING : Settings
  | .AUTH_EXPIRATION => some (SECONDS_IN_AN_HOUR * 10)
  | .REFRESH_EXPIRATION => some (SECONDS_IN_AN_HOUR * 24 * 1)
  | .CHAT_EXPIRATION => some SECONDS_IN_AN_HOUR
  | .ASSET_LANG => some "en"
  | .CONTACT_TOKEN_EXPIRATION => some (360000000 : ℤ)
  | .API_EXPIRATION => some (360000000 : ℤ)
  | .ALL_ACCESS_EXPIRATION_SETTING => some (36000000000 : ℤ)

/-- `SettingService.AUTH_EXPIRATION`. -/
def Settings.authExpiration (d : Settings) : ℤ :=
  (d .AUTH_EXPIRATION).getD (SECONDS_IN_AN_HOUR * 10)

/-- `SettingService.REFRESH_EXPIRATION`. -/
def Settings.refreshExpiration (d : Settings) : ℤ :=
  (d .REFRESH_EXPIRATION).getD (SECONDS_IN_AN_HOUR * 24 * 1)

/-! ## The body of a request -/

def AVAILABLE_LANG : List String := ["en", "es", "fr", "de"]

/-- A value that was sent has to lie between two bounds. -/
def within (value : Option ℤ) (low high : ℤ) (message : String) : Except String Unit :=
  match value with
  | none => .ok ()
  | some value => if low ≤ value ∧ value ≤ high then .ok () else .error message

/-- The language that was sent has to be available. -/
def availableLang (lang : Option String) : Except String Unit :=
  match lang with
  | none => .ok ()
  | some lang =>
    if lang ∈ AVAILABLE_LANG then .ok () else .error "ASSET_LANG must be one of: en, es, fr, de"

/-- Two expirations that were sent have to differ by more than a factor of two. -/
def pairOfExpirations (auth refresh : Option ℤ) : Except String Unit :=
  match auth, refresh with
  | some auth, some refresh =>
    if refresh ≤ auth * 2 then
      .error "REFRESH_EXPIRATION must be at least two times greater than AUTH_EXPIRATION"
    else .ok ()
  | _, _ => .ok ()

/-- The validator of `SettingsModel`. The last two ranges are products with the floats 1.8, 0.3 and
1.3, which are whole numbers. -/
def settings_validator (d : Settings) : Except String Unit := do
  within (d .AUTH_EXPIRATION) (10 * 3600) (100 * 3600)
    "AUTH_EXPIRATION must be between 10 hours(36000) and 100 hours(360000)"
  within (d .REFRESH_EXPIRATION) (1 * 3600 * 24) (14 * 3600 * 24)
    "REFRESH_EXPIRATION must be between 1 day(86400) and 14 days(1209600)"
  within (d .CHAT_EXPIRATION) (3600 * 1) (3600 * 2)
    "CHAT_EXPIRATION must be between 1 hour(3600) and 2 hours(7200)"
  availableLang (d .ASSET_LANG)
  pairOfExpirations (d .AUTH_EXPIRATION) (d .REFRESH_EXPIRATION)
  within (d .CONTACT_TOKEN_EXPIRATION) 360000000 648000000
    "CONTACT_TOKEN_EXPIRATION must be in [360000000 , 648000000.0] "
  within (d .API_EXPIRATION) 108000000 468000000
    "API_EXPIRATION must be in [108000000.0 , 468000000.0 ]"

/-- `SettingsModel`; `fields` is what `model_dump` gives without the fields that were not sent. -/
structure SettingsModel where
  fields : Settings
  declared : fields .ALL_ACCESS_EXPIRATION_SETTING = none
  valid : settings_validator fields = .ok ()

/-! ## The service -/

/-- The file of the settings. -/
inductive SettingFile
  | missing
  | malformed
  | null
  | settings (data : Settings)

/-- `JSONFile.load`: the data, and whether it was loaded. -/
def SettingFile.load : SettingFile → Option Settings × Bool
  | missing => (none, false)
  | malformed => (some Settings.empty, false)
  | null => (none, true)
  | settings data => (some data, true)

/-- `_read_setting_json_file`, with the `loaded` of the file that it makes. -/
def readSettingJsonFile (content : SettingFile) : Settings × Bool :=
  (content.load.1.getD DEFAULT_SETTING, content.load.2)

/-- What the settings are kept in: a file, in development, or a secret of the vault. -/
inductive SettingMedium
  | file (content : SettingFile) (loaded : Bool)
  | vault (secret : Option Settings)

/-- The service; `pending` counts the refreshes that were sent out and have not come. -/
structure SettingState where
  data : Settings
  medium : SettingMedium
  pending : ℕ := 0

/-- `get_setting`. -/
def getSetting (secret : Option Settings) : Settings :=
  match secret with
  | none => DEFAULT_SETTING
  | some data =>
    -- every exception is caught, those of the validator too
    match settings_validator data with
    | .ok () => data
    | .error _ => DEFAULT_SETTING

/-- `build` at the start, in the file mode. -/
def buildFromFile (content : SettingFile) : SettingState :=
  ⟨(readSettingJsonFile content).1, .file content (readSettingJsonFile content).2, 0⟩

/-- `build` at the start, in the store mode. -/
def buildFromVault (secret : Option Settings) : SettingState :=
  ⟨getSetting secret, .vault secret, 0⟩

/-- `aio_get_settings`; a secret that is not there leaves the default settings. -/
def aioGetSettings (s : SettingState) : SettingState :=
  match s.medium with
  | .file content _ =>
    { s with
      data := (readSettingJsonFile content).1
      medium := .file content (readSettingJsonFile content).2 }
  | .vault secret => { s with data := secret.getD DEFAULT_SETTING }

/-- `update_setting`: a file that was not loaded is not saved, and the vault gets the data that the
service holds. -/
def updateSetting (s : SettingState) (newData : Settings) : SettingState :=
  match s.medium with
  | .file content loaded =>
    let data := s.data.update newData
    { s with data, medium := .file (if loaded then .settings data else content) loaded }
  -- `put` is handed `self.data` here, and `newData` is not looked at
  | .vault _ => { s with medium := .vault (some s.data) }

/-- What a request sends. -/
def sentSettings (default : Bool) (settingsModel : SettingsModel) : Settings :=
  if default then DEFAULT_SETTING else settingsModel.fields

/-- Whether the check of `modify_settings` raises. -/
def refusesPair (settingsModel : SettingsModel) (currentData : Settings) : Bool :=
  match settingsModel.fields .AUTH_EXPIRATION, settingsModel.fields .REFRESH_EXPIRATION with
  -- the value of AUTH_EXPIRATION is tested for being there, and then not compared with
  | some _, some refresh => decide (currentData.refreshExpiration ≤ refresh * 2)
  | _, _ => false

/-- `modify_settings`. -/
def modifySettings (s : SettingState) (default : Bool) (settingsModel : SettingsModel) :
    Except String Settings × SettingState :=
  let settings := sentSettings default settingsModel
  if settings = Settings.empty ∨ settings = s.data then (.ok s.data, s)
  else
    let currentData := s.data.update settings
    if refusesPair settingsModel currentData then
      (.error "REFRESH_EXPIRATION must be at least two times greater than AUTH_EXPIRATION", s)
    else
      let s' := updateSetting s currentData
      (.ok currentData, { s' with pending := s'.pending + 1 })

/-- What happens to the service. -/
inductive SettingAction
  | update (default : Bool) (settingsModel : SettingsModel)
  | refresh

def settingStep (s : SettingState) : SettingAction → SettingState
  | .update default settingsModel => (modifySettings s default settingsModel).2
  | .refresh =>
    if s.pending = 0 then s else { aioGetSettings s with pending := s.pending - 1 }

/-! ## What updates are for -/

/-- `REFRESH_EXPIRATION` is at least twice `AUTH_EXPIRATION`. -/
def Settings.Paired (d : Settings) : Prop := d.authExpiration * 2 ≤ d.refreshExpiration

/-- The settings that an update asks for: the keys that it sends, and no other ones, changed. -/
def requested (s : SettingState) (default : Bool) (settingsModel : SettingsModel) : Settings :=
  s.data.update (sentSettings default settingsModel)

/-- Any number of refreshes. -/
def refreshed (s : SettingState) (n : ℕ) : SettingState :=
  runFrom settingStep s (List.replicate n .refresh)

/-- What one update is to do. -/
structure UpdateRight (s : SettingState) (default : Bool) (settingsModel : SettingsModel) : Prop
    where
  accepted : (requested s default settingsModel).Paired →
    ∃ data, (modifySettings s default settingsModel).1 = .ok data
  effect : ∀ data, (modifySettings s default settingsModel).1 = .ok data →
    data = requested s default settingsModel ∧
      ∀ n, (refreshed (modifySettings s default settingsModel).2 n).data =
        requested s default settingsModel
  refused : ∀ message, (modifySettings s default settingsModel).1 = .error message →
    (modifySettings s default settingsModel).2 = s

/-- What one step of a run is to do. -/
def SettingStepRight (s : SettingState) (action : SettingAction) : Prop :=
  (settingStep s action).data.Paired ∧
    match action with
    | .update default settingsModel => UpdateRight s default settingsModel
    | .refresh => True

/-- The settings are paired in every state of a run, and each update does what it is to do. -/
def SettingsRight (s : SettingState) (run : List SettingAction) : Prop :=
  s.data.Paired ∧ Always settingStep SettingStepRight s run

/-- Both expirations are sent. -/
def SendsBoth (settingsModel : SettingsModel) : Prop :=
  settingsModel.fields .AUTH_EXPIRATION ≠ none ∧ settingsModel.fields .REFRESH_EXPIRATION ≠ none

/-- The settings are kept in a file that was loaded. -/
def InLoadedFile (s : SettingState) : Prop := ∃ content, s.medium = .file content true

/-- When an update does what it is to do: it sends nothing or all that there is; or it does not send
both expirations, and changes nothing or comes to a loaded file with a pair that is right. -/
def Sensible (s : SettingState) : SettingAction → Prop
  | .update default settingsModel =>
    (sentSettings default settingsModel = Settings.empty ∨
      sentSettings default settingsModel = s.data) ∨
    ¬ SendsBoth settingsModel ∧
      (requested s default settingsModel = s.data ∨
        InLoadedFile s ∧ (requested s default settingsModel).Paired)
  | .refresh => True

/-! ## What the validator ensures -/

theorem within_ok {value low high : ℤ} {message : String}
    (h : within (some value) low high message = .ok ()) : low ≤ value ∧ value ≤ high := by
  by_contra hout
  have herror : within (some value) low high message = .error message := if_neg hout
  rw [herror] at h
  cases h

namespace SettingsModel

variable (settingsModel : SettingsModel)

theorem refresh_bound {refresh : ℤ}
    (hrefresh : settingsModel.fields .REFRESH_EXPIRATION = some refresh) : 86400 ≤ refresh := by
  obtain ⟨⟨⟩, -, hrest⟩ := bind_ok settingsModel.valid
  obtain ⟨⟨⟩, hrange, -⟩ := bind_ok hrest
  rw [hrefresh] at hrange
  exact (within_ok hrange).1

theorem pair_bound {auth refresh : ℤ}
    (hauth : settingsModel.fields .AUTH_EXPIRATION = some auth)
    (hrefresh : settingsModel.fields .REFRESH_EXPIRATION = some refresh) :
    auth * 2 < refresh := by
  obtain ⟨⟨⟩, -, hrest⟩ := bind_ok settingsModel.valid
  obtain ⟨⟨⟩, -, hrest⟩ := bind_ok hrest
  obtain ⟨⟨⟩, -, hrest⟩ := bind_ok hrest
  obtain ⟨⟨⟩, -, hrest⟩ := bind_ok hrest
  obtain ⟨⟨⟩, hpair, -⟩ := bind_ok hrest
  rw [hauth, hrefresh] at hpair
  by_contra hle
  have herror : pairOfExpirations (some auth) (some refresh) = .error _ :=
    if_pos (Int.not_lt.mp hle)
  rw [herror] at hpair
  cases hpair

end SettingsModel

/-! ## Requests with both expirations -/

section Both

variable {settingsModel : SettingsModel} {auth refresh : ℤ}
  (hauth : settingsModel.fields .AUTH_EXPIRATION = some auth)
  (hrefresh : settingsModel.fields .REFRESH_EXPIRATION = some refresh)

include hauth hrefresh

/-- Such a request asks for a pair that is right. -/
theorem requested_paired (s : SettingState) (default : Bool) :
    (requested s default settingsModel).Paired := by
  cases default with
  | true =>
    show SECONDS_IN_AN_HOUR * 10 * 2 ≤ SECONDS_IN_AN_HOUR * 24 * 1
    decide
  | false =>
    show ((s.data.update settingsModel.fields) .AUTH_EXPIRATION).getD _ * 2 ≤
      ((s.data.update settingsModel.fields) .REFRESH_EXPIRATION).getD _
    rw [Settings.update_of_some hauth, Settings.update_of_some hrefresh]
    exact (settingsModel.pair_bound hauth hrefresh).le

/-- The check compares the refresh expiration with its own double, and so always raises. -/
theorem refusesPair_of_both (s : SettingState) (default : Bool) :
    refusesPair settingsModel (requested s default settingsModel) = true := by
  have hbound := settingsModel.refresh_bound hrefresh
  have hle : (requested s default settingsModel).refreshExpiration ≤ refresh * 2 := by
    cases default with
    | true =>
      have hdefault : (requested s true settingsModel).refreshExpiration = 86400 := rfl
      omega
    | false =>
      have hsent : (requested s false settingsModel).refreshExpiration = refresh := by
        show ((s.data.update settingsModel.fields) .REFRESH_EXPIRATION).getD _ = refresh
        rw [Settings.update_of_some hrefresh]
        rfl
      omega
  unfold refusesPair
  rw [hauth, hrefresh]
  exact decide_eq_true hle

end Both

theorem refusesPair_eq_false {settingsModel : SettingsModel} (h : ¬ SendsBoth settingsModel)
    (currentData : Settings) : refusesPair settingsModel currentData = false := by
  unfold refusesPair
  split
  · next auth refresh hauth hrefresh =>
    refine absurd ⟨?_, ?_⟩ h
    · rw [hauth]
      exact Option.some_ne_none auth
    · rw [hrefresh]
      exact Option.some_ne_none refresh
  · rfl

/-! ## What `modify_settings` does -/

section Modify

variable {s : SettingState} {default : Bool} {settingsModel : SettingsModel}

theorem modifySettings_same
    (h : sentSettings default settingsModel = Settings.empty ∨
      sentSettings default settingsModel = s.data) :
    modifySettings s default settingsModel = (.ok s.data, s) := if_pos h

/-- A request that sends nothing, or all that there is, asks for no change. -/
theorem requested_same
    (h : sentSettings default settingsModel = Settings.empty ∨
      sentSettings default settingsModel = s.data) :
    requested s default settingsModel = s.data := by
  unfold requested
  rcases h with h | h
  · rw [h, Settings.update_empty]
  · rw [h, Settings.update_self]

variable
  (hnew : ¬ (sentSettings default settingsModel = Settings.empty ∨
    sentSettings default settingsModel = s.data))

include hnew

theorem modifySettings_both (hboth : SendsBoth settingsModel) :
    modifySettings s default settingsModel =
      (.error "REFRESH_EXPIRATION must be at least two times greater than AUTH_EXPIRATION", s) := by
  obtain ⟨auth, hauth⟩ := Option.ne_none_iff_exists'.mp hboth.1
  obtain ⟨refresh, hrefresh⟩ := Option.ne_none_iff_exists'.mp hboth.2
  unfold modifySettings
  dsimp only
  rw [if_neg hnew]
  exact if_pos (refusesPair_of_both hauth hrefresh s default)

theorem modifySettings_other (hboth : ¬ SendsBoth settingsModel) :
    modifySettings s default settingsModel =
      (.ok (requested s default settingsModel),
        { updateSetting s (requested s default settingsModel) with
          pending := (updateSetting s (requested s default settingsModel)).pending + 1 }) := by
  unfold modifySettings
  dsimp only
  rw [if_neg hnew]
  exact if_neg (Bool.not_eq_true _ ▸ refusesPair_eq_false hboth _)

end Modify

/-! ## Refreshes -/

/-- What a refresh that is to come would read is what the service holds. -/
def ReadsBack (s : SettingState) : Prop :=
  match s.medium with
  | .file content loaded => readSettingJsonFile content = (s.data, loaded)
  | .vault secret => s.pending = 0 ∨ secret.getD DEFAULT_SETTING = s.data

/-- Where a refresh reads back what there is, it changes the number of refreshes at most. -/
theorem ReadsBack.refresh {s : SettingState} (h : ReadsBack s) :
    ReadsBack (settingStep s .refresh) ∧ (settingStep s .refresh).data = s.data ∧
      (settingStep s .refresh).medium = s.medium := by
  obtain ⟨data, medium, pending⟩ := s
  by_cases hnone : pending = 0
  · have hsame : settingStep ⟨data, medium, pending⟩ .refresh = ⟨data, medium, pending⟩ :=
      if_pos hnone
    rw [hsame]
    exact ⟨h, rfl, rfl⟩
  have hstep : settingStep ⟨data, medium, pending⟩ .refresh =
      { aioGetSettings ⟨data, medium, pending⟩ with pending := pending - 1 } := if_neg hnone
  rw [hstep]
  cases medium with
  | file content loaded =>
    have hread : readSettingJsonFile content = (data, loaded) := h
    have hsame : aioGetSettings ⟨data, .file content loaded, pending⟩ =
        ⟨data, .file content loaded, pending⟩ := by
      show SettingState.mk (readSettingJsonFile content).1
        (.file content (readSettingJsonFile content).2) pending = _
      rw [hread]
    rw [hsame]
    exact ⟨hread, rfl, rfl⟩
  | vault secret =>
    have hread : secret.getD DEFAULT_SETTING = data := h.resolve_left hnone
    exact ⟨Or.inr rfl, hread, rfl⟩

theorem ReadsBack.refreshed {s : SettingState} (h : ReadsBack s) (n : ℕ) :
    (refreshed s n).data = s.data := by
  -- `ReadsBack` is what one refresh keeps
  induction n generalizing s with
  | zero => rfl
  | succ n ih =>
    obtain ⟨hreads, hdata, -⟩ := h.refresh
    exact (ih hreads).trans hdata

theorem readsBack_buildFromFile (content : SettingFile) : ReadsBack (buildFromFile content) := rfl

theorem readsBack_buildFromVault (secret : Option Settings) : ReadsBack (buildFromVault secret) :=
  Or.inl rfl

/-! ## What one update does -/

section Update

variable {s : SettingState} {default : Bool} {settingsModel : SettingsModel}

/-- An update that changes nothing. -/
theorem UpdateRight.of_unchanged {s' : SettingState} (hreads : ReadsBack s')
    (hdata : s'.data = s.data) (hsame : requested s default settingsModel = s.data)
    (hmodify : modifySettings s default settingsModel = (.ok s.data, s')) :
    UpdateRight s default settingsModel := by
  refine ⟨?_, ?_, ?_⟩
  · intro _
    exact ⟨s.data, congrArg Prod.fst hmodify⟩
  · intro data hok
    rw [hmodify] at hok ⊢
    cases hok
    refine ⟨hsame.symm, fun n => ?_⟩
    rw [hreads.refreshed n, hdata, hsame]
  · intro message herror
    rw [hmodify] at herror
    cases herror

/-- The data after `update_setting`, and what the next refresh reads. -/
theorem updateSetting_file {content : SettingFile} {loaded : Bool} {data newData : Settings}
    {pending : ℕ} :
    updateSetting ⟨data, .file content loaded, pending⟩ newData =
      ⟨data.update newData,
        .file (if loaded then .settings (data.update newData) else content) loaded, pending⟩ := rfl

theorem updateSetting_vault {secret : Option Settings} {data newData : Settings} {pending : ℕ} :
    updateSetting ⟨data, .vault secret, pending⟩ newData =
      ⟨data, .vault (some data), pending⟩ := rfl

/-- Where the medium took the data of the request, a refresh reads it back. -/
theorem updateSetting_readsBack (hreads : ReadsBack s)
    (h : requested s default settingsModel = s.data ∨ InLoadedFile s) :
    ReadsBack { updateSetting s (requested s default settingsModel) with
      pending := (updateSetting s (requested s default settingsModel)).pending + 1 } ∧
    (updateSetting s (requested s default settingsModel)).data =
      requested s default settingsModel := by
  have hupdate : s.data.update (requested s default settingsModel) =
      requested s default settingsModel := Settings.update_update s.data _
  generalize requested s default settingsModel = newData at *
  obtain ⟨data, medium, pending⟩ := s
  cases medium with
  | vault secret =>
    have hsame : newData = data := h.resolve_right (by rintro ⟨content, hfile⟩; cases hfile)
    rw [updateSetting_vault]
    exact ⟨Or.inr rfl, hsame.symm⟩
  | file content loaded =>
    rw [updateSetting_file]
    refine ⟨?_, hupdate⟩
    cases loaded with
    | true => exact rfl
    | false =>
      have hsame : newData = data := h.resolve_right (by rintro ⟨content, hfile⟩; cases hfile)
      have hread : readSettingJsonFile content = (data, false) := hreads
      show readSettingJsonFile content = (data.update newData, false)
      rw [hread, hupdate, hsame]

/-- A medium that did not take the data of the request gives the old data back. -/
theorem updateSetting_lost (hreads : ReadsBack s) (hnot : ¬ InLoadedFile s) (newData : Settings) :
    ∃ n, (refreshed { updateSetting s newData with
      pending := (updateSetting s newData).pending + 1 } n).data = s.data := by
  obtain ⟨data, medium, pending⟩ := s
  cases medium with
  | vault secret => exact ⟨0, rfl⟩
  | file content loaded =>
    cases loaded with
    | true => exact absurd ⟨content, rfl⟩ hnot
    | false =>
      have hread : readSettingJsonFile content = (data, false) := hreads
      refine ⟨1, ?_⟩
      show (readSettingJsonFile content).1 = data
      rw [hread]

/-- An update does what it is to do, and leaves a pair that is right, in the sensible cases only. -/
theorem settingStepRight_update_iff (hreads : ReadsBack s) (hpaired : s.data.Paired) :
    SettingStepRight s (.update default settingsModel) ↔
      Sensible s (.update default settingsModel) := by
  -- the three ways out of `modify_settings`: nothing to do, refused, and written
  by_cases hnew : sentSettings default settingsModel = Settings.empty ∨
      sentSettings default settingsModel = s.data
  · refine iff_of_true ⟨?_, ?_⟩ (Or.inl hnew)
    · show (modifySettings s default settingsModel).2.data.Paired
      rw [modifySettings_same hnew]
      exact hpaired
    · exact UpdateRight.of_unchanged hreads rfl (requested_same hnew) (modifySettings_same hnew)
  by_cases hboth : SendsBoth settingsModel
  · refine iff_of_false ?_ ?_
    · rintro ⟨-, hright⟩
      obtain ⟨auth, hauth⟩ := Option.ne_none_iff_exists'.mp hboth.1
      obtain ⟨refresh, hrefresh⟩ := Option.ne_none_iff_exists'.mp hboth.2
      obtain ⟨data, hok⟩ := hright.accepted (requested_paired hauth hrefresh s default)
      rw [modifySettings_both hnew hboth] at hok
      cases hok
    · rintro (hsame | ⟨hother, -⟩)
      · exact hnew hsame
      · exact hother hboth
  have hmodify := modifySettings_other hnew hboth
  constructor
  · rintro ⟨hafter, hright⟩
    refine Or.inr ⟨hboth, ?_⟩
    have hlater := (hright.effect _ (congrArg Prod.fst hmodify)).2
    -- what no medium took is gone after a refresh, so it has to be what there was before
    by_cases hwritable : InLoadedFile s
    · refine Or.inr ⟨hwritable, ?_⟩
      rw [← hlater 0]
      exact hafter
    · refine Or.inl ?_
      obtain ⟨n, hn⟩ := updateSetting_lost hreads hwritable (requested s default settingsModel)
      calc requested s default settingsModel
          = (refreshed (modifySettings s default settingsModel).2 n).data := (hlater n).symm
        _ = s.data := by rw [hmodify]; exact hn
  · rintro (hsame | ⟨-, hcase⟩)
    · exact absurd hsame hnew
    obtain ⟨hafter, hdata⟩ := updateSetting_readsBack hreads (hcase.imp_right And.left)
    have hresult : (requested s default settingsModel).Paired := by
      rcases hcase with hsame | ⟨-, hresult⟩
      · rw [hsame]
        exact hpaired
      · exact hresult
    refine ⟨?_, ?_, ?_, ?_⟩
    · show (modifySettings s default settingsModel).2.data.Paired
      rw [hmodify]
      exact hdata.symm ▸ hresult
    · intro _
      exact ⟨_, congrArg Prod.fst hmodify⟩
    · intro data hok
      rw [hmodify] at hok ⊢
      cases hok
      exact ⟨rfl, fun n => (hafter.refreshed n).trans hdata⟩
    · intro message herror
      rw [hmodify] at herror
      cases herror

/-- After a sensible update a refresh reads back what there is. -/
theorem ReadsBack.update (hreads : ReadsBack s)
    (h : Sensible s (.update default settingsModel)) :
    ReadsBack (settingStep s (.update default settingsModel)) := by
  show ReadsBack (modifySettings s default settingsModel).2
  by_cases hnew : sentSettings default settingsModel = Settings.empty ∨
      sentSettings default settingsModel = s.data
  · rw [modifySettings_same hnew]
    exact hreads
  · obtain ⟨hboth, hcase⟩ := h.resolve_left hnew
    rw [modifySettings_other hnew hboth]
    exact (updateSetting_readsBack hreads (hcase.imp_right And.left)).1

end Update

/-! ## Runs -/

theorem settingStepRight_iff {s : SettingState} (hreads : ReadsBack s) (hpaired : s.data.Paired)
    (action : SettingAction) : SettingStepRight s action ↔ Sensible s action := by
  cases action with
  | update default settingsModel => exact settingStepRight_update_iff hreads hpaired
  | refresh =>
    refine iff_of_true ⟨?_, trivial⟩ trivial
    rw [hreads.refresh.2.1]
    exact hpaired

/-- A right step keeps what its rightness depends on. -/
theorem SettingStepRight.keeps {s : SettingState} {action : SettingAction}
    (hright : SettingStepRight s action) (h : ReadsBack s ∧ s.data.Paired) :
    ReadsBack (settingStep s action) ∧ (settingStep s action).data.Paired := by
  refine ⟨?_, hright.1⟩
  cases action with
  | update default settingsModel =>
    exact h.1.update ((settingStepRight_iff h.1 h.2 _).mp hright)
  | refresh => exact h.1.refresh.1

/-- The start of a service. -/
inductive SettingStart
  | file (content : SettingFile)
  | vault (secret : Option Settings)

def SettingStart.build : SettingStart → SettingState
  | file content => buildFromFile content
  | vault secret => buildFromVault secret

/-- The runs of updates and refreshes in which the settings are right: the service starts with a
pair that is right, and each update is sensible. -/
theorem settingsRight_iff (start : SettingStart) (run : List SettingAction) :
    SettingsRight start.build run ↔
      start.build.data.Paired ∧ Always settingStep Sensible start.build run := by
  have hreads : ReadsBack start.build := by
    cases start with
    | file content => exact readsBack_buildFromFile content
    | vault secret => exact readsBack_buildFromVault secret
  exact and_congr_right fun hpaired =>
    always_congr_of_step (I := fun s => ReadsBack s ∧ s.data.Paired)
      (fun _ _ h hright => hright.keeps h)
      (fun _ action h => settingStepRight_iff h.1 h.2 action) ⟨hreads, hpaired⟩

/-- Eleven hours, and three days. -/
def threeDays : SettingsModel where
  fields
    | .AUTH_EXPIRATION => some (39600 : ℤ)
    | .REFRESH_EXPIRATION => some (259200 : ℤ)
    | _ => none
  declared := rfl
  valid := rfl

/-- An update of both expirations is refused, with the file in place. -/
theorem threeDays_refused :
    ¬ SettingsRight (buildFromFile (.settings DEFAULT_SETTING)) [.update false threeDays] := by
  rintro ⟨-, ⟨-, hright⟩, -⟩
  obtain ⟨data, hok⟩ := hright.accepted (requested_paired rfl rfl _ false)
  have herror : (modifySettings (buildFromFile (.settings DEFAULT_SETTING)) false threeDays).1 =
      .error "REFRESH_EXPIRATION must be at least two times greater than AUTH_EXPIRATION" := rfl
  rw [herror] at hok
  cases hok

end Notifyr
