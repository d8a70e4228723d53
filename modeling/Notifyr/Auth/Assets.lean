import Notifyr.Utils.Paths

/-!
# Asset permissions

`_raw_verify_asset_permission` and the two functions that call it, `verify_asset_permission`
and `verify_content_asset_permission` (`app/services/assets_service.py`).

- `AssetArg`, `OptionsArg`: arguments of the raw check. Its callers pass arguments by position,
  so what arrives under a name is not always what the name says.
- `rawVerifyAssetPermission`, `verifyAssetPermission`, `verifyContentAssetPermission`.
- `components`, `Under`: a path as its components, and containment of paths.
- `AssetCheck`: a call to one of the three; `AssetCheck.Correct` is what it owes and
  `assetCheck_correct_iff` says when it pays.
-/

namespace Notifyr

open Theory

/-- `AssetsPermission`. -/
structure AssetsPermission where
  files : List String
  dirs : List String

/-- What the asset code reads of an `AuthPermission`. -/
structure AssetAuth where
  allowedAssets : AssetsPermission

/-- An argument as it arrives. -/
inductive AssetArg
  | auth (p : AssetAuth)
  | assets (a : AssetsPermission)
  | text (s : String)

/-- A function of two arguments that answers a message or `None`. -/
abbrev AssetOption := AssetArg → AssetArg → Option String

/-- What arrives as `options`. -/
inductive OptionsArg
  | list (options : List AssetOption)
  | text (s : String)

/-- `x['allowed_assets']`. -/
def AssetArg.allowedAssets : AssetArg → Py AssetsPermission
  | auth p => .ok p.allowedAssets
  | assets _ => .error .keyError
  | text _ => .error .typeError

/-- A text, for its methods. -/
def AssetArg.asText : AssetArg → Py String
  | text s => .ok s
  | auth _ => .error .attributeError
  | assets _ => .error .attributeError

/-- A list of functions; the characters of a text cannot be called. -/
def OptionsArg.asList : OptionsArg → Py (List AssetOption)
  | list options => .ok options
  | text s => if s = "" then .ok [] else .error .typeError

/-- The answer of `_raw_verify_asset_permission` when it does not allow an asset. -/
def notAllowed (raises : Bool) (template : String) (description : Option String) : Py Bool :=
  if raises then .error (.httpDetail 403 s!"Assets [{template}] not allowed" description)
  else .ok false

/-- The loop over the options: the first message decides. -/
def runOptions (assetsPermission : AssetsPermission) (template : String) (raises : Bool) :
    List AssetOption → Py Bool
  | [] => .ok true
  | option :: options =>
    match option (.assets assetsPermission) (.text template) with
    | none => runOptions assetsPermission template raises options
    | some mess => notAllowed raises template (some mess)

/-- `_raw_verify_asset_permission`. -/
def rawVerifyAssetPermission (authPermission template : AssetArg) (options : OptionsArg)
    (raises : Bool) : Py Bool := do
  let assetsPermission ← authPermission.allowedAssets
  let allowedFiles := assetsPermission.files
  let allowedDirs := assetsPermission.dirs
  let template ← template.asText
  if allowedDirs.any (startsWith template) then return true
  else if template ∉ allowedFiles then notAllowed raises template none
  else
    let options ← options.asList
    runOptions assetsPermission template raises options

/-- `asset_rel_path`. -/
def assetRelPath (path : String) (assetType : String) : String := s!"{assetType}/{path}"

/-- The template that `verify_asset_permission` checks. -/
def relTemplate (template : String) (templateType : Option String) : String :=
  match templateType.filter (· ≠ "") with
  | some assetType => assetRelPath template assetType
  | none => template

/-- `verify_asset_permission`. The arguments of the raw check are one place off; the result,
when there is one, is `None`. -/
def verifyAssetPermission (template : String) (authPermission : AssetAuth)
    (templateType : Option String) (options : List AssetOption) : Py (Option Bool) := do
  let template := relTemplate template templateType
  let _ ← rawVerifyAssetPermission (.text template) (.assets authPermission.allowedAssets)
    (.text template) (!options.isEmpty)
  if options.any fun option => (option (.text template) (.auth authPermission)).getD "" = "" then
    .error (.httpDetail 403 s!"Assets [{template}] not allowed" none)
  else return none

/-- A value of a flattened content. -/
inductive ContentValue
  | list (items : List (Option String))
  | text (s : String)
  | other

/-- The items of a list that are texts; `none` stands for any other item. -/
def ContentValue.texts : ContentValue → List String
  | list items => items.filterMap id
  | text s => [s]
  | other => []

/-- The loop over the items of a list. -/
def verifyItems (authPermission : AssetAuth) (options : List AssetOption) :
    List (Option String) → Py Unit
  | [] => .ok ()
  | none :: items => verifyItems authPermission options items
  | some c :: items => do
    let _ ← rawVerifyAssetPermission (.text c) (.assets authPermission.allowedAssets)
      (.list options) true
    verifyItems authPermission options items

/-- `verify_content_asset_permission`. -/
def verifyContentAssetPermission (content : Dict String ContentValue) (modelKeys : List String)
    (authPermission : AssetAuth) (options : List AssetOption) : Py Bool :=
  match modelKeys with
  | [] => .ok true
  | keys :: modelKeys => do
    match ← getItem content keys with
    | .list items => verifyItems authPermission options items
    | .text s =>
      let _ ← rawVerifyAssetPermission (.text s) (.assets authPermission.allowedAssets)
        (.list options) true
    | .other => .error (.httpDetail 500 "Entity not properly accessed" none)
    verifyContentAssetPermission content modelKeys authPermission options

/-! ## Paths as components -/

/-- The components of a path: a leading separator is one, empty segments and `.` are none. -/
def components (path : String) : List String :=
  (if startsWith path "/" then ["/"] else []) ++
    ((path.toList.splitOn '/').map String.ofList).filter fun s => s ≠ "" ∧ s ≠ "."

/-- `path` lies under the directory `d`. -/
def Under (d path : String) : Prop :=
  components d <+: components path ∧ components d ≠ components path

instance (d path : String) : Decidable (Under d path) :=
  inferInstanceAs (Decidable (_ ∧ _))

/-- An asset is allowed: it is one of the files and passes the options, or it lies under one of
the directories. -/
def Allowed (authPermission : AssetAuth) (options : List AssetOption) (asset : String) : Prop :=
  (asset ∈ authPermission.allowedAssets.files ∧
      ∀ option ∈ options, option (.assets authPermission.allowedAssets) (.text asset) = none) ∨
    ∃ d ∈ authPermission.allowedAssets.dirs, Under d asset

/-! ## The three checks -/

/-- A call to one of the checks. -/
inductive AssetCheck
  | raw (authPermission : AssetAuth) (template : String) (options : List AssetOption)
      (raises : Bool)
  | asset (template : String) (authPermission : AssetAuth) (templateType : Option String)
      (options : List AssetOption)
  | content (body : Dict String ContentValue) (modelKeys : List String)
      (authPermission : AssetAuth) (options : List AssetOption)

namespace AssetCheck

/-- The call. -/
def run : AssetCheck → Py (Option Bool)
  | raw authPermission template options raises =>
    (rawVerifyAssetPermission (.auth authPermission) (.text template) (.list options) raises).map
      some
  | asset template authPermission templateType options =>
    verifyAssetPermission template authPermission templateType options
  | content body modelKeys authPermission options =>
    (verifyContentAssetPermission body modelKeys authPermission options).map some

/-- The assets asked for. -/
def requested : AssetCheck → List String
  | raw _ template _ _ => [template]
  | asset template _ templateType _ => [relTemplate template templateType]
  | content body modelKeys _ _ =>
    modelKeys.flatMap fun k => ((body.get? k).map ContentValue.texts).getD []

/-- The permission it is checked against. -/
def authPermission : AssetCheck → AssetAuth
  | raw authPermission _ _ _ => authPermission
  | asset _ authPermission _ _ => authPermission
  | content _ _ authPermission _ => authPermission

/-- The options it is checked with. -/
def options : AssetCheck → List AssetOption
  | raw _ _ options _ => options
  | asset _ _ _ options => options
  | content _ _ _ options => options

/-- All assets asked for are allowed. -/
def AllAllowed (check : AssetCheck) : Prop :=
  ∀ a ∈ check.requested, Allowed check.authPermission check.options a

/-- A rejection: status 403, or `False` from the check that does not raise. -/
def Rejects (check : AssetCheck) : Prop :=
  match check with
  | raw _ _ _ false => check.run = .ok (some false)
  | _ => ∃ message description, check.run = .error (.httpDetail 403 message description)

/-- What a check owes: `True` exactly if all requested assets are allowed, otherwise a
rejection. -/
structure Correct (check : AssetCheck) : Prop where
  true_iff : check.run = .ok (some true) ↔ check.AllAllowed
  rejects : ¬ check.AllAllowed → check.Rejects

/-- When it pays. The raw check: the asset is a file that passes the options, or the directory
names it begins with, as texts, and the directories it lies under are either both none or both
some. The check of one asset: never. The check of a content: no asset is asked for, all values
being lists without texts. -/
def Fits : AssetCheck → Prop
  | raw authPermission template options _ =>
    (template ∈ authPermission.allowedAssets.files ∧ ∀ option ∈ options,
        option (.assets authPermission.allowedAssets) (.text template) = none) ∨
      ((∃ d ∈ authPermission.allowedAssets.dirs, startsWith template d = true) ↔
        ∃ d ∈ authPermission.allowedAssets.dirs, Under d template)
  | asset _ _ _ _ => False
  | content body modelKeys _ _ =>
    ∀ k ∈ modelKeys, ∃ items, body.get? k = some (.list items) ∧ ∀ i ∈ items, i = none

end AssetCheck

/-! ## When the checks are correct -/

theorem runOptions_eq (perm : AssetsPermission) (template : String) (raises : Bool)
    (options : List AssetOption) :
    runOptions perm template raises options = .ok true ∧
        (∀ option ∈ options, option (.assets perm) (.text template) = none) ∨
      ¬ (∀ option ∈ options, option (.assets perm) (.text template) = none) ∧
        ∃ mess, runOptions perm template raises options = notAllowed raises template mess := by
  induction options with
  | nil => exact .inl ⟨rfl, nofun⟩
  | cons option options ih =>
    unfold runOptions
    cases hopt : option (.assets perm) (.text template) with
    | none =>
      rcases ih with ⟨hrun, hall⟩ | ⟨hall, mess, hrun⟩
      · exact .inl ⟨hrun, by simpa [hopt] using hall⟩
      · exact .inr ⟨by simpa [hopt] using hall, mess, hrun⟩
    | some mess =>
      refine .inr ⟨fun hall => ?_, some mess, rfl⟩
      rw [hall option List.mem_cons_self] at hopt
      cases hopt

/-- The raw check with its arguments in place: it allows by the texts of the directory names,
or by the files and options. -/
theorem rawVerify_eq (authPermission : AssetAuth) (template : String)
    (options : List AssetOption) (raises : Bool) :
    let byText := ∃ d ∈ authPermission.allowedAssets.dirs, startsWith template d = true
    let byFile := template ∈ authPermission.allowedAssets.files ∧ ∀ option ∈ options,
      option (.assets authPermission.allowedAssets) (.text template) = none
    let r := rawVerifyAssetPermission (.auth authPermission) (.text template) (.list options)
      raises
    (r = .ok true ∧ (byText ∨ byFile)) ∨
      (¬ (byText ∨ byFile) ∧ ∃ mess, r = notAllowed raises template mess) := by
  intro byText byFile r
  have hr : r = if authPermission.allowedAssets.dirs.any (startsWith template) then .ok true
      else if template ∉ authPermission.allowedAssets.files then notAllowed raises template none
      else runOptions authPermission.allowedAssets template raises options := rfl
  by_cases htext : authPermission.allowedAssets.dirs.any (startsWith template) = true
  · rw [if_pos htext] at hr
    exact .inl ⟨hr, .inl (List.any_eq_true.mp htext)⟩
  · rw [if_neg htext] at hr
    have hno : ¬ byText := fun h => htext (List.any_eq_true.mpr h)
    by_cases hfile : template ∈ authPermission.allowedAssets.files
    · rw [if_neg (not_not.mpr hfile)] at hr
      rcases runOptions_eq authPermission.allowedAssets template raises options with
        ⟨hrun, hall⟩ | ⟨hall, mess, hrun⟩
      · exact .inl ⟨hr.trans hrun, .inr ⟨hfile, hall⟩⟩
      · exact .inr ⟨fun h => h.elim hno fun h => hall h.2, mess, hr.trans hrun⟩
    · rw [if_pos hfile] at hr
      exact .inr ⟨fun h => h.elim hno fun h => hfile h.1, none, hr⟩

/-- A refusal is not an admission, and is the rejection that was asked for. -/
theorem raw_rejects {authPermission : AssetAuth} {template : String} {options : List AssetOption}
    {raises : Bool} {mess : Option String}
    (h : rawVerifyAssetPermission (.auth authPermission) (.text template) (.list options) raises =
      notAllowed raises template mess) :
    (AssetCheck.raw authPermission template options raises).Rejects ∧
      (AssetCheck.raw authPermission template options raises).run ≠ .ok (some true) := by
  have hrun : (AssetCheck.raw authPermission template options raises).run =
      (notAllowed raises template mess).map some := by
    rw [← h]
    rfl
  rw [hrun]
  cases raises with
  | true => exact ⟨⟨_, _, hrun⟩, nofun⟩
  | false => exact ⟨hrun, nofun⟩

theorem raw_correct_iff (authPermission : AssetAuth) (template : String)
    (options : List AssetOption) (raises : Bool) :
    (AssetCheck.raw authPermission template options raises).Correct ↔
      (AssetCheck.raw authPermission template options raises).Fits := by
  have hall : (AssetCheck.raw authPermission template options raises).AllAllowed ↔
      Allowed authPermission options template := List.forall_mem_singleton
  unfold Allowed at hall
  unfold AssetCheck.Fits
  rcases rawVerify_eq authPermission template options raises with ⟨hr, hallowed⟩ | ⟨hno, mess, hr⟩
  · have hrun : (AssetCheck.raw authPermission template options raises).run = .ok (some true) := by
      show (rawVerifyAssetPermission _ _ _ _).map some = _
      rw [hr]
      rfl
    constructor
    · intro h
      -- allowed, so the property wants a file or a directory above it
      rcases hall.mp (h.true_iff.mp hrun) with hfile | hunder
      · exact .inl hfile
      · rcases hallowed with htext | hfile
        · exact .inr (iff_of_true htext hunder)
        · exact .inl hfile
    · intro h
      have hok : (AssetCheck.raw authPermission template options raises).AllAllowed := by
        rw [hall]
        rcases h with hfile | hiff
        · exact .inl hfile
        · rcases hallowed with htext | hfile
          · exact .inr (hiff.mp htext)
          · exact .inl hfile
      exact ⟨iff_of_true hrun hok, fun hn => absurd hok hn⟩
  · obtain ⟨hrej, hnot⟩ := raw_rejects hr
    constructor
    · intro h
      -- refused, so no directory may be above it, and none begins its text
      refine .inr (iff_of_false (fun ht => hno (.inl ht)) fun hunder => ?_)
      exact hnot (h.true_iff.mpr (hall.mpr (.inr hunder)))
    · intro h
      have hnone : ¬ (AssetCheck.raw authPermission template options raises).AllAllowed := by
        rw [hall]
        rintro (hfile | hunder)
        · exact hno (.inr hfile)
        · rcases h with hfile | hiff
          · exact hno (.inr hfile)
          · exact hno (.inl (hiff.mpr hunder))
      exact ⟨iff_of_false hnot hnone, fun _ => hrej⟩

/-- The check of one asset subscribes the template. -/
theorem verifyAssetPermission_eq (template : String) (authPermission : AssetAuth)
    (templateType : Option String) (options : List AssetOption) :
    verifyAssetPermission template authPermission templateType options = .error .typeError := rfl

/-- A list with a text in it makes the check of a content subscribe that text. -/
theorem verifyItems_eq (authPermission : AssetAuth) (options : List AssetOption)
    (items : List (Option String)) :
    (verifyItems authPermission options items = .ok () ∧ ∀ i ∈ items, i = none) ∨
      (verifyItems authPermission options items = .error .typeError ∧
        ¬ ∀ i ∈ items, i = none) := by
  induction items with
  | nil => exact .inl ⟨rfl, nofun⟩
  | cons i items ih =>
    cases i with
    | none =>
      rcases ih with ⟨hrun, hnone⟩ | ⟨hrun, hnone⟩
      · exact .inl ⟨hrun, by simpa using hnone⟩
      · exact .inr ⟨hrun, by simpa using hnone⟩
    | some c => exact .inr ⟨rfl, fun h => nomatch h (some c) List.mem_cons_self⟩

/-- A value that asks for nothing: a list without texts. -/
def ContentValue.Textless (value : ContentValue) : Prop :=
  ∃ items, value = .list items ∧ ∀ i ∈ items, i = none

/-- One key of the check of a content: a list without texts is passed over, any other value makes
the call raise something that is no rejection. -/
theorem verifyContent_cons {body : Dict String ContentValue} {k : String} {value : ContentValue}
    (hk : body.get? k = some value) (modelKeys : List String) (authPermission : AssetAuth)
    (options : List AssetOption) :
    (value.Textless ∧ verifyContentAssetPermission body (k :: modelKeys) authPermission options =
        verifyContentAssetPermission body modelKeys authPermission options) ∨
      (¬ value.Textless ∧ ∃ e,
        verifyContentAssetPermission body (k :: modelKeys) authPermission options = .error e ∧
          ∀ message description, e ≠ .httpDetail 403 message description) := by
  have hget : getItem body k = .ok value := by simp [getItem, hk]
  cases value with
  | list items =>
    have hrun : verifyContentAssetPermission body (k :: modelKeys) authPermission options =
        (verifyItems authPermission options items >>= fun _ =>
          verifyContentAssetPermission body modelKeys authPermission options) := by
      rw [verifyContentAssetPermission, hget]
      rfl
    rcases verifyItems_eq authPermission options items with ⟨hitems, hnone⟩ | ⟨hitems, hsome⟩
    · rw [hitems] at hrun
      exact .inl ⟨⟨items, rfl, hnone⟩, hrun⟩
    · rw [hitems] at hrun
      refine .inr ⟨?_, .typeError, hrun, fun _ _ h => by cases h⟩
      rintro ⟨items', h, hnone⟩
      cases h
      exact hsome hnone
  | text s =>
    refine .inr ⟨?_, .typeError, ?_, fun _ _ h => by cases h⟩
    · rintro ⟨items, h, -⟩
      cases h
    · rw [verifyContentAssetPermission, hget]
      rfl
  | other =>
    refine .inr ⟨?_, .httpDetail 500 "Entity not properly accessed" none, ?_, ?_⟩
    · rintro ⟨items, h, -⟩
      cases h
    · rw [verifyContentAssetPermission, hget]
      rfl
    · intro message description h
      cases h

/-- The check of a content either meets only lists without texts, and answers `True`, or raises
something that is no rejection. -/
theorem verifyContent_eq (body : Dict String ContentValue) (modelKeys : List String)
    (authPermission : AssetAuth) (options : List AssetOption) :
    let fits := ∀ k ∈ modelKeys, ∃ items, body.get? k = some (.list items) ∧ ∀ i ∈ items, i = none
    let r := verifyContentAssetPermission body modelKeys authPermission options
    (r = .ok true ∧ fits) ∨
      (¬ fits ∧ ∃ e, r = .error e ∧ ∀ message description, e ≠ .httpDetail 403 message description)
    := by
  intro fits r
  induction modelKeys with
  | nil => exact .inl ⟨rfl, nofun⟩
  | cons k modelKeys ih =>
    have hfits : fits ↔ (∃ items, body.get? k = some (.list items) ∧ ∀ i ∈ items, i = none) ∧
        ∀ k ∈ modelKeys, ∃ items, body.get? k = some (.list items) ∧ ∀ i ∈ items, i = none :=
      List.forall_mem_cons
    cases hk : body.get? k with
    | none =>
      have hr : r = .error .keyError := by
        show verifyContentAssetPermission body (k :: modelKeys) authPermission options = _
        rw [verifyContentAssetPermission, getItem, hk]
        rfl
      refine .inr ⟨fun h => ?_, .keyError, hr, nofun⟩
      obtain ⟨items, hitems, -⟩ := (hfits.mp h).1
      rw [hk] at hitems
      cases hitems
    | some value =>
      have htextless : (∃ items, body.get? k = some (.list items) ∧ ∀ i ∈ items, i = none) ↔
          value.Textless := by
        rw [hk]
        simp only [Option.some.injEq, ContentValue.Textless]
      rw [htextless] at hfits
      rcases verifyContent_cons hk modelKeys authPermission options with
        ⟨hvalue, hrun⟩ | ⟨hvalue, e, hrun, he⟩
      · -- the value asks for nothing, and the other keys decide
        have hr : r = verifyContentAssetPermission body modelKeys authPermission options := hrun
        rw [hr]
        rcases ih with ⟨hok, hall⟩ | ⟨hnot, e, he⟩
        · exact .inl ⟨hok, hfits.mpr ⟨hvalue, hall⟩⟩
        · exact .inr ⟨fun h => hnot (hfits.mp h).2, e, he⟩
      · exact .inr ⟨fun h => hvalue (hfits.mp h).1, e, hrun, he⟩

theorem asset_correct_iff (template : String) (authPermission : AssetAuth)
    (templateType : Option String) (options : List AssetOption) :
    (AssetCheck.asset template authPermission templateType options).Correct ↔
      (AssetCheck.asset template authPermission templateType options).Fits := by
  have hrun : (AssetCheck.asset template authPermission templateType options).run =
      .error .typeError := verifyAssetPermission_eq template authPermission templateType options
  refine ⟨fun h => ?_, nofun⟩
  by_cases hall : (AssetCheck.asset template authPermission templateType options).AllAllowed
  · have htrue := h.true_iff.mpr hall
    rw [hrun] at htrue
    cases htrue
  · obtain ⟨message, description, hrej⟩ := h.rejects hall
    rw [hrun] at hrej
    cases hrej

/-- Lists without texts ask for nothing. -/
theorem content_requested_eq_nil {body : Dict String ContentValue} {modelKeys : List String}
    {authPermission : AssetAuth} {options : List AssetOption}
    (h : (AssetCheck.content body modelKeys authPermission options).Fits) :
    (AssetCheck.content body modelKeys authPermission options).requested = [] := by
  refine List.flatMap_eq_nil_iff.mpr fun k hk => ?_
  obtain ⟨items, hget, hnone⟩ := h k hk
  rw [hget]
  show items.filterMap id = []
  exact List.filterMap_eq_nil_iff.mpr hnone

theorem content_correct_iff (body : Dict String ContentValue) (modelKeys : List String)
    (authPermission : AssetAuth) (options : List AssetOption) :
    (AssetCheck.content body modelKeys authPermission options).Correct ↔
      (AssetCheck.content body modelKeys authPermission options).Fits := by
  rcases verifyContent_eq body modelKeys authPermission options with
    ⟨hr, hfits⟩ | ⟨hnot, e, hr, he⟩
  · have hrun : (AssetCheck.content body modelKeys authPermission options).run =
        .ok (some true) := by
      show (verifyContentAssetPermission body modelKeys authPermission options).map some = _
      rw [hr]
      rfl
    have hall : (AssetCheck.content body modelKeys authPermission options).AllAllowed := by
      intro a ha
      rw [content_requested_eq_nil hfits] at ha
      cases ha
    exact iff_of_true ⟨iff_of_true hrun hall, fun h => absurd hall h⟩ hfits
  · have hrun : (AssetCheck.content body modelKeys authPermission options).run = .error e := by
      show (verifyContentAssetPermission body modelKeys authPermission options).map some = _
      rw [hr]
      rfl
    refine iff_of_false (fun h => ?_) hnot
    by_cases hall : (AssetCheck.content body modelKeys authPermission options).AllAllowed
    · have htrue := h.true_iff.mpr hall
      rw [hrun] at htrue
      cases htrue
    · obtain ⟨message, description, hrej⟩ := h.rejects hall
      rw [hrun] at hrej
      exact he message description (Except.error.inj hrej)

/-- **A check of asset permissions is correct exactly for the calls that fit.** -/
theorem assetCheck_correct_iff (check : AssetCheck) : check.Correct ↔ check.Fits := by
  cases check with
  | raw authPermission template options raises =>
    exact raw_correct_iff authPermission template options raises
  | asset template authPermission templateType options =>
    exact asset_correct_iff template authPermission templateType options
  | content body modelKeys authPermission options =>
    exact content_correct_iff body modelKeys authPermission options

/-- A client restricted to `email/a` is granted `email/ab.html`, and none of the checks of one
asset answers `True`. -/
theorem not_assetCheck_correct :
    ((AssetCheck.raw ⟨[], ["email/a"]⟩ "email/ab.html" [] true).run = .ok (some true) ∧
      ¬ Under "email/a" "email/ab.html") ∧
    (AssetCheck.asset "welcome.html" ⟨["email/welcome.html"], []⟩ (some "email") []).run =
      .error .typeError ∧
    ¬ (∀ check : AssetCheck, check.Correct) := by
  refine ⟨⟨rfl, by decide +kernel⟩, rfl, fun h => ?_⟩
  exact (asset_correct_iff "" ⟨[], []⟩ none []).mp (h _)

end Notifyr
