import Mathlib.Data.List.DropRight
import Mathlib.Data.Set.Basic
import Notifyr.Ressource.AdminRessource
import Notifyr.Runtime.Effect
import Notifyr.Theory.Glob

/-!
# What an update of policies leaves

`_update_policy_model` and `_update_policy` (`app/ressources/admin_ressource.py`), against what
their three modes are meant to leave.

- `PolicyUpdateMode.apply`: what a mode is meant to leave of a set of grants.
- `PolicyInstance`, `ReceivedModel`, `updatePolicyModel`: a policy and its update in memory.
- `Grant`, `PolicyInstance.grants`: what a policy grants, routes by their single operations.
- `contentRight_iff`: for which policies an update leaves what it is meant to.
- `uuidOf`, `updatePolicy`: the rows of a client or a group, for ids as a request spells them.
- `mappingRight_iff`: for which ids an update leaves what it is meant to.
-/

namespace Notifyr

open Theory

/-! ## What a mode is meant to leave -/

namespace PolicyUpdateMode

variable {α β : Type} (mode : PolicyUpdateMode) (current given : Set α)

/-- What a mode is meant to leave, of what there is and what is given. -/
def apply : Set α :=
  match mode with
  | .set => given
  | .merge => current ∪ given
  | .delete => current \ given

/-- To apply an update twice is to apply it once. -/
theorem apply_apply : mode.apply (mode.apply current given) given = mode.apply current given := by
  cases mode with
  | set => rfl
  | merge => exact (Set.union_assoc _ _ _).trans (congrArg _ (Set.union_self _))
  | delete => exact Set.sdiff_sdiff.trans (congrArg _ (Set.union_self _))

/-- A mode does the same to each kind of grant. -/
theorem mem_apply_of_kind (kind : β → α) (b : β) :
    kind b ∈ mode.apply current given ↔
      b ∈ mode.apply {b | kind b ∈ current} {b | kind b ∈ given} := by
  cases mode with
  | set => rfl
  | merge => rfl
  | delete => rfl

end PolicyUpdateMode

/-! ## A policy in memory -/

/-- A member of a list of roles: a text, or a member of `Role`, which no text equals. -/
inductive RoleValue
  | member (role : Role)
  | value (role : Role)
  deriving DecidableEq

/-- The role that is meant. -/
def RoleValue.role : RoleValue → Role
  | member role => role
  | value role => role

/-- An instance of `PolicyORM`. -/
structure PolicyInstance where
  allowedProfiles : List String
  allowedAgents : List String
  allowedRoutes : Dict String RoutePermission
  allowedAssets : List String
  allowedBlogs : List String
  roles : List RoleValue

/-- A policy as it is loaded: the roles of a row are texts. -/
def PolicyORM.loaded (policy : PolicyORM) : PolicyInstance where
  allowedProfiles := policy.allowedProfiles
  allowedAgents := policy.allowedAgents
  allowedRoutes := policy.allowedRoutes
  allowedAssets := policy.allowedAssets
  allowedBlogs := policy.allowedBlogs
  roles := policy.roles.map .value

/-- A `PolicyModel` that was received. The validator `checks_roles` adds `PUBLIC` and makes texts of
the roles; where the request gives none it does not run, and the default stays as it is. -/
structure ReceivedModel where
  model : PolicyModel
  rolesGiven : Bool
  checks_roles : Role.PUBLIC ∈ model.roles ∧ (rolesGiven = false → model.roles = [.PUBLIC])

/-- `model.roles`. -/
def ReceivedModel.roles (received : ReceivedModel) : List RoleValue :=
  received.model.roles.map (if received.rolesGiven then .value else .member)

/-- The update of a list. -/
def updateList {α : Type} [DecidableEq α] (order : SetOrder) (mode : PolicyUpdateMode)
    (current given : List α) : List α :=
  match mode with
  | .merge => order.enum (given ++ current).dedup
  | .set => given
  | .delete => order.enum (current.dedup.filter (· ∉ given))

/-- The update of the routes. -/
def updateRoutes (mode : PolicyUpdateMode) (current given : Dict String RoutePermission) :
    Dict String RoutePermission :=
  match mode with
  | .merge => given.entries.foldl (fun d e => d.set e.1 e.2) current
  | .set => given
  | .delete => .ofEntries (current.entries.filter fun e => e.1 ∉ given.keys)

/-- `_update_policy_model`. The blogs are in none of its branches. -/
def PolicyInstance.updatePolicyModel (order : SetOrder) (received : ReceivedModel)
    (mode : PolicyUpdateMode) (policy : PolicyInstance) : PolicyInstance :=
  { policy with
    allowedAssets := updateList order mode policy.allowedAssets received.model.allowedAssets
    allowedProfiles := updateList order mode policy.allowedProfiles received.model.allowedProfiles
    allowedAgents := updateList order mode policy.allowedAgents received.model.allowedAgents
    roles := updateList order mode policy.roles received.roles
    allowedRoutes := updateRoutes mode policy.allowedRoutes received.model.allowedRoutes }

/-! ## What a policy grants -/

/-- A single grant; of a route, one operation of one class. -/
inductive Grant
  | role (role : Role)
  | asset (asset : String)
  | profile (profile : String)
  | agent (agent : String)
  | blog (blog : String)
  | operation (className operationId : String)

/-- Routes grant an operation of a class. -/
def Operates (routes : Dict String RoutePermission) (op : String × String) : Prop :=
  ∃ r, routes.get? op.1 = some r ∧ r.Allows op.2

/-- What a policy grants. -/
def PolicyInstance.grants (policy : PolicyInstance) : Set Grant := fun
  | .role role => ∃ v ∈ policy.roles, v.role = role
  | .asset asset => asset ∈ policy.allowedAssets
  | .profile profile => profile ∈ policy.allowedProfiles
  | .agent agent => agent ∈ policy.allowedAgents
  | .blog blog => blog ∈ policy.allowedBlogs
  | .operation className operationId => Operates policy.allowedRoutes (className, operationId)

/-- What an update is given. -/
def ReceivedModel.grants (received : ReceivedModel) : Set Grant := fun
  | .role role => ∃ v ∈ received.roles, v.role = role
  | .asset asset => asset ∈ received.model.allowedAssets
  | .profile profile => profile ∈ received.model.allowedProfiles
  | .agent agent => agent ∈ received.model.allowedAgents
  | .blog blog => blog ∈ received.model.allowedBlog
  | .operation className operationId =>
    Operates received.model.allowedRoutes (className, operationId)

/-- The update leaves what its mode is meant to, and twice the same. -/
def ContentRight (order : SetOrder) (received : ReceivedModel) (mode : PolicyUpdateMode)
    (policy : PolicyInstance) : Prop :=
  let update := PolicyInstance.updatePolicyModel order received mode
  (update policy).grants = mode.apply policy.grants received.grants ∧
    (update (update policy)).grants = (update policy).grants

/-! ## Field by field -/

section Fields

variable {order : SetOrder} {mode : PolicyUpdateMode}

/-- Every list that is updated is left as it is meant to be. -/
theorem mem_updateList {α : Type} [DecidableEq α] {current given : List α} {x : α} :
    x ∈ updateList order mode current given ↔
      x ∈ mode.apply {x | x ∈ current} {x | x ∈ given} := by
  cases mode with
  | set => rfl
  | merge =>
    unfold updateList
    rw [SetOrder.mem_enum, List.mem_dedup, List.mem_append, or_comm]
    rfl
  | delete =>
    unfold updateList
    rw [SetOrder.mem_enum, List.mem_filter, List.mem_dedup, decide_eq_true_iff]
    rfl

/-- Blogs that a mode is meant to leave as they are. -/
def BlogsKept (mode : PolicyUpdateMode) (current given : List String) : Prop :=
  match mode with
  | .set => ∀ b, b ∈ current ↔ b ∈ given
  | .merge => ∀ b ∈ given, b ∈ current
  | .delete => ∀ b ∈ given, b ∉ current

theorem blogsKept_iff {current given : List String} :
    BlogsKept mode current given ↔
      ∀ b, b ∈ current ↔ b ∈ mode.apply {b | b ∈ current} {b | b ∈ given} := by
  cases mode with
  | set => rfl
  | merge => exact forall_congr' fun b => ⟨fun h => ⟨Or.inl, fun hb => hb.elim id h⟩,
      fun h hb => h.mpr (Or.inr hb)⟩
  | delete => exact forall_congr' fun b => ⟨fun h => ⟨fun hb => ⟨hb, fun hg => h hg hb⟩, And.left⟩,
      fun h hg hb => (h.mp hb).2 hg⟩

/-- Roles that are taken away are spelled as the policy spells them. -/
def RolesSpelled (current given : List RoleValue) : Prop :=
  ∀ v ∈ current, (∃ w ∈ given, w.role = v.role) → v ∈ given

variable (order) in
theorem rolesSpelled_iff {current given : List RoleValue} :
    (mode = .delete → RolesSpelled current given) ↔
      ∀ role, (∃ v ∈ updateList order mode current given, v.role = role) ↔
        role ∈ mode.apply {role | ∃ v ∈ current, v.role = role}
          {role | ∃ v ∈ given, v.role = role} := by
  simp only [mem_updateList]
  cases mode with
  | set => exact iff_of_true nofun fun _ => Iff.rfl
  | merge =>
    refine iff_of_true nofun fun role => ?_
    constructor
    · rintro ⟨v, hv | hv, hrole⟩
      · exact Or.inl ⟨v, hv, hrole⟩
      · exact Or.inr ⟨v, hv, hrole⟩
    · rintro (⟨v, hv, hrole⟩ | ⟨v, hv, hrole⟩)
      · exact ⟨v, Or.inl hv, hrole⟩
      · exact ⟨v, Or.inr hv, hrole⟩
  | delete =>
    constructor
    · intro h role
      constructor
      · rintro ⟨v, ⟨hv, hnot⟩, rfl⟩
        exact ⟨⟨v, hv, rfl⟩, fun hw => hnot (h rfl v hv hw)⟩
      · rintro ⟨⟨v, hv, rfl⟩, hnot⟩
        exact ⟨v, ⟨hv, fun hg => hnot ⟨v, hg, rfl⟩⟩, rfl⟩
    · intro h _ v hv hw
      by_contra hnot
      exact ((h v.role).mp ⟨v, ⟨hv, hnot⟩, rfl⟩).2 hw

/-- What a class is left with. -/
theorem get?_updateRoutes {current given : Dict String RoutePermission} (k : String) :
    (updateRoutes mode current given).get? k =
      match mode with
      | .set => given.get? k
      | .merge => (given.get? k).or (current.get? k)
      | .delete => if k ∈ given.keys then none else current.get? k := by
  cases mode with
  | set => rfl
  | merge => exact Dict.get?_foldl_set given.nodup current k
  | delete =>
    let kept : Dict String RoutePermission :=
      ⟨current.entries.filter fun e => e.1 ∉ given.keys,
        (List.filter_sublist.map Prod.fst).nodup current.nodup⟩
    have hkept : (updateRoutes .delete current given).get? k = kept.get? k :=
      Dict.get?_ofEntries kept.nodup k
    rw [hkept]
    refine Option.ext fun r => ?_
    rw [← Dict.mem_entries_iff]
    change (k, r) ∈ current.entries.filter _ ↔ _
    rw [List.mem_filter, Dict.mem_entries_iff, decide_eq_true_iff]
    dsimp only
    split_ifs with hk
    · exact iff_of_false (fun h => h.2 hk) id
    · exact and_iff_left hk

/-- The operations of a class that both name are all given. -/
def RoutesCovered (current given : Dict String RoutePermission) : Prop :=
  ∀ k r r', current.get? k = some r → given.get? k = some r' → ∀ op, r.Allows op → r'.Allows op

theorem operates_iff {routes : Dict String RoutePermission} {k op : String} :
    Operates routes (k, op) ↔ ∃ r ∈ routes.get? k, r.Allows op := Iff.rfl

/-- Routes are left as they are meant to be where no class loses an operation that is not given: a
class that both name is replaced, and one that is to lose some operations loses them all. -/
theorem routesCovered_iff {current given : Dict String RoutePermission} :
    (mode ≠ .set → RoutesCovered current given) ↔
      ∀ op, Operates (updateRoutes mode current given) op ↔
        op ∈ mode.apply {op | Operates current op} {op | Operates given op} := by
  constructor
  · rintro h ⟨k, op⟩
    rw [operates_iff, get?_updateRoutes]
    cases mode with
    | set => rfl
    | merge =>
      change _ ↔ Operates current (k, op) ∨ Operates given (k, op)
      rw [operates_iff, operates_iff]
      dsimp only
      cases hgiven : given.get? k with
      | none => simp
      | some r' =>
        rw [Option.some_or]
        constructor
        · rintro ⟨r, hr, hop⟩
          exact Or.inr ⟨r, hr, hop⟩
        · rintro (⟨r, hr, hop⟩ | ⟨r, hr, hop⟩)
          · exact ⟨r', rfl, h (by decide) k r r' hr hgiven op hop⟩
          · exact ⟨r, hr, hop⟩
    | delete =>
      change _ ↔ Operates current (k, op) ∧ ¬ Operates given (k, op)
      rw [operates_iff, operates_iff]
      dsimp only
      split_ifs with hk
      · obtain ⟨r', hr'⟩ := (Dict.mem_keys_iff given k).mp hk
        refine iff_of_false ?_ ?_
        · rintro ⟨r, hr, -⟩
          exact Option.not_mem_none r hr
        · rintro ⟨⟨r, hr, hop⟩, hnot⟩
          exact hnot ⟨r', hr', h (by decide) k r r' hr hr' op hop⟩
      · have hnone := (Dict.not_mem_keys_iff given k).mp hk
        refine ⟨fun hop => ⟨hop, ?_⟩, And.left⟩
        rw [hnone]
        rintro ⟨r, hr, -⟩
        exact Option.not_mem_none r hr
  · intro h hmode k r r' hr hr' op hop
    have hiff := h (k, op)
    rw [operates_iff, get?_updateRoutes] at hiff
    cases mode with
    | set => exact absurd rfl hmode
    | merge =>
      dsimp only at hiff
      rw [hr'] at hiff
      obtain ⟨_, heq, hop'⟩ := hiff.mpr (Or.inl ⟨r, hr, hop⟩)
      cases heq
      exact hop'
    | delete =>
      dsimp only at hiff
      rw [if_pos ((Dict.mem_keys_iff given k).mpr ⟨r', hr'⟩)] at hiff
      by_contra hnot
      have hgiven : ¬ Operates given (k, op) := by
        rintro ⟨r'', hr'', hop'⟩
        exact hnot (Option.some.inj (hr''.symm.trans hr') ▸ hop')
      obtain ⟨_, heq, -⟩ := hiff.mpr ⟨⟨r, hr, hop⟩, hgiven⟩
      cases heq

end Fields

/-! ## The policy as a whole -/

/-- A policy that an update can be applied to as its mode is meant. -/
structure UpdateFits (received : ReceivedModel) (mode : PolicyUpdateMode)
    (policy : PolicyInstance) : Prop where
  blogs : BlogsKept mode policy.allowedBlogs received.model.allowedBlog
  roles : mode = .delete → RolesSpelled policy.roles received.roles
  routes : mode ≠ .set → RoutesCovered policy.allowedRoutes received.model.allowedRoutes

variable {order : SetOrder} {received : ReceivedModel} {mode : PolicyUpdateMode}
  {policy : PolicyInstance}

variable (order) in
/-- What an update leaves is what is meant exactly where the policy fits. -/
theorem updateFits_iff :
    UpdateFits received mode policy ↔
      (policy.updatePolicyModel order received mode).grants =
        mode.apply policy.grants received.grants := by
  rw [Set.ext_iff]
  constructor
  · rintro ⟨hblogs, hroles, hroutes⟩ g
    cases g with
    | role role =>
      rw [mode.mem_apply_of_kind _ _ Grant.role]
      exact (rolesSpelled_iff order).mp hroles role
    | asset asset =>
      rw [mode.mem_apply_of_kind _ _ Grant.asset]
      exact mem_updateList
    | profile profile =>
      rw [mode.mem_apply_of_kind _ _ Grant.profile]
      exact mem_updateList
    | agent agent =>
      rw [mode.mem_apply_of_kind _ _ Grant.agent]
      exact mem_updateList
    | blog blog =>
      rw [mode.mem_apply_of_kind _ _ Grant.blog]
      exact blogsKept_iff.mp hblogs blog
    | operation className operationId =>
      rw [mode.mem_apply_of_kind _ _ (fun op : String × String => Grant.operation op.1 op.2)
        (className, operationId)]
      exact routesCovered_iff.mp hroutes (className, operationId)
  · intro h
    refine ⟨blogsKept_iff.mpr fun b => ?_, (rolesSpelled_iff order).mpr fun role => ?_,
      routesCovered_iff.mpr fun op => ?_⟩
    · exact (h (.blog b)).trans (mode.mem_apply_of_kind _ _ Grant.blog b)
    · exact (h (.role role)).trans (mode.mem_apply_of_kind _ _ Grant.role role)
    · exact (h (.operation op.1 op.2)).trans
        (mode.mem_apply_of_kind _ _ (fun op : String × String => Grant.operation op.1 op.2) op)

variable (order) in
/-- An updated policy can be updated again. -/
theorem UpdateFits.again (h : UpdateFits received mode policy) :
    UpdateFits received mode (policy.updatePolicyModel order received mode) := by
  obtain ⟨hblogs, hroles, hroutes⟩ := h
  refine ⟨hblogs, ?_, fun hmode k r r' hr hr' => ?_⟩
  · rintro rfl v hv hw
    have hv : v ∈ updateList order .delete policy.roles received.roles := hv
    obtain ⟨hv, hnot⟩ := mem_updateList.mp hv
    exact absurd (hroles rfl v hv hw) hnot
  · have hr : (updateRoutes mode policy.allowedRoutes received.model.allowedRoutes).get? k =
        some r := hr
    rw [get?_updateRoutes] at hr
    cases mode with
    | set => exact absurd rfl hmode
    | merge =>
      dsimp only at hr
      rw [hr'] at hr
      cases hr
      exact fun _ hop => hop
    | delete =>
      dsimp only at hr
      rw [if_pos ((Dict.mem_keys_iff _ k).mpr ⟨r', hr'⟩)] at hr
      cases hr

/-- An update is right exactly where the policy fits it. -/
theorem contentRight_iff : ContentRight order received mode policy ↔
    UpdateFits received mode policy := by
  constructor
  · exact fun h => (updateFits_iff order).mpr h.1
  · intro h
    have hgrants := (updateFits_iff order).mp h
    refine ⟨hgrants, ?_⟩
    rw [(updateFits_iff order).mp (h.again order), hgrants,
      PolicyUpdateMode.apply_apply]

/-- Roles that are all texts stay texts. -/
theorem mem_updateList_value {current given : List Role} {v : RoleValue} :
    v ∈ updateList order mode (current.map .value) (given.map .value) ↔
      v ∈ (updateList order mode current given).map RoleValue.value := by
  have hvalue (role : Role) (roles : List Role) :
      RoleValue.value role ∈ roles.map .value ↔ role ∈ roles :=
    List.mem_map_of_injective fun _ _ h => RoleValue.value.inj h
  have hmember (role : Role) (roles : List Role) : RoleValue.member role ∉ roles.map .value := by
    intro h
    obtain ⟨_, -, h⟩ := List.mem_map.mp h
    cases h
  rw [mem_updateList]
  cases v with
  | value role =>
    rw [hvalue, mem_updateList, mode.mem_apply_of_kind _ _ RoleValue.value]
    simp only [Set.mem_ofPred_eq, hvalue]
  | member role =>
    refine iff_of_false (fun h => ?_) (hmember role _)
    cases mode with
    | set => exact hmember role _ h
    | merge => exact h.elim (hmember role _) (hmember role _)
    | delete => exact hmember role _ h.1

/-- The update of the tables grants what the one in memory grants, where the request gives the
roles. -/
theorem updatePolicyModel_grants (hgiven : received.rolesGiven = true) (policy : PolicyORM) :
    (policy.loaded.updatePolicyModel order received mode).grants =
      (PolicyRessource.updatePolicyModel order received.model mode policy).loaded.grants := by
  have hroles : received.roles = received.model.roles.map .value := by
    unfold ReceivedModel.roles
    rw [hgiven]
    rfl
  have hrole (role : Role) :
      (∃ v ∈ updateList order mode (policy.roles.map .value) received.roles, v.role = role) ↔
        ∃ v ∈ (updateList order mode policy.roles received.model.roles).map RoleValue.value,
          v.role = role := by
    simp only [hroles, mem_updateList_value]
  refine Set.ext fun g => ?_
  cases mode with
  | set =>
    cases g with
    | role role => exact hrole role
    | _ => rfl
  | merge =>
    cases g with
    | role role => exact hrole role
    | _ => rfl
  | delete =>
    cases g with
    | role role => exact hrole role
    | _ => rfl

/-! ## The rows of a client or a group -/

/-- A hexadecimal digit. -/
def isHexDigit (c : Char) : Bool :=
  c.isDigit || decide ('a' ≤ c) && decide (c ≤ 'f') || decide ('A' ≤ c) && decide (c ≤ 'F')

/-- 32 digits in the form `8-4-4-4-12`. -/
def hyphenated (hex : List Char) : List Char :=
  hex.take 8 ++ '-' :: (hex.drop 8).take 4 ++ '-' :: (hex.drop 12).take 4 ++
    '-' :: (hex.drop 16).take 4 ++ '-' :: hex.drop 20

/-- `UUID(text)`, as the text it is written with: braces, hyphens and the prefix of a URN are
optional, and digits of either case are the same. -/
def uuidOf (text : String) : Py String :=
  let hex := removeWord "uuid:".toList (removeWord "urn:".toList text.toList)
  let brace (c : Char) : Bool := c = '{' || c = '}'
  let hex := ((hex.dropWhile brace).rdropWhile brace).filter (· ≠ '-')
  if hex.length = 32 && hex.all isHexDigit then
    .ok (String.ofList (hyphenated (hex.map Char.toLower)))
  else .error .valueError

/-- A policy id in a set: a text of the request, or the `UUID` of a row, which no text equals. -/
inductive PolicyKey
  | str (text : String)
  | uuid (policyId : String)
  deriving DecidableEq

/-- `_update_policy`, for the client or the group that is given. -/
def updatePolicy (order : SetOrder) (policyIds : List String) (mode : PolicyUpdateMode)
    (holder : Listee) (db : SecurityDb) : Py SecurityDb :=
  let currentPolicies := db.mappings.filter fun m => m.holder = holder
  match mode with
  | .delete => do
    let ids ← policyIds.mapM uuidOf
    return { db with mappings := db.mappings.filter fun m =>
      ¬ (m.holder = holder ∧ m.policyId ∈ ids) }
  | .merge => do
    let currentPolicyIds := currentPolicies.map fun pm => PolicyKey.uuid pm.policyId
    let newPolicyIds := order.enum
      (policyIds.dedup.filter fun pid => PolicyKey.str pid ∉ currentPolicyIds)
    let ids ← newPolicyIds.mapM uuidOf
    insertMappings holder ids db
  | .set => do
    let ids ← policyIds.mapM uuidOf
    insertMappings holder ids { db with mappings := db.mappings.filter fun m => m.holder ≠ holder }

/-- The ids of the rows are no texts, so nothing is taken from the ids of the request. -/
theorem filter_newPolicyIds (policyIds : List String) (currentPolicies : List PolicyMapping) :
    (policyIds.dedup.filter fun pid =>
      PolicyKey.str pid ∉ currentPolicies.map fun pm => PolicyKey.uuid pm.policyId) =
      policyIds.dedup := by
  refine List.filter_eq_self.mpr fun pid _ => decide_eq_true fun h => ?_
  obtain ⟨_, -, h⟩ := List.mem_map.mp h
  cases h

/-- For a client and ids in the form of the table this is the update the endpoints make. -/
theorem updatePolicy_client {order : SetOrder} {policyIds : List String} {mode : PolicyUpdateMode}
    {clientId : String} {db : SecurityDb} (h : ∀ pid ∈ policyIds, uuidOf pid = .ok pid) :
    updatePolicy order policyIds mode (.client clientId) db =
      updatePolicies order policyIds mode clientId db := by
  have hmapM {ids : List String} (hids : ∀ pid ∈ ids, uuidOf pid = .ok pid) :
      ids.mapM uuidOf = .ok ids := by
    induction ids with
    | nil => rfl
    | cons pid ids ih =>
      obtain ⟨hpid, hrest⟩ := List.forall_mem_cons.mp hids
      rw [List.mapM_cons, hpid, ih hrest]
      rfl
  unfold updatePolicy updatePolicies
  cases mode with
  | delete =>
    rw [hmapM h]
    rfl
  | merge =>
    have hmem (pid : String) (hpid : pid ∈ order.enum policyIds.dedup) : uuidOf pid = .ok pid :=
      h pid (List.mem_dedup.mp ((order.mem_enum _ pid).mp hpid))
    dsimp only
    rw [filter_newPolicyIds, hmapM hmem]
    rfl
  | set =>
    rw [hmapM h]
    rfl

/-- The policies that are mapped to a holder. -/
def mappedTo (db : SecurityDb) (holder : Listee) : Set String :=
  {policyId | ⟨policyId, holder⟩ ∈ db.mappings}

/-- The policies that ids spell. -/
def spelled (policyIds : List String) : Set String :=
  {policyId | ∃ pid ∈ policyIds, uuidOf pid = .ok policyId}

/-- The update ends well, and leaves what its mode is meant to, the rows of the others, and no row
twice. -/
def MappingRight (order : SetOrder) (policyIds : List String) (mode : PolicyUpdateMode)
    (holder : Listee) (db : SecurityDb) : Prop :=
  ∃ db', updatePolicy order policyIds mode holder db = .ok db' ∧
    mappedTo db' holder = mode.apply (mappedTo db holder) (spelled policyIds) ∧
    (∀ other, other ≠ holder → mappedTo db' other = mappedTo db other) ∧ db'.mappings.Nodup

/-- The update can be made again, and leaves the same. -/
def MappingRepeats (order : SetOrder) (policyIds : List String) (mode : PolicyUpdateMode)
    (holder : Listee) (db : SecurityDb) : Prop :=
  ∃ db' db'', updatePolicy order policyIds mode holder db = .ok db' ∧
    updatePolicy order policyIds mode holder db' = .ok db'' ∧
    ∀ other, mappedTo db'' other = mappedTo db' other

/-- Ids that a mode can be given: to be taken away, any that spell an id; to be set, different ones
of policies that exist; to be added, such ones too, of policies that are not mapped yet. -/
def IdsFit (policyIds : List String) (mode : PolicyUpdateMode) (holder : Listee)
    (db : SecurityDb) : Prop :=
  match mode with
  | .delete => ∀ pid ∈ policyIds, ∃ policyId, uuidOf pid = .ok policyId
  | .merge =>
    (∀ pid ∈ policyIds, ∃ policyId, uuidOf pid = .ok policyId ∧
      policyId ∈ db.policies.keys ∧ policyId ∉ mappedTo db holder) ∧
    ∀ pid ∈ policyIds, ∀ pid' ∈ policyIds, uuidOf pid = uuidOf pid' → pid = pid'
  | .set => ∃ ids, policyIds.mapM uuidOf = .ok ids ∧ ids.Nodup ∧ ∀ id ∈ ids, id ∈ db.policies.keys

section Rows

variable {order : SetOrder} {policyIds ids : List String} {mode : PolicyUpdateMode}
  {holder : Listee} {db db' db'' : SecurityDb}

theorem mem_spelled_iff (h : policyIds.mapM uuidOf = .ok ids) (policyId : String) :
    policyId ∈ spelled policyIds ↔ policyId ∈ ids :=
  (mem_mapM_ok_iff h).symm

/-- The rows of a holder that are left. -/
theorem mem_mappedTo_filter {keep : PolicyMapping → Bool} {policyId : String} {other : Listee} :
    policyId ∈ mappedTo { db with mappings := db.mappings.filter keep } other ↔
      policyId ∈ mappedTo db other ∧ keep ⟨policyId, other⟩ = true := List.mem_filter

/-- The rows of a holder after rows were added. -/
theorem mem_mappedTo_append {rows : List PolicyMapping} {policyId : String} {other : Listee} :
    policyId ∈ mappedTo { db with mappings := rows ++ ids.map (⟨·, holder⟩) } other ↔
      ⟨policyId, other⟩ ∈ rows ∨ policyId ∈ ids ∧ other = holder := by
  change (⟨policyId, other⟩ : PolicyMapping) ∈ rows ++ ids.map (⟨·, holder⟩) ↔ _
  rw [List.mem_append, List.mem_map]
  refine or_congr Iff.rfl ⟨?_, ?_⟩
  · rintro ⟨_, hid, heq⟩
    cases heq
    exact ⟨hid, rfl⟩
  · rintro ⟨hid, rfl⟩
    exact ⟨policyId, hid, rfl⟩

/-- Rows of other holders, or for other policies, stay different from those that are added. -/
theorem nodup_append_rows {rows : List PolicyMapping} (hrows : rows.Nodup) (hids : ids.Nodup)
    (hnew : ∀ id ∈ ids, ⟨id, holder⟩ ∉ rows) :
    (rows ++ ids.map (PolicyMapping.mk · holder)).Nodup := by
  refine List.nodup_append.mpr
    ⟨hrows, hids.map fun _ _ h => congrArg PolicyMapping.policyId h, ?_⟩
  rintro m hm _ hm' rfl
  obtain ⟨id, hid, rfl⟩ := List.mem_map.mp hm'
  exact hnew id hid hm

/-! ### What each mode does -/

theorem updatePolicy_delete :
    updatePolicy order policyIds .delete holder db = .ok db' ↔
      ∃ ids, policyIds.mapM uuidOf = .ok ids ∧ db' = { db with
        mappings := db.mappings.filter fun m => ¬ (m.holder = holder ∧ m.policyId ∈ ids) } := by
  refine bind_ok_iff.trans (exists_congr fun ids => and_congr Iff.rfl ?_)
  constructor
  · intro h
    exact (Except.ok.inj h).symm
  · rintro rfl
    rfl

theorem updatePolicy_merge :
    updatePolicy order policyIds .merge holder db = .ok db' ↔
      ∃ ids, (order.enum policyIds.dedup).mapM uuidOf = .ok ids ∧
        insertMappings holder ids db = .ok db' := by
  unfold updatePolicy
  dsimp only
  rw [filter_newPolicyIds, bind_ok_iff]

theorem updatePolicy_set :
    updatePolicy order policyIds .set holder db = .ok db' ↔
      ∃ ids, policyIds.mapM uuidOf = .ok ids ∧ insertMappings holder ids
        { db with mappings := db.mappings.filter fun m => m.holder ≠ holder } = .ok db' :=
  bind_ok_iff

/-- To set a holder's rows takes nothing but different policies that exist. -/
theorem updatePolicy_set_ok (hids : policyIds.mapM uuidOf = .ok ids) (hdistinct : ids.Nodup)
    (hpolicies : ∀ id ∈ ids, id ∈ db.policies.keys) :
    updatePolicy order policyIds .set holder db = .ok { db with
      mappings := (db.mappings.filter fun m => m.holder ≠ holder) ++ ids.map (⟨·, holder⟩) } := by
  refine updatePolicy_set.mpr ⟨ids, hids, insertMappings_ok_iff.mpr ⟨hdistinct, ?_, rfl⟩⟩
  intro id hid
  refine ⟨hpolicies id hid, fun hm => ?_⟩
  exact of_decide_eq_true (List.mem_filter.mp hm).2 rfl

/-! ### One update -/

/-- Ids that are all well spelled are taken away. -/
theorem mappingRight_delete (hnodup : db.mappings.Nodup) :
    MappingRight order policyIds .delete holder db ↔ IdsFit policyIds .delete holder db := by
  change _ ↔ ∀ pid ∈ policyIds, ∃ policyId, uuidOf pid = .ok policyId
  rw [← exists_mapM_ok_iff]
  constructor
  · rintro ⟨db', hdb', -⟩
    obtain ⟨ids, hids, -⟩ := updatePolicy_delete.mp hdb'
    exact ⟨ids, hids⟩
  · rintro ⟨ids, hids⟩
    refine ⟨_, updatePolicy_delete.mpr ⟨ids, hids, rfl⟩, Set.ext fun policyId => ?_,
      fun other hother => Set.ext fun policyId => ?_, hnodup.filter _⟩
    · rw [mem_mappedTo_filter]
      change _ ↔ policyId ∈ mappedTo db holder ∧ policyId ∉ spelled policyIds
      rw [mem_spelled_iff hids]
      simp
    · rw [mem_mappedTo_filter]
      simp [hother]

/-- Different ids of policies that are not mapped yet are added. -/
theorem mappingRight_merge (hnodup : db.mappings.Nodup) :
    MappingRight order policyIds .merge holder db ↔ IdsFit policyIds .merge holder db := by
  have hmem (pid : String) : pid ∈ order.enum policyIds.dedup ↔ pid ∈ policyIds := by
    rw [SetOrder.mem_enum, List.mem_dedup]
  have hdistinct : (order.enum policyIds.dedup).Nodup :=
    (order.perm _).nodup_iff.mpr (List.nodup_dedup _)
  constructor
  · rintro ⟨db', hdb', -⟩
    obtain ⟨ids, hids, hinsert⟩ := updatePolicy_merge.mp hdb'
    obtain ⟨hnew, hall, -⟩ := insertMappings_ok_iff.mp hinsert
    refine ⟨fun pid hpid => ?_, fun pid hpid pid' hpid' => ?_⟩
    · have hpid := (hmem pid).mpr hpid
      obtain ⟨id, hid⟩ := exists_mapM_ok_iff.mp ⟨ids, hids⟩ pid hpid
      exact ⟨id, hid, hall id ((mem_mapM_ok_iff hids).mpr ⟨pid, hpid, hid⟩)⟩
    · exact (nodup_mapM_iff hdistinct hids).mp hnew pid ((hmem pid).mpr hpid) pid'
        ((hmem pid').mpr hpid')
  · rintro ⟨hall, hinj⟩
    obtain ⟨ids, hids⟩ := exists_mapM_ok_iff.mpr fun pid hpid =>
      (hall pid ((hmem pid).mp hpid)).imp fun _ h => h.1
    have hspelled (id : String) : id ∈ ids ↔ id ∈ spelled policyIds := by
      rw [mem_mapM_ok_iff hids]
      exact exists_congr fun pid => and_congr_left' (hmem pid)
    have hfit (id : String) (hid : id ∈ ids) :
        id ∈ db.policies.keys ∧ ⟨id, holder⟩ ∉ db.mappings := by
      obtain ⟨pid, hpid, heq⟩ := (hspelled id).mp hid
      obtain ⟨id', heq', hfit⟩ := hall pid hpid
      cases heq.symm.trans heq'
      exact hfit
    have hnew : ids.Nodup := (nodup_mapM_iff hdistinct hids).mpr fun pid hpid pid' hpid' =>
      hinj pid ((hmem pid).mp hpid) pid' ((hmem pid').mp hpid')
    refine ⟨_, updatePolicy_merge.mpr ⟨ids, hids, insertMappings_ok_iff.mpr ⟨hnew, hfit, rfl⟩⟩,
      Set.ext fun policyId => ?_, fun other hother => Set.ext fun policyId => ?_,
      nodup_append_rows hnodup hnew fun id hid => (hfit id hid).2⟩
    · rw [mem_mappedTo_append, hspelled, and_iff_left rfl]
      rfl
    · rw [mem_mappedTo_append]
      exact or_iff_left fun h => hother h.2

/-- Different ids of policies that exist are set. -/
theorem mappingRight_set (hnodup : db.mappings.Nodup) :
    MappingRight order policyIds .set holder db ↔ IdsFit policyIds .set holder db := by
  constructor
  · rintro ⟨db', hdb', -⟩
    obtain ⟨ids, hids, hinsert⟩ := updatePolicy_set.mp hdb'
    obtain ⟨hdistinct, hall, -⟩ := insertMappings_ok_iff.mp hinsert
    exact ⟨ids, hids, hdistinct, fun id hid => (hall id hid).1⟩
  · rintro ⟨ids, hids, hdistinct, hpolicies⟩
    have hothers (policyId : String) (other : Listee) :
        ⟨policyId, other⟩ ∈ (db.mappings.filter fun m => m.holder ≠ holder) ↔
          policyId ∈ mappedTo db other ∧ other ≠ holder := by
      rw [List.mem_filter, decide_eq_true_iff]
      rfl
    refine ⟨_, updatePolicy_set_ok hids hdistinct hpolicies, Set.ext fun policyId => ?_,
      fun other hother => Set.ext fun policyId => ?_,
      nodup_append_rows (hnodup.filter _) hdistinct fun id _ h => ((hothers id holder).mp h).2 rfl⟩
    · rw [mem_mappedTo_append, hothers]
      change _ ↔ policyId ∈ spelled policyIds
      rw [mem_spelled_iff hids]
      simp
    · rw [mem_mappedTo_append, hothers]
      simp [hother]

/-- One update is right exactly where the ids fit. -/
theorem mappingRight_iff (hnodup : db.mappings.Nodup) :
    MappingRight order policyIds mode holder db ↔ IdsFit policyIds mode holder db := by
  cases mode with
  | set => exact mappingRight_set hnodup
  | merge => exact mappingRight_merge hnodup
  | delete => exact mappingRight_delete hnodup

/-! ### Two updates -/

/-- Rows that were added are there, so they cannot be added again. -/
theorem insertMappings_again (hids : ids ≠ []) (h : insertMappings holder ids db = .ok db') :
    insertMappings holder ids db' ≠ .ok db'' := by
  intro h'
  obtain ⟨-, -, rfl⟩ := insertMappings_ok_iff.mp h
  obtain ⟨pid, hpid⟩ := List.exists_mem_of_ne_nil _ hids
  obtain ⟨-, hall, -⟩ := insertMappings_ok_iff.mp h'
  exact (hall pid hpid).2 (List.mem_append_right _ (List.mem_map.mpr ⟨pid, hpid, rfl⟩))

/-- What is added cannot be added twice. -/
theorem eq_nil_of_merge_repeats (h : MappingRepeats order policyIds .merge holder db) :
    policyIds = [] := by
  obtain ⟨db', db'', hdb', hdb'', -⟩ := h
  obtain ⟨ids, hids, hinsert⟩ := updatePolicy_merge.mp hdb'
  obtain ⟨ids', hids', hinsert'⟩ := updatePolicy_merge.mp hdb''
  cases hids.symm.trans hids'
  by_contra hne
  obtain ⟨pid, hpid⟩ := List.exists_mem_of_ne_nil _ hne
  have hmem : pid ∈ order.enum policyIds.dedup :=
    (order.mem_enum _ pid).mpr (List.mem_dedup.mpr hpid)
  obtain ⟨id, hid⟩ := exists_mapM_ok_iff.mp ⟨ids, hids⟩ pid hmem
  have hin : id ∈ ids := (mem_mapM_ok_iff hids).mpr ⟨pid, hmem, hid⟩
  exact insertMappings_again (List.ne_nil_of_mem hin) hinsert hinsert'

/-- An update that takes away or sets can be made again. -/
theorem repeats_of_idsFit (hfit : IdsFit policyIds mode holder db)
    (hmerge : mode = .merge → policyIds = []) :
    MappingRepeats order policyIds mode holder db := by
  cases mode with
  | delete =>
    obtain ⟨ids, hids⟩ := exists_mapM_ok_iff.mpr hfit
    refine ⟨_, _, updatePolicy_delete.mpr ⟨ids, hids, rfl⟩,
      updatePolicy_delete.mpr ⟨ids, hids, rfl⟩, fun other => Set.ext fun policyId => ?_⟩
    rw [mem_mappedTo_filter, mem_mappedTo_filter]
    simp
  | merge =>
    cases hmerge rfl
    have hempty : order.enum ([] : List String).dedup = [] := (order.perm _).eq_nil
    have hnothing : updatePolicy order [] .merge holder db = .ok db := by
      refine updatePolicy_merge.mpr ⟨[], ?_, rfl⟩
      rw [hempty]
      rfl
    exact ⟨db, db, hnothing, hnothing, fun _ => rfl⟩
  | set =>
    obtain ⟨ids, hids, hdistinct, hpolicies⟩ := hfit
    refine ⟨_, _, updatePolicy_set_ok hids hdistinct hpolicies,
      updatePolicy_set_ok hids hdistinct hpolicies, fun other => Set.ext fun policyId => ?_⟩
    rw [mem_mappedTo_append, mem_mappedTo_append, List.mem_filter, List.mem_append, List.mem_filter]
    by_cases hother : other = holder
    · simp [hother]
    · simp [hother, Ne.symm hother]

/-- An update is right, and right again, exactly where the ids fit and nothing is added. -/
theorem mappingRepeats_iff (hnodup : db.mappings.Nodup) :
    MappingRight order policyIds mode holder db ∧ MappingRepeats order policyIds mode holder db ↔
      IdsFit policyIds mode holder db ∧ (mode = .merge → policyIds = []) := by
  rw [mappingRight_iff hnodup]
  constructor
  · rintro ⟨hfit, hrepeats⟩
    refine ⟨hfit, ?_⟩
    rintro rfl
    exact eq_nil_of_merge_repeats hrepeats
  · rintro ⟨hfit, hmerge⟩
    exact ⟨hfit, repeats_of_idsFit hfit hmerge⟩

end Rows

/-! ## Both levels -/

/-- An update of a policy is right exactly where the policy fits it; an update of the rows exactly
where the ids fit, and twice only where it adds nothing. -/
theorem policyUpdate_iff (order : SetOrder) :
    (∀ received mode policy,
      ContentRight order received mode policy ↔ UpdateFits received mode policy) ∧
    (∀ policyIds mode holder (db : SecurityDb), db.mappings.Nodup →
      (MappingRight order policyIds mode holder db ↔ IdsFit policyIds mode holder db) ∧
      (MappingRight order policyIds mode holder db ∧
          MappingRepeats order policyIds mode holder db ↔
        IdsFit policyIds mode holder db ∧ (mode = .merge → policyIds = []))) :=
  ⟨fun _ _ _ => contentRight_iff,
    fun _ _ _ _ hnodup => ⟨mappingRight_iff hnodup, mappingRepeats_iff hnodup⟩⟩

/-- Routes that let one operation of one class through. -/
def singleRoute (operationId : String) : Dict String RoutePermission :=
  .ofEntries [("EmailTemplateRessource",
    { scope := .custom
      customRoutes := [operationId]
      check_model := ⟨nofun, fun _ => List.cons_ne_nil _ _⟩ })]

/-- An update that gives one operation and the role `PUBLIC`. -/
def singleUpdate (operationId : String) : ReceivedModel where
  model :=
    { allowedProfiles := []
      allowedAgents := []
      allowedRoutes := singleRoute operationId
      allowedAssets := []
      allowedBlog := []
      roles := [.PUBLIC] }
  rolesGiven := true
  checks_roles := ⟨List.mem_singleton_self _, nofun⟩

/-- Tables with one policy, which is mapped to one client. -/
def singleMapping (policyId : String) : SecurityDb where
  clients := .empty
  groups := .empty
  blacklist := []
  policies := .ofEntries [(policyId, (singleUpdate "read").model.columns)]
  mappings := [⟨policyId, .client "client"⟩]

/-- An id that is mapped can be taken away. -/
theorem mappingRight_single :
    MappingRight ⟨fun l => l, fun l => .refl l⟩ ["5f0c7d52-8d0b-11ee-b9d1-0242ac120002"] .delete
      (.client "client") (singleMapping "5f0c7d52-8d0b-11ee-b9d1-0242ac120002") :=
  (((policyUpdate_iff _).2 _ _ _ _ (List.nodup_singleton _)).1).mpr
    (List.forall_mem_singleton.mpr ⟨"5f0c7d52-8d0b-11ee-b9d1-0242ac120002", rfl⟩)

/-- To merge another operation of a class into a policy takes the first one from it; and to merge
an id that is mapped raises. -/
theorem not_policyUpdateRight :
    ¬ ContentRight ⟨fun l => l, fun l => .refl l⟩ (singleUpdate "write") .merge
        (singleUpdate "read").model.columns.loaded ∧
      ¬ MappingRight ⟨fun l => l, fun l => .refl l⟩ ["5f0c7d52-8d0b-11ee-b9d1-0242ac120002"] .merge
        (.client "client") (singleMapping "5f0c7d52-8d0b-11ee-b9d1-0242ac120002") := by
  constructor
  · intro h
    have hallows := (contentRight_iff.mp h).routes nofun "EmailTemplateRessource" _ _ rfl rfl "read"
      (Or.inr (List.mem_singleton_self _))
    rcases hallows with h | h
    · cases h
    · exact absurd (List.mem_singleton.mp h) (by decide)
  · rintro ⟨db', h, -⟩
    cases h

end Notifyr
