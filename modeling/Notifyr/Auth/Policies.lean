import Notifyr.Auth.Models
import Notifyr.Utils.Paths

/-!
# Combining policies

`get_combined_policies` (`app/depends/funcs_dep.py`) and the reading of its `allowed_routes` by
`JWTRouteHTTPPermission` (`app/decorators/permissions.py`).

- `RouteValue`: what the accumulator `allowed_routes` can hold. A class maps to the very
  `RoutePermission` object of the first policy that names it, so entries are references into
  the policy objects of the call.
- `mergeRoute`: one iteration of the inner loop.
- `getCombinedPolicies`: the function; it also returns the policy objects as it leaves them.
- `routeAllowed`: the permission check on the result.
-/

namespace Notifyr

open Theory

/-- A value of the accumulator `allowed_routes`. -/
inductive RouteValue
  /-- The `RoutePermission` that the policy at this position holds for a class. -/
  | permission (policy : Nat) (className : String)
  | text (s : String)
  | routes (l : List String)
  /-- `list[…]`: a subscripted type, not a list. -/
  | genericAlias
  deriving DecidableEq

/-- The accumulators of `get_combined_policies`, with the policy objects it has awaited. -/
structure Combined where
  policies : List PolicyORM
  roles : List Role
  allowedAssets : List String
  allowedProfiles : List String
  allowedBlogs : List String
  allowedRoutes : Dict String RouteValue
  allowedAgents : List String

/-- One class of one policy. The scope that is read and written when the class is already
there is that of the accumulator itself. -/
def mergeRoute (policy : Nat) (allowedRoutes : Dict String RouteValue) (k : String)
    (r : RoutePermission) : Py (Dict String RouteValue) :=
  if k ∉ allowedRoutes.keys then .ok (allowedRoutes.set k (.permission policy k))
  else
    match r.scope with
    | .all => do
      -- `allowed_routes['scope']`: the key of the class is missing in the source
      let scope ← getItem allowedRoutes "scope"
      if scope ≠ .text "all" then
        return (allowedRoutes.set "scope" (.text "all")).set "custom_routes" (.routes [])
      else return allowedRoutes
    | .custom => do
      let scope ← getItem allowedRoutes "scope"
      if scope = .text "custom" then
        let _ ← getItem allowedRoutes "custom_routes"
        -- `list[set(…)]` subscribes the type `list`
        return allowedRoutes.set "custom_routes" .genericAlias
      else return allowedRoutes

/-- One policy. -/
def mergePolicy (st : Combined) (p : PolicyORM × Nat) : Py Combined := do
  let allowedRoutes ← p.1.allowedRoutes.entries.foldlM
    (fun acc kr => mergeRoute p.2 acc kr.1 kr.2) st.allowedRoutes
  return {
    policies := st.policies
    roles := st.roles ∪ p.1.roles
    allowedAssets := st.allowedAssets ∪ p.1.allowedAssets
    allowedProfiles := st.allowedProfiles ∪ p.1.allowedProfiles
    allowedBlogs := st.allowedBlogs ∪ p.1.allowedBlogs
    allowedRoutes
    allowedAgents := st.allowedAgents ∪ p.1.allowedAgents }

/-- `PolicyMappingORM.filter(client_id=…, group_id=…)`; `None` selects rows without a value. -/
def filterMapping (table : List PolicyMappingORM) (clientId : String) (groupId : Option String) :
    List PolicyMappingORM :=
  -- both columns are asked for, also when the client has a group
  table.filter fun m => m.clientId = some clientId ∧ m.groupId = groupId

/-- The policies of the selected rows, as they are awaited. -/
def loadedPolicies (table : List PolicyMappingORM) (client : ClientRef) : List PolicyORM :=
  (filterMapping table client.clientId client.group).map (·.policy)

/-- `get_combined_policies`. -/
def getCombinedPolicies (order : SetOrder) (table : List PolicyMappingORM)
    (client : ClientRef) : Py Combined := do
  let policies := loadedPolicies table client
  let st ← policies.zipIdx.foldlM mergePolicy
    { policies, roles := [], allowedAssets := [], allowedProfiles := [], allowedBlogs := [],
      allowedRoutes := .empty, allowedAgents := [] }
  return { st with
    roles := order.enum st.roles
    allowedAssets := filterPaths (order.enum st.allowedAssets) '/'
    allowedProfiles := order.enum st.allowedProfiles
    allowedAgents := order.enum st.allowedAgents
    allowedBlogs := order.enum st.allowedBlogs }

/-- The end of `JWTRouteHTTPPermission.permission`, where the role `CUSTOM` is all the client
has. -/
def routeAllowed (auth : Combined) (className operationId : String) : Py Bool :=
  match auth.allowedRoutes.get? className with
  | none => .error (.httpException 403 "Ressource not allowed")
  | some (.permission i k) =>
    match (auth.policies[i]?).bind (·.allowedRoutes.get? k) with
    | none => .error .keyError
    | some routePermission =>
      if routePermission.scope = .all then .ok true
      else if operationId ∉ routePermission.customRoutes then
        .error (.httpException 403 "Route not allowed")
      else .ok true
  | some _ => .error .typeError

/-- The result grants an operation of a resource class. -/
def Combined.Grants (auth : Combined) (className operationId : String) : Prop :=
  routeAllowed auth className operationId = .ok true

end Notifyr
