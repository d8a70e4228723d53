import Notifyr.Runtime.Python

/-!
# Clients and policies

The records of `app/models/security_model.py` and `app/classes/auth_permission.py` that the
authorisation code reads. A record that the repository validates carries its validity: a route
permission has passed `RoutePermissionModel.check_model`, a mapping row the constraint
`client_xor_group` of `security.sql`.
-/

namespace Notifyr

open Theory

/-- `Role`. -/
inductive Role
  | PUBLIC | STATIC | ADMIN | RELAY | CUSTOM | MFA_OTP | CHAT | RESULT | REFRESH | CONTACTS
  | TWILIO | SUBSCRIPTION | CLIENT | LINK | ASSETS | PROFILE
  deriving DecidableEq, Repr

/-- `PermissionScope`. -/
inductive PermissionScope
  | custom | all
  deriving DecidableEq, Repr

/-- `RoutePermission`, as `RoutePermissionModel` lets it through. -/
structure RoutePermission where
  scope : PermissionScope
  customRoutes : List String
  check_model : (scope = .all → customRoutes = []) ∧ (scope = .custom → customRoutes ≠ [])

/-- The permission lets an operation through. -/
def RoutePermission.Allows (r : RoutePermission) (operationId : String) : Prop :=
  r.scope = .all ∨ operationId ∈ r.customRoutes

/-- Every valid permission lets some operation through. -/
theorem RoutePermission.exists_allows (r : RoutePermission) : ∃ op, r.Allows op := by
  cases h : r.scope with
  | all => exact ⟨"", .inl h⟩
  | custom =>
    obtain ⟨op, hop⟩ := List.exists_mem_of_ne_nil _ (r.check_model.2 h)
    exact ⟨op, .inr hop⟩

/-- `PolicyORM`. -/
structure PolicyORM where
  allowedProfiles : List String
  allowedAgents : List String
  allowedRoutes : Dict String RoutePermission
  allowedAssets : List String
  allowedBlogs : List String
  roles : List Role

/-- A policy grants an operation of a resource class. -/
def PolicyORM.Grants (p : PolicyORM) (className operationId : String) : Prop :=
  ∃ r, p.allowedRoutes.get? className = some r ∧ r.Allows operationId

/-- `PolicyMappingORM`, with the policy its foreign key loads. -/
structure PolicyMappingORM where
  policy : PolicyORM
  clientId : Option String
  groupId : Option String
  client_xor_group :
    (clientId ≠ none ∧ groupId = none) ∨ (clientId = none ∧ groupId ≠ none)

/-- What the policy code reads of a `ClientORM`: its id and the id of its group. -/
structure ClientRef where
  clientId : String
  group : Option String

end Notifyr
