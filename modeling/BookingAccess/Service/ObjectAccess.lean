/-
**Access to objects.**

Whether a caller has a role or a permission on an object follows from the caller's projection.
Administrators and root have all of them everywhere, and operators may read everything.

* `Service.hasRole`, `Service.hasPermission`, `Service.objectPermissions`: on one object;
* `Service.objectsWithRole`, `Service.objectsWithPermission`: all objects of a class;
* `Service.userIdsWithRole`, `Service.usersWithRole`: the holders of a role.
-/

import BookingAccess.Service.Projections
import BookingAccess.Service.SystemAccess

namespace BookingAccess

/-- A set of objects of one class that may be all of them. -/
inductive ObjectIds
  | all
  | only (ids : Std.ExtTreeSet Int)
deriving DecidableEq

def ObjectIds.contains : ObjectIds → Int → Bool
  | .all, _ => true
  | .only ids, id => ids.contains id

namespace Service

def hasUserRole (user : UserId) (object : ObjectRef) (role : Role) : Action Bool := do
  if user == rootUserId then return true
  return (← userProjection user).hasRole object role

def hasUserPermission (user : UserId) (object : ObjectRef) (permission : Permission) :
    Action Bool := do
  if user == rootUserId then return true
  return (← userProjection user).hasPermission object permission

/-- Does the caller's mode alone settle it? Operators may do what reading takes. -/
def modeSuffices (token : AccessToken) (reading : Bool) : Action Bool := do
  if ← isAdministrator token then return true
  if reading then isOperator token else return false

def hasRole (token : AccessToken) (object : ObjectRef) (role : Role) : Action Bool := do
  if ← modeSuffices token (role == .reader) then return true
  hasUserRole (← userId token) object role

def hasPermission (token : AccessToken) (object : ObjectRef) (permission : Permission) :
    Action Bool := do
  if ← modeSuffices token (permission == .read) then return true
  hasUserPermission (← userId token) object permission

/-- Every permission that the caller has on an object. -/
def objectPermissions (token : AccessToken) (object : ObjectRef) :
    Action (Std.ExtTreeSet Permission) := do
  let registry := (← get).registry
  if ← isAdministrator token then return registry.permissions object.objectClass
  let user ← userId token
  if user == rootUserId then return registry.permissions object.objectClass
  let permissions := (← userProjection user).permissions object
  if ← isOperator token then return permissions.insert .read
  return permissions

def objectsWithRole (token : AccessToken) (objectClass : ObjectClass) (role : Role) :
    Action ObjectIds := do
  if ← modeSuffices token (role == .reader) then return .all
  let user ← userId token
  if user == rootUserId then return .all
  return .only ((← userProjection user).objectsWithRole objectClass role)

def objectsWithPermission (token : AccessToken) (objectClass : ObjectClass)
    (permission : Permission) : Action ObjectIds := do
  if ← modeSuffices token (permission == .read) then return .all
  let user ← userId token
  if user == rootUserId then return .all
  return .only ((← userProjection user).objectsWithPermission objectClass permission)

def userIdsWithRole (object : ObjectRef) (role : Role) : Action UserIds := do
  return (← objectProjection object).usersWithRole role

/-- The users among these numbers whom somebody knows. -/
def knownUsers : List UserId → Action (List User)
  | [] => return []
  | user :: users => do
    let found ← tryCatch (some <$> userInformationById user) fun
      | .userNotFound _ => return none
      | fault => throw fault
    let others ← knownUsers users
    return found.toList ++ others

/-- The users who hold a role on an object. Where everyone holds it there is no list, and the
answer is empty. -/
def usersWithRole (object : ObjectRef) (role : Role) : Action (List User) := do
  knownUsers (← userIdsWithRole object role).toList

end Service

end BookingAccess
