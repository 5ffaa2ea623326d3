/-
**Object types.**

The type of a class names the roles that can be granted on its objects, with the permissions that
each gives, says which of them propagate, and along which rules.
-/

import BookingAccess.ObjectType.Rule

namespace BookingAccess

structure ObjectType where
  objectClass : ObjectClass
  /-- The roles of the class, each with its permissions. -/
  roles : Std.ExtTreeMap Role (Std.ExtTreeSet Permission) := ∅
  /-- The roles that propagate to children; all roles of the class where this is not given. -/
  propagatable : Option (Std.ExtTreeSet Role) := none
  rules : List PropagationRule := []
deriving DecidableEq

namespace ObjectType

/-- The type with one more role, or with other permissions for a role that it has. -/
def withRole (type : ObjectType) (role : Role) (permissions : List Permission) : ObjectType :=
  { type with roles := type.roles.insert role (.ofList permissions) }

def withPropagatable (type : ObjectType) (roles : List Role) : ObjectType :=
  { type with propagatable := some (.ofList roles) }

def withRule (type : ObjectType) (rule : PropagationRule) : ObjectType :=
  { type with rules := type.rules ++ [rule] }

def allowedRoles (type : ObjectType) : List Role := type.roles.keys

def allows (type : ObjectType) (role : Role) : Bool := type.roles.contains role

def rolePermissions? (type : ObjectType) (role : Role) : Option (Std.ExtTreeSet Permission) :=
  type.roles[role]?

/-- Every permission that some role of the class gives. -/
def permissions (type : ObjectType) : Std.ExtTreeSet Permission :=
  .ofList (type.roles.toList.flatMap fun (_, permissions) => permissions.toList)

def isPropagatable (type : ObjectType) (role : Role) : Bool :=
  match type.propagatable with
  | some roles => roles.contains role
  | none => type.allows role

end ObjectType

end BookingAccess
