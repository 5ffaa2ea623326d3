/-
**The registry of object types.**

A registry holds one type for each class that it knows. Types are declared one after another; a
declaration is refused when it declares no role, lets a role propagate that it does not have, or
repeats a class. Once all are declared, every rule has to lead to a class that is.

* `Registry.ofTypes`: the registry of a list of types, or the first fault;
* `RegistryError.message`: the wording of the faults.
-/

import BookingAccess.ObjectType.Basic

namespace BookingAccess

/-- Why a list of types makes no registry. -/
inductive RegistryError
  | duplicateClass (objectClass : ObjectClass)
  | noRoles (objectClass : ObjectClass)
  | propagatableRoleNotAllowed (objectClass : ObjectClass) (role : Role)
  | unknownChildClass (objectClass : ObjectClass) (relation : String) (childClass : ObjectClass)
deriving DecidableEq

def RegistryError.message : RegistryError → String
  | .duplicateClass objectClass =>
    s!"object class '{objectClass.name}' is declared more than once"
  | .noRoles objectClass => s!"object class '{objectClass.name}' does not declare any role"
  | .propagatableRoleNotAllowed objectClass role =>
    s!"propagatable role '{role.name}' is not allowed for object class '{objectClass.name}'"
  | .unknownChildClass objectClass relation childClass =>
    s!"relation '{relation}' of '{objectClass.name}' targets unknown object class " ++
      s!"'{childClass.name}'"

/-- What is wrong with a type by itself. -/
def ObjectType.fault? (type : ObjectType) : Option RegistryError :=
  if type.roles.isEmpty then some (.noRoles type.objectClass)
  else
    ((type.propagatable.getD ∅).toList.find? fun role => !type.allows role).map
      (.propagatableRoleNotAllowed type.objectClass)

structure Registry where
  types : Std.ExtTreeMap ObjectClass ObjectType
deriving DecidableEq

namespace Registry

def empty : Registry := ⟨∅⟩

instance : Inhabited Registry := ⟨empty⟩

def get? (registry : Registry) (objectClass : ObjectClass) : Option ObjectType :=
  registry.types[objectClass]?

def declare (registry : Registry) (type : ObjectType) : Except RegistryError Registry :=
  match type.fault? with
  | some fault => .error fault
  | none =>
    if registry.types.contains type.objectClass then .error (.duplicateClass type.objectClass)
    else .ok ⟨registry.types.insert type.objectClass type⟩

/-- The first rule of the type that leads to a class nobody declared. -/
def danglingRule? (registry : Registry) (type : ObjectType) : Option RegistryError :=
  (type.rules.find? fun rule => !registry.types.contains rule.childClass).map fun rule =>
    .unknownChildClass type.objectClass rule.relation rule.childClass

def ofTypes (types : List ObjectType) : Except RegistryError Registry := do
  let registry ← types.foldlM declare empty
  match registry.types.values.findSome? registry.danglingRule? with
  | some fault => throw fault
  | none => return registry

/-! ### Questions -/

/-- The declared classes in order. -/
def classes (registry : Registry) : List ObjectClass := registry.types.keys

def allowedRoles (registry : Registry) (objectClass : ObjectClass) : List Role :=
  match registry.get? objectClass with
  | some type => type.allowedRoles
  | none => []

def allows (registry : Registry) (objectClass : ObjectClass) (role : Role) : Bool :=
  (registry.get? objectClass).any (·.allows role)

def rolePermissions? (registry : Registry) (objectClass : ObjectClass) (role : Role) :
    Option (Std.ExtTreeSet Permission) :=
  (registry.get? objectClass).bind (·.rolePermissions? role)

/-- The permissions that the role gives on objects of the class. -/
def rolePermissions (registry : Registry) (objectClass : ObjectClass) (role : Role) :
    Std.ExtTreeSet Permission :=
  (registry.rolePermissions? objectClass role).getD ∅

/-- Every permission that some role of the class gives. -/
def permissions (registry : Registry) (objectClass : ObjectClass) : Std.ExtTreeSet Permission :=
  match registry.get? objectClass with
  | some type => type.permissions
  | none => ∅

def isPropagatable (registry : Registry) (objectClass : ObjectClass) (role : Role) : Bool :=
  (registry.get? objectClass).any (·.isPropagatable role)

def rules (registry : Registry) (objectClass : ObjectClass) : List PropagationRule :=
  match registry.get? objectClass with
  | some type => type.rules
  | none => []

/-- What the rule gives on a child when a role is granted on the parent, if the rule leads to a
declared class. -/
def childGrant? (registry : Registry) (rule : PropagationRule) (role : Role) :
    Option (Role × DependencyKind) :=
  (registry.get? rule.childClass).bind fun childType => rule.childGrant? role childType.allows

end Registry

end BookingAccess
