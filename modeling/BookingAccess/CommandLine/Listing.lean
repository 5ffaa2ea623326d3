/-
**The listing of a registry.**

Classes stand in order, each with its roles and its rules. A role is listed with its permissions,
behind a star if it propagates; a rule with its relation, the class it leads to and its mode.

* `Registry.listing`: the listing, as one text.
-/

import BookingAccess.ObjectType.Registry
import BookingAccess.Text.Quoted

namespace BookingAccess

def Role.shown (role : Role) : String := "Role(" ++ Text.quote role.name ++ ")"

def DependencyKind.shown : DependencyKind → String
  | .cascade => "Cascade"
  | .detach => "Detach"

def RolePropagation.shown : RolePropagation → String
  | .reference => "Reference"
  | .inherit kind substitutes =>
    let pairs := substitutes.toList.map fun (role, other) => role.shown ++ ": " ++ other.shown
    "Inherit \x7b kind: " ++ kind.shown ++ ", substitutes: \x7b" ++
      String.intercalate ", " pairs ++ "\x7d \x7d"

def PropagationRule.listing (rule : PropagationRule) : String :=
  "  " ++ rule.relation ++ " -> " ++ rule.childClass.name ++ " (" ++ rule.roles.shown ++ ")\n"

namespace ObjectType

def roleListing (type : ObjectType) (role : Role) : String :=
  let permissions := ((type.rolePermissions? role).getD ∅).toList.map (·.name)
  let marker := if type.isPropagatable role then "*" else " "
  "  " ++ marker ++ role.name ++ ": " ++ String.intercalate ", " permissions ++ "\n"

def listing (type : ObjectType) : String :=
  type.objectClass.name ++ "\n" ++
    String.join (type.allowedRoles.map type.roleListing) ++
    String.join (type.rules.map PropagationRule.listing)

end ObjectType

def Registry.listing (registry : Registry) : String :=
  String.join (registry.types.values.map ObjectType.listing)

end BookingAccess
