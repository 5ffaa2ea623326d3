/-
**Why a call of the service fails.**

The faults of the expressions, of the store and of the directory come up through the service. A
user or a group that the directory does not know is reported as such; its other faults are kept as
text.
-/

import BookingAccess.Store.Basic
import BookingAccess.Directory.Basic
import BookingAccess.Expression.Basic

namespace BookingAccess

inductive AccessError
  | userNotFound (user : String)
  | groupNotFound (group : String)
  | groupAlreadyExists (name : String)
  | entryNotFound (id : EntryId)
  /-- The entry is the child of another one and cannot be deleted by itself. -/
  | referenced (id : EntryId)
  | invalidRole (object : ObjectRef) (role : Role)
  | unknownObjectClass (objectClass : ObjectClass)
  | transactionActive
  | noTransaction
  | everyoneGroupImmutable
  | expression (cause : ExpressionError)
  | storage (cause : StoreError)
  | provider (cause : String)
deriving DecidableEq

namespace AccessError

def message : AccessError → String
  | .userNotFound user => s!"user '{user}' does not exist"
  | .groupNotFound group => s!"group '{group}' does not exist"
  | .groupAlreadyExists name => s!"group '{name}' already exists"
  | .entryNotFound id => s!"ACL entry {id} does not exist"
  | .referenced id => s!"ACL entry {id} is referenced by a parent entry and cannot be deleted"
  | .invalidRole object role => s!"role '{role.name}' is not allowed on {object.render}"
  | .unknownObjectClass objectClass => s!"object class '{objectClass.name}' is not registered"
  | .transactionActive => "a transaction is already active"
  | .noTransaction => "no transaction is active"
  | .everyoneGroupImmutable => "group everyone cannot be modified"
  | .expression cause => s!"expression error: {cause.message}"
  | .storage cause => s!"storage error: {cause.message}"
  | .provider cause => s!"identity provider error: {cause}"

/-- Is the fault that something asked for does not exist? -/
def isNotFound : AccessError → Bool
  | .userNotFound _ => true
  | .groupNotFound _ => true
  | .entryNotFound _ => true
  | _ => false

def ofDirectory : DirectoryError → AccessError
  | .userNotFound user => .userNotFound user
  | .groupNotFound group => .groupNotFound group
  | .groupAlreadyExists name => .groupAlreadyExists name
  | .invalidToken => .provider DirectoryError.invalidToken.message
  | .unavailable cause => .provider (DirectoryError.unavailable cause).message

end AccessError

end BookingAccess
