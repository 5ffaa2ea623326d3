/-
**The audit trail.**

Every change of grants and of administration modes leaves an event, and so does every reference to
a group that nobody knows.

* `AuditEvent.fields`, `AuditEvent.message`, `AuditEvent.severity`: what is written down of an event.
-/

import BookingAccess.Administration
import BookingAccess.Entry

namespace BookingAccess

inductive AuditEvent
  | entryCreated (entry : Entry)
  | entryDeleted (entry : Entry)
  | dependencyCreated (dependency : Dependency)
  /-- The child stays although its parent was deleted: another parent holds it. -/
  | childRetained (parent child : Entry)
  | transactionCommitted (added removed : Nat)
  | administrationMode (user : UserId) (mode : Option AdministrationMode)
  | unknownGroupInExpression (name : String)
  | unknownGroupInEntry (group : GroupId)
deriving DecidableEq

inductive Severity
  | info
  | warning
deriving DecidableEq

/-- The value of a field of an event. -/
inductive FieldValue
  | text (value : String)
  | number (value : Nat)
  | boolean (value : Bool)
deriving DecidableEq

def Severity.render : Severity → String
  | .info => "INFO"
  | .warning => "WARN"

namespace AuditEvent

def severity : AuditEvent → Severity
  | .childRetained _ _ => .warning
  | .unknownGroupInExpression _ => .warning
  | .unknownGroupInEntry _ => .warning
  | _ => .info

def message : AuditEvent → String
  | .entryCreated _ => "ACL entry created"
  | .entryDeleted _ => "ACL entry deleted"
  | .dependencyCreated _ => "ACL dependency created"
  | .childRetained _ _ => "ACL entry kept because another parent still references it"
  | .transactionCommitted _ _ => "ACL transaction committed"
  | .administrationMode _ _ => "administration mode updated"
  | .unknownGroupInExpression _ => "expression references unknown group"
  | .unknownGroupInEntry _ => "ACL entry references unknown group"

def entryFields (event : String) (entry : Entry) : List (String × FieldValue) := [
  ("event", .text event),
  ("entry_id", .number entry.id),
  ("identity", .text entry.identity.render),
  ("object", .text entry.object.render),
  ("role", .text entry.role.name)]

def fields : AuditEvent → List (String × FieldValue)
  | .entryCreated entry => entryFields "entry_created" entry
  | .entryDeleted entry => entryFields "entry_deleted" entry
  | .dependencyCreated dependency => [
      ("event", .text "dependency_created"),
      ("parent_entry_id", .number dependency.parent),
      ("child_entry_id", .number dependency.child),
      ("kind", .text dependency.kind.render)]
  | .childRetained parent child => [
      ("event", .text "child_retained"),
      ("parent_entry_id", .number parent.id),
      ("child_entry_id", .number child.id),
      ("child_object", .text child.object.render)]
  | .transactionCommitted added removed => [
      ("event", .text "transaction_committed"),
      ("added", .number added),
      ("removed", .number removed)]
  | .administrationMode user mode => [
      ("event", .text "administration_mode"),
      ("user_id", .text user),
      ("mode", .text (match mode with
        | none => "none"
        | some mode => mode.render))]
  | .unknownGroupInExpression name => [("group", .text name)]
  | .unknownGroupInEntry group => [("group_id", .text group)]

end AuditEvent

end BookingAccess
