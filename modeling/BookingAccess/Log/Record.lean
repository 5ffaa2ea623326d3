/-
**Log records.**

What the program reports of its work: the events of the audit trail, and its own report on the
configuration. Each record belongs to a target, by which it can be filtered.

* `LogRecord.ofEvent`, `LogRecord.validConfiguration`: the records.
-/

import BookingAccess.Audit

namespace BookingAccess

structure LogRecord where
  severity : Severity
  target : String
  message : String
  fields : List (String × FieldValue)
deriving DecidableEq

namespace LogRecord

def ofEvent (event : AuditEvent) : LogRecord := ⟨event.severity, "acl", event.message, event.fields⟩

/-- The report that the configuration is valid: how many object types there are, and what the
three policies say of root. -/
def validConfiguration (objectTypes : Nat) (administrator operator reservation : Bool) :
    LogRecord where
  severity := .info
  target := "bookingauthz"
  message := "configuration is valid"
  fields := [
    ("object_types", .number objectTypes),
    ("administrator", .boolean administrator),
    ("operator", .boolean operator),
    ("reservation", .boolean reservation)]

end LogRecord

end BookingAccess
