/-
**Administration.**

A caller may switch administration mode on; which mode that gives depends on the policies. System
permissions are asked for as a whole, not for an object.
-/

namespace BookingAccess

/-- The secret that a caller shows. -/
abbrev AccessToken := String

/-- What a caller in administration mode is. -/
inductive AdministrationMode
  | administrator
  | operator
deriving DecidableEq, Inhabited

def AdministrationMode.render : AdministrationMode → String
  | .administrator => "administrator"
  | .operator => "operator"

inductive SystemPermission
  | administration
  | operator
  | reservation
deriving DecidableEq, Inhabited

end BookingAccess
