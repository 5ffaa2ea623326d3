/-
**The configuration.**

The configuration says how long answers are kept, gives the texts of the three policies, may
declare the object types, and says how the log is written. Everything has a default.

* `Configuration.registry`: the registry of the declared types, or of the booking types.
-/

import BookingAccess.Expression.Policy
import BookingAccess.ObjectType.Booking

namespace BookingAccess

/-- For how many seconds answers are kept; zero stands for ever. -/
structure Expirations where
  userId : Nat := 300
  userInformation : Nat := 600
  acl : Nat := 300
  group : Nat := 600
deriving DecidableEq, Inhabited

inductive LogFormat
  | json
  | pretty
deriving DecidableEq, Inhabited

def LogFormat.render : LogFormat → String
  | .json => "json"
  | .pretty => "pretty"

/-- The format with this name. -/
def LogFormat.ofName? : String → Option LogFormat
  | "json" => some .json
  | "pretty" => some .pretty
  | _ => none

structure LogSettings where
  format : LogFormat := .json
  /-- Which events are written; `LogFilter.ofText` tells how it is read. -/
  level : String := "info"
deriving DecidableEq, Inhabited

structure Configuration where
  expirations : Expirations := {}
  policies : PolicySources := {}
  /-- The declared types; the booking types are meant where none are declared. -/
  objectTypes : Option (List ObjectType) := none
  log : LogSettings := {}

instance : Inhabited Configuration := ⟨{}⟩

def Configuration.registry (configuration : Configuration) : Except RegistryError Registry :=
  match configuration.objectTypes with
  | none => .ok .booking
  | some types => Registry.ofTypes types

end BookingAccess
