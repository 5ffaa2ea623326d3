/-
**Reading a configuration from data.**

Every field may be left out, and fields that the configuration does not have are passed over.

* `Configuration.ofData?` reads a configuration.
-/

import BookingAccess.Configuration.Basic
import BookingAccess.ObjectType.Reading

namespace BookingAccess

/-- A number of seconds that may be left out. -/
def secondsField? (fields : List (String × Data)) (name : String) (absent : Nat) : Option Nat :=
  Data.field? fields name absent Data.natural?

def Expirations.ofData? (data : Data) : Option Expirations := do
  let fields ← data.record? .ignored ["user_id", "user_information", "acl", "group"]
  let absent : Expirations := {}
  return {
    userId := ← secondsField? fields "user_id" absent.userId
    userInformation := ← secondsField? fields "user_information" absent.userInformation
    acl := ← secondsField? fields "acl" absent.acl
    group := ← secondsField? fields "group" absent.group }

/-- A text that may be left out. -/
def textField? (fields : List (String × Data)) (name : String) : Option (Option String) :=
  Data.field? fields name none fun data => data.text?.map some

def PolicySources.ofData? (data : Data) : Option PolicySources := do
  let fields ← data.record? .ignored ["administrator", "operator", "reservation"]
  return {
    administrator := ← textField? fields "administrator"
    operator := ← textField? fields "operator"
    reservation := ← textField? fields "reservation" }

/-- The expirations and the policies stand together under `security`. -/
def securityOfData? (data : Data) : Option (Expirations × PolicySources) := do
  let fields ← data.record? .ignored ["expiration", "authorization"]
  return (← Data.field? fields "expiration" {} Expirations.ofData?,
    ← Data.field? fields "authorization" {} PolicySources.ofData?)

/-- A format is given by its name, or as a record or an empty list under its name. -/
def LogFormat.ofData? : Data → Option LogFormat
  | .record [(name, .list [])] => LogFormat.ofName? name
  | data => data.choice? [("json", .json), ("pretty", .pretty)]

def LogSettings.ofData? (data : Data) : Option LogSettings := do
  let fields ← data.record? .ignored ["format", "level"]
  let absent : LogSettings := {}
  return {
    format := ← Data.field? fields "format" absent.format LogFormat.ofData?
    level := ← Data.field? fields "level" absent.level Data.text? }

def Configuration.ofData? (data : Data) : Option Configuration := do
  let fields ← data.record? .ignored ["security", "object_types", "log"]
  let (expirations, policies) ← Data.field? fields "security" ({}, {}) securityOfData?
  return {
    expirations, policies
    objectTypes := ← Data.field? fields "object_types" none fun data =>
      (data.list? (ObjectType.ofData? .ignored)).map some
    log := ← Data.field? fields "log" {} LogSettings.ofData? }

end BookingAccess
