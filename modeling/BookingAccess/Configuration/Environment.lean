/-
**Variables that override the configuration.**

Each number, policy and log setting can be overridden by a variable of the environment. A number
that cannot be read and a format that does not exist leave the configuration as it is; texts are
taken as they stand.

* `Configuration.overriddenBy`: the configuration with the variables that are set.
-/

import BookingAccess.Configuration.Basic
import BookingAccess.Text.Numeral

namespace BookingAccess

/-- The values of the variables that are set. -/
structure Environment where
  value? : String → Option String

namespace Environment

/-- All variables of the configuration have names that start like this. -/
def setting (environment : Environment) (name : String) : Option String :=
  environment.value? ("BOOKINGAUTHZ_" ++ name)

/-- The number that a variable gives, or else the one that was there. -/
def seconds (environment : Environment) (name : String) (given : Nat) : Nat :=
  ((environment.setting name).bind Text.readWord64?).getD given

/-- The text that a variable gives, or else the one that was there. -/
def text (environment : Environment) (name : String) (given : Option String) : Option String :=
  environment.setting name <|> given

end Environment

def Configuration.overriddenBy (configuration : Configuration) (environment : Environment) :
    Configuration :=
  let { expirations, policies, log, .. } := configuration
  { configuration with
    expirations := {
      userId := environment.seconds "EXPIRATION_USER_ID" expirations.userId
      userInformation :=
        environment.seconds "EXPIRATION_USER_INFORMATION" expirations.userInformation
      acl := environment.seconds "EXPIRATION_ACL" expirations.acl
      group := environment.seconds "EXPIRATION_GROUP" expirations.group }
    policies := {
      administrator := environment.text "AUTHORIZATION_ADMINISTRATOR" policies.administrator
      operator := environment.text "AUTHORIZATION_OPERATOR" policies.operator
      reservation := environment.text "AUTHORIZATION_RESERVATION" policies.reservation }
    log := {
      level := (environment.setting "LOG_LEVEL").getD log.level
      format := ((environment.setting "LOG_FORMAT").bind LogFormat.ofName?).getD log.format } }

end BookingAccess
