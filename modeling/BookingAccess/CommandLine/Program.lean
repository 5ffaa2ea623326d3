/-
**The program.**

The program loads the configuration and lists its registry, or checks it: the three policies are
evaluated for root against an empty directory, and the configuration is reported valid. The program
itself touches nothing; what it would print, log and exit with is its outcome.

* `Program.run`: the outcome for given arguments, environment and files.
-/

import BookingAccess.CommandLine.Help
import BookingAccess.CommandLine.Listing
import BookingAccess.Configuration.Loading
import BookingAccess.Log.Filter
import BookingAccess.Service.SystemAccess

namespace BookingAccess

/-- Why the program fails once it has understood its arguments. -/
inductive ProgramError
  | configuration (cause : ConfigurationError)
  | access (cause : AccessError)
deriving DecidableEq

def ProgramError.message : ProgramError → String
  | .configuration cause => cause.message
  | .access cause => cause.message

inductive Ending
  | done
  | failed (cause : ProgramError)
  | misused (cause : UsageError)
deriving DecidableEq

/-- The exit status of the process. -/
def Ending.status : Ending → Nat
  | .done => 0
  | .failed _ => 1
  | .misused _ => 2

structure Outcome where
  ending : Ending
  /-- What is printed besides the log. -/
  output : String := ""
  log : List LogRecord := []
  logFormat : LogFormat := .json
deriving DecidableEq

namespace Program

/-- Evaluate the policies of the configuration for root. The result comes with the records of what
happened, be it good or bad. -/
def evaluate (setup : Setup) : Except AccessError Service.PolicyCheck × List LogRecord :=
  match Service.init setup.registry setup.configuration.policies .empty .empty .empty with
  | .error cause => (.error (.expression cause), [])
  | .ok service =>
    let (result, service) := Service.checkPolicies.run.run service
    (result, service.trail.reverse.map LogRecord.ofEvent)

def check (setup : Setup) : Outcome :=
  let settings := setup.configuration.log
  let admitted := (LogFilter.ofText settings.level).admits
  let (result, records) := evaluate setup
  match result with
  | .error cause =>
    { ending := .failed (.access cause), log := records.filter admitted
      logFormat := settings.format }
  | .ok policies =>
    let report := LogRecord.validConfiguration setup.registry.classes.length
      policies.administrator policies.operator policies.reservation
    { ending := .done, log := (records ++ [report]).filter admitted
      logFormat := settings.format }

def run (arguments : List String) (environment : Environment) (files : Files) : Outcome :=
  match Request.ofArguments arguments with
  | .error cause => { ending := .misused cause }
  | .ok .version => { ending := .done, output := versionText }
  | .ok (.help topic) => { ending := .done, output := topic.text }
  | .ok (.run command config) =>
    match Setup.load files environment config with
    | .error cause => { ending := .failed (.configuration cause) }
    | .ok setup =>
      match command with
      | .check => check setup
      | .registry => { ending := .done, output := setup.registry.listing }

end Program

end BookingAccess
