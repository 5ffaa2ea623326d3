/-
**Loading the configuration.**

The configuration comes from a TOML file, if one is named, is overridden by the environment, and is
then checked: the log level must not be blank, the object types must make a registry, and every
policy must compile. The first fault is reported.

* `Setup.load`: the configuration with its registry;
* `ConfigurationError.message`: the wording of the faults.
-/

import BookingAccess.Configuration.Environment
import BookingAccess.Configuration.Files
import BookingAccess.Configuration.Reading
import BookingAccess.Toml.Document

namespace BookingAccess

inductive PolicyName
  | administrator
  | operator
  | reservation
deriving DecidableEq

def PolicyName.render : PolicyName → String
  | .administrator => "administrator"
  | .operator => "operator"
  | .reservation => "reservation"

/-- What is wrong with the content of a configuration. -/
inductive ConfigurationFault
  | blankLogLevel
  | objectTypes (cause : RegistryError)
  | policy (name : PolicyName) (cause : ExpressionError)
deriving DecidableEq

def ConfigurationFault.message : ConfigurationFault → String
  | .blankLogLevel => "log.level must not be empty"
  | .objectTypes cause => s!"object_types: {cause.message}"
  | .policy name cause => s!"security.authorization.{name.render}: {cause.message}"

inductive ConfigurationError
  | unreadable (path : String) (cause : FileFault)
  /-- The file is no TOML document, or not one of a configuration. -/
  | malformed
  | invalid (fault : ConfigurationFault)
deriving DecidableEq

def ConfigurationError.message : ConfigurationError → String
  | .unreadable path cause => s!"failed to read config file '{path}': {cause.message}"
  | .malformed => "failed to parse TOML config"
  | .invalid fault => s!"config validation failed: {fault.message}"

/-- A configuration that was checked, with its registry. -/
structure Setup where
  configuration : Configuration
  registry : Registry

namespace Setup

/-- Every policy of the configuration has to compile. -/
def checkPolicy (name : PolicyName) (source : Option String) : Except ConfigurationFault Unit :=
  match Policy.compile source with
  | .ok _ => .ok ()
  | .error cause => .error (.policy name cause)

def check (configuration : Configuration) : Except ConfigurationFault Setup := do
  if (Text.trim configuration.log.level).isEmpty then throw .blankLogLevel
  let registry ← configuration.registry.mapError ConfigurationFault.objectTypes
  checkPolicy .administrator configuration.policies.administrator
  checkPolicy .operator configuration.policies.operator
  checkPolicy .reservation configuration.policies.reservation
  return ⟨configuration, registry⟩

/-- The configuration of a file, or the default one where no file is named. -/
def readFile (files : Files) : Option String → Except ConfigurationError Configuration
  | none => .ok {}
  | some path =>
    match files path with
    | .error cause => .error (.unreadable path cause)
    | .ok content =>
      match Toml.read? content >>= Configuration.ofData? with
      | none => .error .malformed
      | some configuration => .ok configuration

def load (files : Files) (environment : Environment) (path : Option String) :
    Except ConfigurationError Setup := do
  let configuration ← readFile files path
  (check (configuration.overriddenBy environment)).mapError .invalid

end Setup

end BookingAccess
