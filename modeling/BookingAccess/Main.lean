/-
**The command line.**

Reads the arguments, the environment and the configuration file, and prints what the program says.
-/

import BookingAccess.CommandLine.Program
import BookingAccess.Log.Line

namespace BookingAccess

/-- The variables that the configuration looks at. -/
def variableNames : List String :=
  ["EXPIRATION_USER_ID", "EXPIRATION_USER_INFORMATION", "EXPIRATION_ACL", "EXPIRATION_GROUP",
    "AUTHORIZATION_ADMINISTRATOR", "AUTHORIZATION_OPERATOR", "AUTHORIZATION_RESERVATION",
    "LOG_LEVEL", "LOG_FORMAT"].map ("BOOKINGAUTHZ_" ++ ·)

def readEnvironment : IO Environment := do
  let values ← variableNames.mapM fun name => do return (name, ← IO.getEnv name)
  return ⟨fun name => (values.lookup name).join⟩

def fileFault : IO.Error → FileFault
  | .noFileOrDirectory .. => .missing
  | .inappropriateType _ code _ => if code == 21 then .directory else .notDirectory
  | .invalidArgument .. => .nameTooLong
  | error => .other (toString error)

/-- The content of the one file that the arguments name. -/
def readFiles (arguments : List String) : IO Files := do
  match Request.ofArguments arguments with
  | .ok (.run _ (some path)) =>
    match ← (IO.FS.readBinFile path).toBaseIO with
    | .ok content => return fun _ => (String.fromUTF8? content).elim (.error .notText) .ok
    | .error error => return fun _ => .error (fileFault error)
  | _ => return fun _ => .error .missing

/-- Print what the outcome says. -/
def Outcome.print (outcome : Outcome) : IO Unit := do
  outcome.log.forM fun record => IO.println (record.line outcome.logFormat)
  IO.print outcome.output
  match outcome.ending with
  | .done => return ()
  | .failed cause => IO.eprintln ("Error: " ++ cause.message)
  | .misused cause => IO.eprintln ("error: " ++ cause.message)

end BookingAccess

open BookingAccess in
def main (arguments : List String) : IO UInt32 := do
  let outcome := Program.run arguments (← readEnvironment) (← readFiles arguments)
  outcome.print
  return outcome.ending.status.toUInt32
