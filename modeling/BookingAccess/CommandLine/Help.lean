/-
**Help texts.**

What the program says about itself and its commands.
-/

import BookingAccess.CommandLine.Arguments

namespace BookingAccess

/-- The name and the version of the program. -/
def versionText : String := "bookingauthz 0.1.0\n"

def Command.summary : Command → String
  | .check => "Validate the configuration and evaluate the system expressions"
  | .registry => "Print the object types with their roles and propagation rules"

def Command.name : Command → String
  | .check => "check"
  | .registry => "registry"

def HelpTopic.text : HelpTopic → String
  | .program =>
    "Usage: bookingauthz [OPTIONS] [COMMAND]\n\n" ++
    "Commands:\n" ++
    "  check     " ++ Command.check.summary ++ "\n" ++
    "  registry  " ++ Command.registry.summary ++ "\n" ++
    "  help      Print this message or the help of the given subcommand(s)\n\n" ++
    "Options:\n" ++
    "  -c, --config <CONFIG>  \n" ++
    "  -h, --help             Print help\n" ++
    "  -V, --version          Print version\n"
  | .command about =>
    about.summary ++ "\n\n" ++
    "Usage: bookingauthz " ++ about.name ++ " [OPTIONS]\n\n" ++
    "Options:\n" ++
    "  -c, --config <CONFIG>  \n" ++
    "  -h, --help             Print help\n"
  | .help =>
    "Print this message or the help of the given subcommand(s)\n\n" ++
    "Usage: bookingauthz help [COMMAND]...\n\n" ++
    "Arguments:\n" ++
    "  [COMMAND]...  Print help for the subcommand(s)\n"

end BookingAccess
