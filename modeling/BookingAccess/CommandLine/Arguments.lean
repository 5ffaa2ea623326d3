/-
**The arguments of the program.**

The program takes a command, `check` where none is given, and a configuration file, which may be
named before or behind the command; behind it counts more. The first fault is reported, and a
request for help or for the version is answered as soon as it is met. A file that is named by an
argument of its own is only looked at when the next option, or the end of the arguments, is met.

* `Request.ofArguments`: what the arguments ask for.
-/

namespace BookingAccess

inductive Command
  | check
  | registry
deriving DecidableEq

/-- What help can be asked about. -/
inductive HelpTopic
  | program
  | command (command : Command)
  | help
deriving DecidableEq

inductive Request
  | run (command : Command) (config : Option String)
  | help (topic : HelpTopic)
  | version
deriving DecidableEq

/-- Why arguments cannot be understood. -/
inductive UsageError
  | unexpectedArgument (text : String)
  | unexpectedValue (option : String)
  | missingFile
  | repeatedFile
  | unknownTopic (text : String)
deriving DecidableEq

def UsageError.message : UsageError → String
  | .unexpectedArgument text => s!"unexpected argument '{text}' found"
  | .unexpectedValue option => s!"unexpected value for '{option}' found"
  | .missingFile => "a value is required for '--config <CONFIG>' but none was supplied"
  | .repeatedFile => "the argument '--config <CONFIG>' cannot be used multiple times"
  | .unknownTopic text => s!"unrecognized subcommand '{text}'"

/-! ### Options -/

/-- An option for a configuration file that was met, and whose file is not settled yet. -/
inductive PendingFile
  | none
  /-- The next argument names the file. -/
  | awaited
  | given (path : String)
deriving DecidableEq

/-- The options that were met on one side of the command. -/
structure Options where
  config : Option String := none
  pending : PendingFile := .none
deriving DecidableEq

namespace Options

/-- Take a file; there may be one only, and its name must not be empty. -/
def withFile (options : Options) (path : String) : Except UsageError Options :=
  if path.isEmpty then .error .missingFile
  else if options.config.isSome then .error .repeatedFile
  else .ok { config := some path }

/-- Settle the file of the option that was met last. -/
def settle (options : Options) : Except UsageError Options :=
  match options.pending with
  | .none => .ok options
  | .awaited => .error .missingFile
  | .given path => { options with pending := .none }.withFile path

/-- An option for a file whose name is part of the argument. -/
def attach (options : Options) (path : String) : Except UsageError Options := do
  (← options.settle).withFile path

/-- An option for a file whose name is the next argument. -/
def await (options : Options) : Except UsageError Options := do
  return { (← options.settle) with pending := .awaited }

end Options

/-! ### One argument -/

/-- What an argument does. -/
inductive Effect
  | options (options : Options)
  | help
  | version

/-- Letters behind one hyphen: flags, or `c` with the name of a file. -/
def readLetters (isRoot : Bool) (options : Options) : List Char → Except UsageError Effect
  | 'c' :: [] => do return .options (← options.await)
  | 'c' :: '=' :: path => do return .options (← options.attach (String.ofList path))
  | 'c' :: path => do return .options (← options.attach (String.ofList path))
  | 'h' :: _ => do
    let _ ← options.settle
    return .help
  | 'V' :: letters =>
    if isRoot then do
      let _ ← options.settle
      return .version
    else .error (.unexpectedArgument (String.ofList ('-' :: 'V' :: letters)))
  | letters => .error (.unexpectedArgument (String.ofList ('-' :: letters)))

/-- A word behind two hyphens, with a value behind an equals sign or without. -/
def readWord (isRoot : Bool) (options : Options) (word : String) (value : Option String) :
    Except UsageError Effect :=
  match word, value with
  | "config", some path => do return .options (← options.attach path)
  | "config", none => do return .options (← options.await)
  | "help", none => do
    let _ ← options.settle
    return .help
  | "help", some _ => .error (.unexpectedValue "--help")
  | "version", value =>
    if !isRoot then .error (.unexpectedArgument "--version")
    else if value.isSome then .error (.unexpectedValue "--version")
    else do
      let _ ← options.settle
      return .version
  | word, _ => .error (.unexpectedArgument ("--" ++ word))

/-- An argument that is no command. -/
def readArgument (isRoot : Bool) (options : Options) (text : String) :
    Except UsageError Effect :=
  match text.toList with
  | '-' :: '-' :: chars =>
    let word := String.ofList (chars.takeWhile (· != '='))
    match chars.dropWhile (· != '=') with
    | [] => readWord isRoot options word none
    | _ :: value => readWord isRoot options word (some (String.ofList value))
  | '-' :: c :: letters => readLetters isRoot options (c :: letters)
  | _ =>
    if options.pending = .awaited then
      .ok (.options { options with pending := .given text })
    else .error (.unexpectedArgument text)

/-! ### All arguments -/

/-- What the arguments on one side of the command come to. -/
inductive Reading
  | options (options : Options)
  /-- A word that may be a command, the options before it and the arguments behind it. -/
  | command (options : Options) (command : Command) (rest : List String)
  | helpOn (topics : List String)
  | help
  | version

/-- Behind two hyphens alone there may be no more arguments. -/
def readNothing (options : Options) : List String → Except UsageError Reading
  | [] => .ok (.options options)
  | text :: _ => .error (.unexpectedArgument text)

/-- Read arguments up to a command. Commands stand at the root only, and a word that names a file
is none. -/
def readSide (isRoot : Bool) (options : Options) : List String → Except UsageError Reading
  | [] => .ok (.options options)
  | text :: rest =>
    let mayBeCommand := isRoot && options.pending != .awaited
    if mayBeCommand && text == "check" then .ok (.command options .check rest)
    else if mayBeCommand && text == "registry" then .ok (.command options .registry rest)
    else if mayBeCommand && text == "help" then .ok (.helpOn rest)
    else if text == "--" then readNothing options rest
    else do
      match ← readArgument isRoot options text with
      | .options options => readSide isRoot options rest
      | .help => return .help
      | .version => return .version

/-- The topic that the arguments behind the word `help` name. -/
def HelpTopic.ofArguments : List String → Except UsageError HelpTopic
  | [] => .ok .program
  | ["check"] => .ok (.command .check)
  | ["registry"] => .ok (.command .registry)
  | ["help"] => .ok .help
  | topic :: rest =>
    .error (.unknownTopic (if ["check", "registry", "help"].contains topic then rest.headD ""
      else topic))

namespace Request

/-- The arguments behind a command. -/
def ofCommand (outer : Options) (command : Command) (rest : List String) :
    Except UsageError Request := do
  match ← readSide false {} rest with
  | .options inner =>
    let inner ← inner.settle
    let outer ← outer.settle
    return .run command (inner.config <|> outer.config)
  | _ => return .help (.command command)

def ofArguments (arguments : List String) : Except UsageError Request := do
  match ← readSide true {} arguments with
  | .options options => return .run .check (← options.settle).config
  | .command options command rest => ofCommand options command rest
  | .helpOn topics => return .help (← HelpTopic.ofArguments topics)
  | .help => return .help .program
  | .version => return .version

end Request

end BookingAccess
