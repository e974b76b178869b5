/-!
# Command-line arguments

Options may stand before and after the command; an option that is given on both sides counts as it
is given after the command, and one that is given twice on the same side is refused.
-/

namespace EventRelay.CommandLine

/-- What is to be run. -/
inductive Command
  | serve
  | check
  deriving DecidableEq, Repr

namespace Command

/-- All commands, in the order of the help text. -/
def all : List Command :=
  [.serve, .check]

/-- The name of a command. -/
def name : Command → String
  | .serve => "serve"
  | .check => "check"

/-- What a command does. -/
def about : Command → String
  | .serve => "Run the stage server"
  | .check => "Load configuration and routing rules, report problems"

/-- The command of a name. -/
def ofName? (name : String) : Option Command :=
  all.find? fun command => command.name = name

end Command

/-- The options with a value. -/
structure Options where
  config : Option String := none
  logLevel : Option String := none
  deriving DecidableEq, Repr

namespace Options

/-- Options given after the command, with those before it where they are silent. -/
def orElse (after before : Options) : Options :=
  ⟨after.config.or before.config, after.logLevel.or before.logLevel⟩

end Options

/-- What a help text is about. -/
inductive HelpTopic
  | program
  | command (command : Command)
  /-- The request for help itself. -/
  | help
  deriving DecidableEq, Repr

namespace HelpTopic

/-- The topic of a name. -/
def ofName? (name : String) : Option HelpTopic :=
  if name = "help" then some .help else (Command.ofName? name).map .command

end HelpTopic

/-- What the arguments ask for. -/
inductive Invocation
  | run (command : Command) (options : Options)
  | help (topic : HelpTopic)
  | version
  /-- The arguments make no sense. -/
  | refused
  deriving DecidableEq, Repr

namespace Arguments

/-- An option with a value. -/
inductive Key
  | config
  | logLevel
  deriving DecidableEq, Repr

/-- One argument by its form. -/
inductive Form
  /-- An option with a value, which may follow in the next argument. -/
  | option (key : Key) (value : Option String)
  | help
  | version
  /-- The mark after which nothing is an option. -/
  | endOfOptions
  | unknownOption
  | word (text : String)
  deriving DecidableEq, Repr

/-- The form of an option that is spelled out, which may carry a value after an equals sign. -/
def longForm (chars : List Char) : Form :=
  let name := String.ofList (chars.takeWhile (· ≠ '='))
  let value : Option String :=
    match chars.dropWhile (· ≠ '=') with
    | [] => none
    | _ :: rest => some (String.ofList rest)
  if name = "config" then .option .config value
  else if name = "log-level" then .option .logLevel value
  else if name = "help" && value.isNone then .help
  else if name = "version" && value.isNone then .version
  else .unknownOption

/-- The value that directly follows the letter of an option. -/
def attached : List Char → Option String
  | [] => none
  | '=' :: rest => some (String.ofList rest)
  | chars => some (String.ofList chars)

/-- The form of an argument. -/
def form (argument : String) : Form :=
  match argument.toList with
  | ['-', '-'] => .endOfOptions
  | '-' :: '-' :: rest => longForm rest
  | '-' :: 'c' :: rest => .option .config (attached rest)
  | '-' :: 'l' :: rest => .option .logLevel (attached rest)
  | '-' :: 'h' :: _ => .help
  | '-' :: 'V' :: _ => .version
  | '-' :: _ :: _ => .unknownOption
  | _ => .word argument

/-- Whether an argument can be the value of the option before it. -/
def isValue (argument : String) : Bool :=
  match argument.toList with
  | '-' :: _ :: _ => false
  | _ => true

/-- The options with one more, unless it is given already or its value cannot be used. -/
def set? (options : Options) (key : Key) (value : String) : Option Options :=
  match key with
  | .config =>
    if options.config.isSome || value.isEmpty then none
    else some { options with config := some value }
  | .logLevel =>
    if options.logLevel.isSome then none else some { options with logLevel := some value }

/-- The options with one whose value has been the argument after it, if there is such a one. -/
def settle? (options : Options) (waiting : Option (Key × String)) : Option Options :=
  match waiting with
  | none => some options
  | some (key, value) => set? options key value

/-- What a request for help asks for, by the arguments after it. -/
def helpOn : List String → Invocation
  | [] => .help .program
  | [name] => ((HelpTopic.ofName? name).map .help).getD .refused
  | _ => .refused

/-- The run that arguments ask for, unless an option on either side of the command is refused. -/
def finish (before : Option Options) (command : Option Command) (after : Option Options) :
    Invocation :=
  match before, after with
  | some before, some after => .run (command.getD .serve) (after.orElse before)
  | _, _ => .refused

/-- Reads arguments after a command, or before one; `before` are the options before it. An option
whose value is the argument after it is looked at late: not before the next option, and at the end
of its side only when all has been read, so that a request for help may come first. -/
def readFrom (before : Option Options) (command : Option Command) (options : Options)
    (waiting : Option (Key × String)) : List String → Invocation
  | [] => finish before command (settle? options waiting)
  | argument :: rest =>
    match form argument, settle? options waiting with
    | .endOfOptions, settled =>
      if rest.isEmpty then finish before command settled else .refused
    | .word text, settled =>
      if command.isSome then .refused
      else if text = "help" then helpOn rest
      else
        match Command.ofName? text with
        | some command => readFrom settled (some command) {} none rest
        | none => .refused
    | .help, some _ => .help ((command.map .command).getD .program)
    | .version, some _ => if command.isNone then .version else .refused
    | .option key (some value), some settled =>
      match set? settled key value with
      | some options => readFrom before command options none rest
      | none => .refused
    | .option key none, some settled =>
      match rest with
      | [] => .refused
      | value :: others =>
        if isValue value then readFrom before command settled (some (key, value)) others
        else .refused
    | _, _ => .refused

/-- What a list of arguments asks for. -/
def read (arguments : List String) : Invocation :=
  readFrom (some {}) none {} none arguments

end Arguments

/-- The name and version of the program. -/
def versionText : String :=
  "rtdl 0.3.0\n"

/-- The lines of the help text on options. -/
def optionHelp : String :=
  "Options:\n" ++
    "  -c, --config <CONFIG>        " ++
    "Path to configuration file (error if specified but not found)\n" ++
    "  -l, --log-level <LOG_LEVEL>  " ++
    "Log level (trace, debug, info, warn, error) or a filter expression. " ++
    "Overrides config file\n" ++
    "  -h, --help                   Print help\n"

/-- What the request for help does. -/
def helpAbout : String :=
  "Print this message or the help of the given subcommand(s)\n"

/-- The help text on a topic. -/
def helpText : HelpTopic → String
  | .command command =>
    command.about ++ "\n\nUsage: rtdl " ++ command.name ++ " [OPTIONS]\n\n" ++ optionHelp
  | .help =>
    helpAbout ++ "\nUsage: rtdl help [COMMAND]...\n\n" ++
      "Arguments:\n  [COMMAND]...  Print help for the subcommand(s)\n"
  | .program =>
    "RTDL - Delta-writer ingestion stage\n\nUsage: rtdl [OPTIONS] [COMMAND]\n\nCommands:\n" ++
      String.join (Command.all.map fun command => "  " ++ command.name ++ "  " ++ command.about ++
        "\n") ++
      "  help   " ++ helpAbout ++ "\n" ++ optionHelp ++
      "  -V, --version                Print version\n"

end EventRelay.CommandLine
