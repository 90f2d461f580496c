/-!
# The command line

The program has commands for generating code, for checking declarations and for the shell. Options
of all commands may stand before the command or after it; where both are given the later one
counts. Each option is given once in each place.
-/

namespace VersionedObjects.Shell

/-- What the program is asked to do. -/
inductive Action where
  | generate (input : String) (output : Option String)
  | check (input : String)
  /-- Runs the lines of a file in the shell. -/
  | script (path : String)
  /-- Runs the shell on the lines of the standard input. -/
  | converse
  deriving DecidableEq, Inhabited, Repr

/-- A command of the program. -/
inductive CommandName where
  | gen
  | check
  | repl
  | help
  deriving DecidableEq, Inhabited, Repr

/-- The name of a command. -/
def CommandName.text : CommandName → String
  | gen => "gen"
  | check => "check"
  | repl => "repl"
  | help => "help"

/-- The command of a name. -/
def CommandName.ofText? (text : String) : Option CommandName :=
  [gen, check, repl, help].find? (·.text == text)

/-- What a command line asks for. -/
inductive Request where
  /-- The help of the program or of a command. -/
  | help (topic : Option CommandName)
  | version
  | run (config : Option String) (action : Action)
  deriving DecidableEq, Inhabited, Repr

/-- Arguments that make no request. -/
inductive UsageError where
  | unexpected (arg : String)
  | repeated (option : String)
  | missingValue (option : String)
  | missing (what : String)
  deriving DecidableEq, Inhabited, Repr

/-- The error as text. -/
def UsageError.text : UsageError → String
  | unexpected arg => "unexpected argument '" ++ arg ++ "' found"
  | repeated option => "the argument '" ++ option ++ "' cannot be used multiple times"
  | missingValue option => "a value is required for '" ++ option ++ "' but none was supplied"
  | missing what => what ++ " was not provided"

/-! ## Arguments -/

/-- The arguments of one place, before the command or after it. -/
structure Given where
  config : Option String := none
  debug : Bool := false
  output : Option String := none
  positional : Option String := none
  deriving DecidableEq, Inhabited, Repr

/-- The result of reading the arguments of one place: what is given and the arguments left, or a
request that needs no more. -/
inductive Reading where
  | given (given : Given) (rest : List String)
  | asked (request : Request)

/-- A long option with a value after an equals sign, or the option alone. -/
def splitLong (arg : String) : String × Option String :=
  let name := arg.toList.takeWhile (· ≠ '=')
  match arg.toList.drop name.length with
  | _ :: value => (String.ofList name, some (String.ofList value))
  | [] => (arg, none)

/-- The argument cannot be the value of the option before it. -/
def looksLikeOption (arg : String) : Bool :=
  arg.startsWith "-" && arg != "-"

/-- The value of an option: what is attached to it, or the next argument. -/
def optionValue (option : String) (attached : Option String) (rest : List String) :
    Except UsageError (String × List String) :=
  match attached, rest with
  | some value, rest => .ok (value, rest)
  | none, value :: rest =>
    if looksLikeOption value then .error (.missingValue option) else .ok (value, rest)
  | none, [] => .error (.missingValue option)

/-- Gives an option that is not given yet. -/
def giveOnce {α : Type} (option : String) (old : Option α) (value : α) :
    Except UsageError (Option α) :=
  if old.isSome then .error (.repeated option) else .ok (some value)

/-- The value attached to a short option. -/
def attachedShort : List Char → Option String
  | [] => none
  | '=' :: value => some (String.ofList value)
  | value => some (String.ofList value)

/-- What one option does. -/
inductive OptionName where
  | config
  | debug
  | output
  | help
  | version

/-- The option of a long name in a place: after `gen` there is one for the output, and only before
a command one for the version. -/
def longOption? (place : Option CommandName) : String → Option OptionName
  | "--config" => some .config
  | "--debug" => some .debug
  | "--help" => some .help
  | "--output" => if place = some .gen then some .output else none
  | "--version" => if place = none then some .version else none
  | _ => none

/-- The option of a letter in a place. -/
def shortOption? (place : Option CommandName) : Char → Option OptionName
  | 'h' => some .help
  | 'o' => if place = some .gen then some .output else none
  | 'V' => if place = none then some .version else none
  | _ => none

/-- An argument on its own in a place that takes one. -/
def givePositional (place : Option CommandName) (given : Given) (arg : String) :
    Except UsageError Given :=
  if place.isNone ∨ given.positional.isSome then .error (.unexpected arg)
  else .ok { given with positional := some arg }

/-- Reads what is left after two dashes: no argument is an option. -/
def readPositionals (place : Option CommandName) (given : Given) :
    List String → Except UsageError Given
  | [] => .ok given
  | arg :: rest => do readPositionals place (← givePositional place given arg) rest

/-- Gives an option that takes a value. -/
def giveValue (name : OptionName) (text value : String) (given : Given) :
    Except UsageError Given := do
  match name with
  | .config => return { given with config := ← giveOnce text given.config value }
  | .output => return { given with output := ← giveOnce text given.output value }
  | _ => return given

/-- Reads one option: the arguments left are no more than before. -/
def readOption (place : Option CommandName) (given : Given) (arg text : String)
    (name : Option OptionName) (attached : Option String) (isShort : Bool) (rest : List String) :
    Except UsageError Reading := do
  match name with
  | none => throw (.unexpected arg)
  | some .help =>
    if attached.isSome ∧ !isShort then throw (.unexpected arg)
    return .asked (.help place)
  | some .version =>
    if attached.isSome ∧ !isShort then throw (.unexpected arg)
    return .asked .version
  | some .debug =>
    if attached.isSome then throw (.unexpected arg)
    if given.debug then throw (.repeated text)
    return .given { given with debug := true } rest
  | some name =>
    let (value, rest) ← optionValue text attached rest
    return .given (← giveValue name text value given) rest

/-- Reads the arguments of one place. Before a command, the reading ends at its name. -/
def readPlace (place : Option CommandName) : Nat → Given → List String → Except UsageError Reading
  | 0, given, rest => .ok (.given given rest)
  | _, given, [] => .ok (.given given [])
  | fuel + 1, given, arg :: rest => do
    if place.isNone ∧ (CommandName.ofText? arg).isSome then return .given given (arg :: rest)
    else if arg = "--" then return .given (← readPositionals place given rest) []
    else
      let reading ←
        if arg.startsWith "--" then
          let (text, attached) := splitLong arg
          readOption place given arg text (longOption? place text) attached false rest
        else
          match arg.toList with
          | '-' :: letter :: more =>
            readOption place given arg (String.ofList ['-', letter]) (shortOption? place letter)
              (attachedShort more) true rest
          | _ => return ← readPlace place fuel (← givePositional place given arg) rest
      match reading with
      | .asked request => return .asked request
      | .given given rest => readPlace place fuel given rest

/-- The topic that help is asked for. -/
def helpTopic : List String → Except UsageError (Option CommandName)
  | [] => .ok none
  | name :: rest =>
    match CommandName.ofText? name, rest with
    | some topic, [] => .ok (some topic)
    | some _, arg :: _ => .error (.unexpected arg)
    | none, _ => .error (.unexpected name)

/-- What a command does with the arguments after it. -/
def actionOf (command : CommandName) (given : Given) : Except UsageError Action :=
  match command, given.positional with
  | .gen, some input => .ok (.generate input given.output)
  | .gen, none => .error (.missing "<INPUT>")
  | .check, some input => .ok (.check input)
  | .check, none => .error (.missing "<FILE>")
  | .repl, some path => .ok (.script path)
  | .repl, none => .ok .converse
  | .help, _ => .ok .converse

/-- The request of a command line. -/
def parseArgs (args : List String) : Except UsageError Request := do
  let fuel := args.length + 1
  match ← readPlace none fuel {} args with
  | .asked request => return request
  | .given _ [] => throw (.missing "a command")
  | .given before (name :: rest) =>
    match CommandName.ofText? name with
    | none => throw (.unexpected name)
    | some .help => return .help (← helpTopic rest)
    | some command =>
      match ← readPlace (some command) fuel {} rest with
      | .asked request => return request
      | .given after _ =>
        return .run (after.config <|> before.config) (← actionOf command after)

/-! ## Help -/

/-- The version of the program. -/
def version : String := "0.1.0"

/-- The help of a topic. -/
def usageText : Option CommandName → String
  | none => "Generate, check and explore framed classes

Usage: framec [OPTIONS] <COMMAND>

Commands:
  gen    Frame declarations and write Rust source
  check  Report what framing would do without writing anything
  repl   Load declarations and drive frames interactively
  help   Print this message or the help of the given subcommand(s)

Options:
      --config <FILE>  JSON file with `runtime` and `emit` settings
      --debug          Log frame and transform steps
  -h, --help           Print help
  -V, --version        Print version
"
  | some .gen => "Frame declarations and write Rust source

Usage: framec gen [OPTIONS] <INPUT>

Arguments:
  <INPUT>  A .frames/.json file or a directory of them

Options:
      --config <FILE>  JSON file with `runtime` and `emit` settings
  -o, --output <PATH>  Output file, or directory when INPUT is a directory
      --debug          Log frame and transform steps
  -h, --help           Print help
"
  | some .check => "Report what framing would do without writing anything

Usage: framec check [OPTIONS] <FILE>

Arguments:
  <FILE>  " ++ "

Options:
      --config <FILE>  JSON file with `runtime` and `emit` settings
      --debug          Log frame and transform steps
  -h, --help           Print help
"
  | some .repl => "Load declarations and drive frames interactively

Usage: framec repl [OPTIONS] [FILE]

Arguments:
  [FILE]  Run REPL commands from a script file

Options:
      --config <FILE>  JSON file with `runtime` and `emit` settings
      --debug          Log frame and transform steps
  -h, --help           Print help
"
  | some .help => "Print this message or the help of the given subcommand(s)

Usage: framec help [COMMAND]...

Arguments:
  [COMMAND]...  Print help for the subcommand(s)
"

end VersionedObjects.Shell
