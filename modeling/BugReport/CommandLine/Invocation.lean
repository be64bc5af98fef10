import BugReport.Report.Layout
import BugReport.Text.Split

/-!
# Invocations

What the arguments of the command line ask for. Options that every command knows can stand before the
command and behind it, where the one behind it counts. Within one of these places an option with a
value, or one that is either given or not, stands at most once.
-/

namespace BugReport.CommandLine

/-- The commands. -/
inductive CommandName where
  | compile
  | report
  | params
  deriving DecidableEq, Repr

/-- The command with a name, which may be its first letter. -/
def CommandName.ofName? : String → Option CommandName
  | "compile" | "c" => some .compile
  | "report" | "r" => some .report
  | "params" => some .params
  | _ => none

/-! ## Options -/

/-- The options. -/
inductive Switch where
  | config
  | database
  | output
  | json
  | verbose
  | version
  | help
  deriving DecidableEq, Repr

namespace Switch

def all : List Switch :=
  [config, database, output, json, verbose, version, help]

/-- The name of an option, behind two dashes. -/
def name : Switch → String
  | config => "config"
  | database => "database"
  | output => "output"
  | json => "json"
  | verbose => "verbose"
  | version => "version"
  | help => "help"

/-- The letter of an option, behind one dash, if it has one. -/
def letter? : Switch → Option Char
  | verbose => some 'v'
  | version => some 'V'
  | help => some 'h'
  | _ => none

/-- Whether an option comes with a value. -/
def hasValue : Switch → Bool
  | config | database | output => true
  | _ => false

/-- Whether an option can stand behind a command, or before any command. -/
def admitted (place : Option CommandName) : Switch → Bool
  | config | verbose | help => true
  | version => place.isNone
  | json => place == some .compile
  | database | output => place == some .report

def ofName? (place : Option CommandName) (name : String) : Option Switch :=
  all.find? fun s => s.name == name && s.admitted place

def ofLetter? (place : Option CommandName) (letter : Char) : Option Switch :=
  all.find? fun s => s.letter? == some letter && s.admitted place

end Switch

/-! ## Arguments -/

/-- An argument by its form. -/
inductive Argument where
  /-- Two dashes alone: everything behind them is plain. -/
  | divider
  /-- An option by its name, with the value behind an equals sign. -/
  | long (name : String) (value : Option String)
  /-- Options by their letters. -/
  | short (letters : List Char)
  | plain (text : String)
  deriving DecidableEq, Repr

/-- The form of an argument. One dash alone is plain. -/
def Argument.ofText (s : String) : Argument :=
  match s.toList with
  | ['-', '-'] => .divider
  | '-' :: '-' :: rest =>
    match Text.cut '=' (String.ofList rest) with
    | some (name, value) => .long name (some value)
    | none => .long (String.ofList rest) none
  | '-' :: c :: rest => .short (c :: rest)
  | _ => .plain s

/-! ## What is asked for -/

/-- A command with its options and parameters. -/
inductive Command where
  | compile (json : Bool) (parameters : List String)
  | report (database : Option String) (layout : Layout) (parameters : List String)
  | params
  deriving DecidableEq, Repr

/-- A command under a configuration file. -/
structure Invocation where
  config : String := "bzr.toml"
  command : Command
  deriving DecidableEq, Repr

/-- What is wrong with a command line. -/
inductive UsageError where
  | missingCommand
  | unknownCommand (name : String)
  | unknownOption (text : String)
  | unexpectedArgument (text : String)
  | missingValue (option : Switch)
  | unexpectedValue (option : Switch)
  | invalidValue (option : Switch) (value : String)
  | repeated (option : Switch)
  deriving DecidableEq, Repr

/-- The wording of what is wrong. -/
def UsageError.message : UsageError → String
  | missingCommand => "a command is required"
  | unknownCommand name => "there is no command '" ++ name ++ "'"
  | unknownOption text => "there is no option '" ++ text ++ "' here"
  | unexpectedArgument text => "the argument '" ++ text ++ "' is not expected here"
  | missingValue option => "the option --" ++ option.name ++ " needs a value"
  | unexpectedValue option => "the option --" ++ option.name ++ " has no value"
  | invalidValue option value =>
    "the option --" ++ option.name ++ " cannot have the value '" ++ value ++ "'"
  | repeated option => "the option --" ++ option.name ++ " can be given only once"

/-- Why reading a command line ends before there is a command to run. -/
inductive Stop where
  | version
  | help
  | usage (error : UsageError)
  deriving DecidableEq, Repr

/-! ## Reading -/

/-- A command line while it is read. -/
structure Draft where
  /-- The command, once it was met. -/
  place : Option CommandName := none
  /-- The configuration file that is named before the command. -/
  outerConfig : Option String := none
  /-- The configuration file that is named at the present place. -/
  config : Option String := none
  database : Option String := none
  layout : Option Layout := none
  json : Bool := false
  parameters : List String := []

namespace Draft

/-- Takes an option that is given or not. -/
def take (d : Draft) : Switch → Except Stop Draft
  | .version => throw .version
  | .help => throw .help
  | .json => if d.json then throw (.usage (.repeated .json)) else pure { d with json := true }
  | .verbose => pure d
  | option => throw (.usage (.missingValue option))

/-- Takes options by their letters, from the left. -/
def takeLetters (d : Draft) : List Char → Except Stop Draft
  | [] => pure d
  | c :: cs =>
    match Switch.ofLetter? d.place c with
    | none => throw (.usage (.unknownOption (String.ofList ['-', c])))
    | some option => do
      let d ← d.take option
      d.takeLetters cs

/-- The path of a file must not be empty. -/
def path (option : Switch) (value : String) : Except Stop String :=
  if value == "" then throw (.usage (.invalidValue option value)) else pure value

def takeValue (d : Draft) (value : String) : Switch → Except Stop Draft
  | .config => do
    if d.config.isSome then throw (.usage (.repeated .config))
    let value ← path .config value
    pure { d with config := some value }
  | .database => do
    if d.database.isSome then throw (.usage (.repeated .database))
    let value ← path .database value
    pure { d with database := some value }
  | .output => do
    if d.layout.isSome then throw (.usage (.repeated .output))
    match Layout.ofName? value with
    | some layout => pure { d with layout := some layout }
    | none => throw (.usage (.invalidValue .output value))
  | option => throw (.usage (.unexpectedValue option))

/-- Takes plain arguments behind a command. Only some commands have parameters. -/
def takeParameters (d : Draft) : List String → Except Stop Draft
  | [] => pure d
  | text :: texts =>
    match d.place with
    | some .compile | some .report =>
      pure { d with parameters := d.parameters ++ text :: texts }
    | _ => throw (.usage (.unexpectedArgument text))

/-- Takes the name of the command. What was said before it stays behind. -/
def takeCommand (d : Draft) (name : String) : Except Stop Draft :=
  match CommandName.ofName? name with
  | some command => pure { d with place := some command, outerConfig := d.config, config := none }
  | none => throw (.usage (.unknownCommand name))

/-- What asking for help about some commands comes to. -/
def askHelp : List String → Stop
  | [] => .help
  | [name] =>
    if (CommandName.ofName? name).isSome || name == "help" then .help
    else .usage (.unknownCommand name)
  | _ :: text :: _ => .usage (.unknownCommand text)

/-- Reads arguments. A value is either behind an equals sign or the next argument, which has to be
plain. -/
def read (d : Draft) : List String → Except Stop Draft
  | [] => pure d
  | arg :: args =>
    match Argument.ofText arg with
    | .divider => d.takeParameters args
    | .plain text =>
      if d.place.isSome then do
        let d ← d.takeParameters [text]
        d.read args
      else if text == "help" then throw (askHelp args)
      else do
        let d ← d.takeCommand text
        d.read args
    | .short letters => do
      let d ← d.takeLetters letters
      d.read args
    | .long name value =>
      match Switch.ofName? d.place name, value, args with
      | none, _, _ => throw (.usage (.unknownOption arg))
      | some option, some value, args => do
        let d ← d.takeValue value option
        d.read args
      | some option, none, next :: args =>
        if option.hasValue then
          match Argument.ofText next with
          | .plain value => do
            let d ← d.takeValue value option
            d.read args
          | _ => throw (.usage (.missingValue option))
        else do
          let d ← d.take option
          d.read (next :: args)
      | some option, none, [] => d.take option

/-- The invocation of a command line that was read to its end. -/
def finish (d : Draft) : Except Stop Invocation :=
  let config := (d.config <|> d.outerConfig).getD "bzr.toml"
  match d.place with
  | none => throw (.usage .missingCommand)
  | some .compile => pure { config, command := .compile d.json d.parameters }
  | some .report =>
    pure { config, command := .report d.database (d.layout.getD .table) d.parameters }
  | some .params => pure { config, command := .params }

end Draft

/-- Reads a command line. -/
def Invocation.read (args : List String) : Except Stop Invocation := do
  let d ← Draft.read {} args
  d.finish

end BugReport.CommandLine
