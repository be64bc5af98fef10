import BugReport.CommandLine.Invocation
import BugReport.Report.Run

/-!
# Sessions

What the program prints for a command line, and the code that it ends with. A session sees the world
only through its surroundings, which are given to it: the files, the databases in them, and the time.
-/

namespace BugReport.CommandLine

/-- What stands at a path. -/
inductive FileState where
  | absent
  /-- Something that is no text, such as a directory. -/
  | unreadable
  | text (content : String)
  deriving DecidableEq, Repr

/-- What a session finds around it. -/
structure Surroundings (m : Type → Type) where
  file : String → m FileState
  /-- The connector for a database whose file exists. -/
  connector : FileDatabase → m Connector
  /-- The present, in seconds. -/
  now : m Int

/-- What a session ends with. -/
structure Outcome where
  /-- Zero on success, one when the command fails, and two when the command line is malformed. -/
  code : Nat
  output : String := ""
  errors : String := ""
  deriving DecidableEq, Repr

namespace Outcome

def printed (output : String) (errors : String := "") : Outcome :=
  { code := 0, output, errors }

def failed (message : String) : Outcome :=
  { code := 1, errors := "Error: " ++ message ++ "\n" }

end Outcome

/-- Writes lines, each with its end. -/
def lines (ls : List String) : String :=
  String.join (ls.map (· ++ "\n"))

/-! ## Texts -/

/-- The name and the version of the program. -/
def versionText : String :=
  lines ["bzr 0.2.0"]

/-- How the program is called. -/
def helpText : String :=
  lines [
    "Usage: bzr [--config FILE] [-v] COMMAND",
    "",
    "  compile [--json] [NAME=VALUE]...   print the statement and the address of a search",
    "  report [--database FILE] [--output table|markdown|json] [NAME=VALUE]...   run a report",
    "  params   list the parameters",
    "",
    "  --version   print the version",
    "  --help      print this text"]

/-- The list of all parameters: their names, their kinds, and their defaults. -/
def parametersText : String :=
  lines <| Parameter.schema.map fun (name, kind) =>
    Text.padRight 20 name ++ " " ++
      match Parameter.default? name with
      | some value => Text.padRight 16 kind.name ++ " " ++ value
      | none => kind.name

/-! ## Commands -/

/-- A compiled request as JSON, with its keys in alphabetical order. -/
def compiledJson (server : String) (c : Compiled) : JsonValue :=
  .object [
    ("columns", .texts c.query.columns),
    ("diagnostics", .array (c.diagnostics.map fun d => d.warning.toJson)),
    ("display_sql", .text (c.query.displaySql .plain)),
    ("params", .array (c.query.values.map fun v => .object [("Text", .text v)])),
    ("search_url", .text (c.query.searchAddress server)),
    ("sql", .text (c.query.sql .plain))]

/-- Compiles a request and prints the result. As a text it is the statement with its values and the
address of the search, and what was wrong goes to the errors. -/
def runCompile (file : ConfigFile) (now : Int) (json : Bool) (parameters : List String) : Outcome :=
  let request := Request.ofArgs file parameters
  let server := request.settings.server
  let c := request.compile now
  if json then .printed (lines [(compiledJson server c).pretty])
  else
    .printed (lines [c.query.displaySql .plain, c.query.searchAddress server])
      (lines (c.diagnostics.map fun d => "warning: " ++ d.message))

/-- What a run of a report prints. -/
def ofRun (layout : Layout) (run : ReportRun) : Outcome :=
  match run.outcome with
  | .ok report => .printed (report.write layout)
  | .error e => .failed e.message

/-- Runs a report against the database that is given, else against the one that is configured. -/
def runReport {m : Type → Type} [Monad m] (around : Surroundings m) (file : ConfigFile)
    (config : String) (database : Option String) (layout : Layout) (parameters : List String) :
    m Outcome := do
  let request := Request.ofArgs file parameters
  match database <|> request.settings.database with
  | none =>
    return .failed ("no database configured; pass --database or set `database` in " ++ config)
  | some path =>
    let database : FileDatabase := { path, schema := request.settings.schema }
    match database.obstacle? ((← around.file path) != .absent) with
    | some e => return .failed e.message
    | none =>
      let connector ← around.connector database
      return ofRun layout (request.run connector none (← around.now))

/-- Loads a configuration file. One that does not exist is empty. -/
def loadConfig? : FileState → Option ConfigFile
  | .absent => some {}
  | .unreadable => none
  | .text content => ConfigFile.parse? content

/-- Runs an invocation. The configuration is loaded first, whether the command needs it or not. -/
def Invocation.run {m : Type → Type} [Monad m] (around : Surroundings m) (i : Invocation) :
    m Outcome := do
  match loadConfig? (← around.file i.config) with
  | none => return .failed ("loading " ++ i.config)
  | some file =>
    match i.command with
    | .compile json parameters => return runCompile file (← around.now) json parameters
    | .report database layout parameters =>
      runReport around file i.config database layout parameters
    | .params => return .printed parametersText

/-- Runs a command line. -/
def run {m : Type → Type} [Monad m] (around : Surroundings m) (args : List String) : m Outcome :=
  match Invocation.read args with
  | .ok i => i.run around
  | .error .version => return .printed versionText
  | .error .help => return .printed helpText
  | .error (.usage e) => return { code := 2, errors := lines ["error: " ++ e.message, "", helpText] }

end BugReport.CommandLine
