import SceneLocks.CommandLine.Help
import SceneLocks.CommandLine.LogFilter
import SceneLocks.Engine
import SceneLocks.Json.Printer
import SceneLocks.Settings.File
import SceneLocks.Settings.Json
import SceneLocks.Settings.Key
import SceneLocks.Wire

/-!
# Running a command

What the program prints, and how it exits. Everything that it reads is handed in: the
environment, and what stands at the paths of the settings and of the graph. The settings are
loaded before any command, even one that does not look at them; the log filter comes next.
-/

namespace SceneLocks.CommandLine

/-- What a run prints, and how it exits. -/
structure Outcome where
  exit : Nat := 0
  stdout : String := ""
  stderr : String := ""
  /-- The size of the graph that is served, if it is logged. -/
  resources : Option Nat := none
deriving DecidableEq, Repr

/-! ## Failures -/

/-- Why a command failed, and what led to that. -/
structure Failure where
  message : String
  causes : List String := []
deriving DecidableEq, Repr

namespace Failure

/-- An error as a failure by itself. -/
def ofError (e : Error) : Failure :=
  match e with
  | .io _ fault => ⟨e.message, [fault.message]⟩
  | e => ⟨e.message, []⟩

/-- A failure that led to another. -/
def within (f : Failure) (message : String) : Failure := ⟨message, f.message :: f.causes⟩

/-- A text whose lines are indented, the first one in its own way. -/
def indented (first later text : String) : String :=
  first ++ ("\n" ++ later).intercalate (text.splitOn "\n")

/-- The number of a cause, to the right of a column. -/
def numbered (n : Nat) : String :=
  let ds := toString n
  String.ofList (List.replicate (5 - ds.length) ' ') ++ ds ++ ": "

/-- The causes, one below the other; several ones are numbered. -/
def causeLines : List String → String
  | [] => ""
  | [cause] => "\n\nCaused by:\n" ++ indented "    " "    " cause
  | causes =>
    "\n\nCaused by:" ++ String.join (causes.zipIdx.map fun (cause, n) =>
      "\n" ++ indented (numbered n) "       " cause)

/-- What is printed about a failure. -/
def text (f : Failure) : String := "Error: " ++ f.message ++ causeLines f.causes ++ "\n"

end Failure

/-! ## Commands -/

/-- The settings as they are shown. -/
def shown (format : OutputFormat) (s : Settings) : String :=
  match format with
  | .text => s.toml
  | .json => s.json.pretty 0 ++ "\n"

/-- The graph in a file. -/
def loadGraph (path : String) (content : FileContent) : Except Failure Graph :=
  match content.text with
  | .error fault => .error ⟨"Failed to read graph file: " ++ path, [fault.message]⟩
  | .ok text =>
    match Graph.read? text with
    | some g => .ok g
    | none => .error ⟨"Failed to parse graph file: " ++ path, ["not a map of parents"]⟩

/-- Runs the engine until it is stopped. -/
def serve (settings : Settings) (graph : Graph) : Except Failure Outcome := do
  let engine ← (Engine.start settings graph).mapError fun e => Failure.ofError (.config e)
  let (_, report) := engine.shutdown
  return {
    stdout := "Shutdown complete: " ++ report.summary ++ "\n"
    stderr := String.join (report.warnings.map fun w => "warning: " ++ w ++ "\n")
    resources := some graph.size }

namespace Invocation

/-- The file that holds the graph. -/
def graphPath? (i : Invocation) : Option String :=
  match i.action with
  | .serve path => path
  | _ => none

/-- Runs a command under valid settings. -/
def perform (i : Invocation) (env : Environment) (settings : Settings) (graph : FileContent) :
    Except Failure Outcome :=
  match i.action with
  | .serve none => serve settings .withRoots
  | .serve (some path) => do serve settings (← loadGraph path graph)
  | .showSettings => .ok { stdout := shown i.format settings }
  | .getSetting key =>
    match settings.get key with
    | .ok value => .ok { stdout := value ++ "\n" }
    | .error e => .error (.ofError (.config e))
  | .settingsPath =>
    match env.settingsPath with
    | .ok path => .ok { stdout := path ++ "\n" }
    | .error e => .error (.ofError (.config e))

/-- The log filter of a command, and what is said about it. -/
def logFilter (i : Invocation) (env : Environment) (settings : Settings) : LogFilter × String :=
  LogFilter.choose (env.lookup? LogFilter.variableName)
    (if i.verbose then "debug" else settings.filter)

/-- Loads the settings and runs the command. -/
def run (i : Invocation) (env : Environment) (config graph : FileContent) : Outcome :=
  match Settings.load env config with
  | .error e =>
    { exit := 1, stderr := ((Failure.ofError e).within "Failed to load configuration").text }
  | .ok settings =>
    let (filter, complaints) := i.logFilter env settings
    match i.perform env settings graph with
    | .error failure => { exit := 1, stderr := complaints ++ failure.text }
    | .ok outcome =>
      let logged := filter.admits "arserver" ["message", "resources"] .info
      { outcome with
        stderr := complaints ++ outcome.stderr
        resources := if logged then outcome.resources else none }

end Invocation

/-- What is printed when the arguments are refused. -/
def usageText : String := "error: invalid arguments\n\nFor more information, try '--help'.\n"

/-- Runs the program; `config` and `graph` are what stands at the paths of the settings and
of the graph. -/
def run (parsed : Parsed) (env : Environment) (config graph : FileContent) : Outcome :=
  match parsed with
  | .run i => i.run env config graph
  | .help topic => { stdout := topic.help }
  | .helpOnHelp group => { stdout := group.helpOnHelp }
  | .version => { stdout := versionText }
  | .refused => { exit := 2, stderr := usageText }

end SceneLocks.CommandLine
