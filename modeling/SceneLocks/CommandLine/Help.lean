import SceneLocks.CommandLine.Arguments

/-!
# Help

What the program says about its commands and options.
-/

namespace SceneLocks.CommandLine

namespace Topic

/-- What a command does. -/
def about : Topic → String
  | .program => "Lock coordination server for collaborative scene editing"
  | .serve => "Run the lock engine until Ctrl-C"
  | .config => "Inspect configuration"
  | .show => "Print the effective configuration"
  | .get => "Print one configuration value"
  | .path => "Print the configuration file path"

/-- The words that lead to a command. -/
def words : Topic → String
  | .program => "arserver"
  | .serve => "arserver serve"
  | .config => "arserver config"
  | .show => "arserver config show"
  | .get => "arserver config get"
  | .path => "arserver config path"

/-- What may follow the options. -/
def operands : Topic → String
  | .program | .config => " <COMMAND>"
  | .get => " <KEY>"
  | _ => ""

/-- The members of a group, with their names. -/
def members : Topic → List (String × String)
  | .program => [("serve", serve.about), ("config", config.about)]
  | .config => [("show", show.about), ("get", get.about), ("path", path.about)]
  | _ => []

end Topic

/-- Lines of two columns. -/
def columns (rows : List (String × String)) : String :=
  let width := (rows.map (·.1.length)).foldl max 0
  String.join (rows.map fun (left, right) =>
    "  " ++ left ++ String.ofList (List.replicate (width + 2 - left.length) ' ') ++ right ++ "\n")

namespace Topic

/-- What the request for help does. -/
def aboutHelp : String := "Print this message or the help of the given subcommand(s)"

/-- The groups of lines after the usage, with their headings. -/
def sections (t : Topic) : List (String × List (String × String)) :=
  let commands :=
    if t.isGroup then
      [("Commands", t.members ++ [("help", aboutHelp)])]
    else []
  let operands :=
    if t = .get then [("Arguments", [("<KEY>", "Key such as locking.lock_retries")])] else []
  let format := ("    --format <FORMAT>",
    "Output format (text or json) [default: text] [possible values: text, json]")
  let graph := if t = .serve then
      [("-g, --graph <GRAPH>", "JSON object mapping each resource id to its parent id (or null)")]
    else []
  let version := if t = .program then [("-V, --version", "Print version")] else []
  commands ++ operands ++
    [("Options", graph ++ [format] ++
      [("-v, --verbose", "Log at debug level unless RUST_LOG says otherwise"),
        ("-h, --help", "Print help")] ++ version)]

/-- A page of help: what a command does, how it is used, and sections. -/
def page (about usage : String) (sections : List (String × List (String × String))) : String :=
  about ++ "\n\nUsage: " ++ usage ++ "\n" ++
    String.join (sections.map fun (heading, rows) => "\n" ++ heading ++ ":\n" ++ columns rows)

/-- The help on a command. -/
def help (t : Topic) : String :=
  page t.about (t.words ++ " [OPTIONS]" ++ t.operands) t.sections

/-- The help on the request for help within a group. -/
def helpOnHelp (group : Topic) : String :=
  page aboutHelp (group.words ++ " help [COMMAND]...")
    [("Arguments", [("[COMMAND]...", "Print help for the subcommand(s)")])]

end Topic

/-- What the program says about its version. -/
def versionText : String := "arserver 0.1.0\n"

end SceneLocks.CommandLine
