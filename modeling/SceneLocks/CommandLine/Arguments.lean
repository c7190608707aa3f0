/-!
# Arguments

What the program is asked to do. Arguments are first told apart one by one, and then read
from left to right along the path of commands: the first one out of place refuses them all,
and a request for help or for the version that comes before it wins. A value that is an
argument by itself is not looked at before the next option or operand; if a command follows
it instead, that command is read first.
-/

namespace SceneLocks.CommandLine

/-- How the settings are shown. -/
inductive OutputFormat where
  | text
  | json
deriving DecidableEq, Repr, Inhabited

/-- The format of a name. -/
def OutputFormat.ofName? : String → Option OutputFormat
  | "text" => some .text
  | "json" => some .json
  | _ => none

/-- A command, or a group of commands. -/
inductive Topic where
  | program
  | serve
  | config
  | show
  | get
  | path
deriving DecidableEq, Repr

/-- The member of a group by its name. -/
def Topic.member? : Topic → String → Option Topic
  | .program, "serve" => some .serve
  | .program, "config" => some .config
  | .config, "show" => some .show
  | .config, "get" => some .get
  | .config, "path" => some .path
  | _, _ => none

/-- Whether a topic is a group of commands. -/
def Topic.isGroup : Topic → Bool
  | .program | .config => true
  | _ => false

/-- What to do. -/
inductive Action where
  /-- Run the engine, on the graph in a file or on the roots alone. -/
  | serve (graph : Option String)
  | showSettings
  | getSetting (key : String)
  | settingsPath
deriving DecidableEq, Repr

/-- An action and how to report on it. -/
structure Invocation where
  action : Action
  format : OutputFormat := .text
  verbose : Bool := false
deriving DecidableEq, Repr

/-- What the arguments ask for. -/
inductive Parsed where
  | run (i : Invocation)
  | help (topic : Topic)
  /-- Help on the request for help within a group. -/
  | helpOnHelp (group : Topic)
  | version
  | refused
deriving DecidableEq, Repr

/-! ## Tokens -/

/-- An argument by itself, an option together with its value. -/
inductive Token where
  | word (s : String)
  /-- Two hyphens: what follows is literal. -/
  | endOfOptions
  /-- A word that cannot name a command. -/
  | literal (s : String)
  | help
  | version
  | verbose
  /-- The name is `joined` if it stands in the same argument. -/
  | format (joined : Bool) (name : String)
  | graph (path : String)
  /-- No option, or one with its value missing or in excess. -/
  | invalid
deriving DecidableEq, Repr

namespace Token

/-- The option of a letter, if it takes no value. -/
def ofLetter? : Char → Option Token
  | 'h' => some .help
  | 'V' => some .version
  | 'v' => some .verbose
  | _ => none

/-- The option of a name, if it takes no value. -/
def ofFlag? : List Char → Option Token
  | ['h', 'e', 'l', 'p'] => some .help
  | ['v', 'e', 'r', 's', 'i', 'o', 'n'] => some .version
  | ['v', 'e', 'r', 'b', 'o', 's', 'e'] => some .verbose
  | _ => none

/-- The option of a name, if it takes a value. -/
def ofValued? (joined : Bool) : List Char → Option (String → Token)
  | ['f', 'o', 'r', 'm', 'a', 't'] => some (.format joined)
  | ['g', 'r', 'a', 'p', 'h'] => some .graph
  | _ => none

/-- The letters after a hyphen, and whether the value of the last one is still to come. -/
def ofLetters : List Char → List Token × Bool
  | [] => ([], false)
  | ['g'] => ([], true)
  | 'g' :: '=' :: value => ([.graph (String.ofList value)], false)
  | 'g' :: value => ([.graph (String.ofList value)], false)
  | c :: rest =>
    match ofLetter? c with
    | none => ([.invalid], false)
    | some t => ((ofLetters rest).map (t :: ·) id)

/-- What an argument turns out to be. -/
inductive Shape where
  | tokens (ts : List Token)
  /-- The last token lacks its value, which may be the next argument. -/
  | awaiting (ts : List Token) (make : String → Token)
  | endOfOptions

/-- An argument that starts with two hyphens, without these. -/
def ofName (name : List Char) : Shape :=
  match name.dropWhile (· ≠ '=') with
  | [] =>
    match ofFlag? name, ofValued? false name with
    | some t, _ => .tokens [t]
    | none, some make => .awaiting [] make
    | none, none => .tokens [.invalid]
  | _ :: value =>
    match ofValued? true (name.takeWhile (· ≠ '=')) with
    | some make => .tokens [make (String.ofList value)]
    | none => .tokens [.invalid]

/-- Tells what an argument is. -/
def ofArgument (arg : String) : Shape :=
  match arg.toList with
  | ['-', '-'] => .endOfOptions
  | '-' :: '-' :: name => ofName name
  | '-' :: c :: rest =>
    match ofLetters (c :: rest) with
    | (ts, true) => .awaiting ts .graph
    | (ts, false) => .tokens ts
  | _ => .tokens [.word arg]

/-- Whether an argument can be the value of the option before it. -/
def isValue (arg : String) : Bool :=
  match arg.toList with
  | '-' :: _ :: _ => false
  | _ => true

/-- The tokens of all arguments. -/
def scan : List String → List Token
  | [] => []
  | arg :: rest =>
    match ofArgument arg with
    | .endOfOptions => .endOfOptions :: rest.map .literal
    | .tokens ts => ts ++ scan rest
    | .awaiting ts make =>
      match rest with
      | value :: rest => if isValue value then ts ++ make value :: scan rest else ts ++ [.invalid]
      | [] => ts ++ [.invalid]

end Token

/-! ## Commands -/

/-- How far the arguments have been read. Options count once for each command on the path;
those of a later command win. -/
structure Reading where
  topic : Topic := .program
  /-- What the commands before this one settled. -/
  outerFormat : OutputFormat := .text
  outerVerbose : Bool := false
  /-- Whether a command before this one has a value that is refused once it is looked at. -/
  outerFlaw : Bool := false
  format : Option OutputFormat := none
  /-- The name of a format that has not been looked at. -/
  unseen : Option String := none
  verbose : Bool := false
  /-- The file of the graph, or the key. -/
  operand : Option String := none
deriving DecidableEq, Repr

namespace Reading

/-- Sets the format, unless it is set already or the name is none. -/
def setFormat? (r : Reading) (name : String) : Option Reading :=
  match r.format, OutputFormat.ofName? name with
  | none, some format => some { r with format := some format }
  | _, _ => none

/-- Looks at the value that has not been looked at. -/
def look? (r : Reading) : Option Reading :=
  match r.unseen with
  | none => some r
  | some name => { r with unseen := none }.setFormat? name

/-- What is asked for if no argument follows. -/
def finish (r : Reading) : Parsed :=
  let run (action : Action) : Parsed :=
    if r.outerFlaw then .refused
    else .run ⟨action, r.format.getD r.outerFormat, r.verbose || r.outerVerbose⟩
  match r.topic, r.operand with
  | .serve, graph => run (.serve graph)
  | .show, _ => run .showSettings
  | .get, some key => run (.getSetting key)
  | .path, _ => run .settingsPath
  | _, _ => .refused

/-- Enters a command of the present group. -/
def enter (r : Reading) (topic : Topic) : Reading :=
  let (flaw, r) := match r.look? with
    | some r => (r.outerFlaw, r)
    | none => (true, r)
  { topic, outerFormat := r.format.getD r.outerFormat
    outerVerbose := r.verbose || r.outerVerbose, outerFlaw := flaw }

/-- Takes a token that settles something, unless it is out of place. -/
def take? (r : Reading) : Token → Option Reading
  | .word s | .literal s =>
    if r.topic = .get ∧ r.operand = none then some { r with operand := some s } else none
  | .endOfOptions => some r
  | .verbose => if r.verbose then none else some { r with verbose := true }
  | .format true name => r.setFormat? name
  | .format false name => some { r with unseen := some name }
  | .graph path =>
    if r.topic = .serve ∧ r.operand = none ∧ path ≠ "" then some { r with operand := some path }
    else none
  | .help | .version | .invalid => none

/-- Follows a path of command names, to the topic of a request for help. -/
def helpOn : Topic → List Token → Parsed
  | topic, [] => .help topic
  | topic, .word s :: rest =>
    match topic.member? s with
    | some topic => helpOn topic rest
    | none => if s = "help" ∧ topic.isGroup ∧ rest = [] then .helpOnHelp topic else .refused
  | _, _ :: _ => .refused

/-- The command that a token names. -/
def command? (r : Reading) : Token → Option Topic
  | .word s => r.topic.member? s
  | _ => none

/-- Reads the tokens that are left. -/
def read (r : Reading) : List Token → Parsed
  | [] => (r.look?.map finish).getD .refused
  | t :: rest =>
    match r.command? t with
    | some topic => read (r.enter topic) rest
    | none =>
      if t = .word "help" ∧ r.topic.isGroup then helpOn r.topic rest
      else
        match r.look? with
        | none => .refused
        | some r =>
          if t = .help then .help r.topic
          else if t = .version ∧ r.topic = .program then .version
          else
            match r.take? t with
            | some r => read r rest
            | none => .refused

end Reading

/-- Reads the arguments of the program. -/
def parse (args : List String) : Parsed := Reading.read {} (Token.scan args)

end SceneLocks.CommandLine
