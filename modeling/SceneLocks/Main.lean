import SceneLocks.CommandLine.Dotenv
import SceneLocks.CommandLine.Run

/-!
# The program

Reads what the arguments and the environment point at, runs the command and prints its
outcome. The engine is stopped by the end of the input.
-/

open SceneLocks SceneLocks.CommandLine

/-- The variables that the program looks at. -/
def variableNames : List String :=
  ["ARSERVER_CONFIG_DIR", "XDG_CONFIG_HOME", "HOME", LogFilter.variableName] ++
    Override.all.map (·.name)

/-- What stands at a path. -/
def readContent (path : String) : IO FileContent := do
  match ← (IO.FS.readBinFile path).toBaseIO with
  | .ok bytes => return .bytes bytes
  | .error (.noFileOrDirectory ..) => return .missing
  | .error (.inappropriateType _ code _) =>
    return .unreadable (if code = 21 then .isDirectory else .notDirectory)
  | .error (.invalidArgument ..) => return .unreadable .nameTooLong
  | .error e => return .unreadable (.other (toString e))

/-- The text at a path, or nothing. -/
def readTextOrEmpty (path : String) : IO String := do
  match (← readContent path).text with
  | .ok text => return text
  | .error _ => return ""

/-- The environment, with the variables of the file `.env`. -/
def readEnvironment : IO Environment := do
  let text ← readTextOrEmpty ".env"
  let set ← (variableNames ++ Dotenv.mentioned text.toList).filterMapM fun name => do
    return (← IO.getEnv name).map (name, ·)
  return { lookup? := Dotenv.extend (fun name => set.lookup name) text }

/-- Waits until the input ends. -/
partial def awaitEnd (input : IO.FS.Stream) : IO Unit := do
  if (← input.getLine).isEmpty then return
  awaitEnd input

/-- Runs the program. -/
def main (args : List String) : IO UInt32 := do
  let parsed := parse args
  let env ← readEnvironment
  let config ← match env.settingsPath with
    | .ok path => readContent path
    | .error _ => pure .missing
  let graph ← match parsed with
    | .run i => match i.graphPath? with
      | some path => readContent path
      | none => pure .missing
    | _ => pure .missing
  let outcome := run parsed env config graph
  match parsed with
  | .run ⟨.serve _, _, _⟩ => if outcome.exit = 0 then awaitEnd (← IO.getStdin)
  | _ => pure ()
  IO.print outcome.stdout
  IO.eprint outcome.stderr
  return outcome.exit.toUInt32
