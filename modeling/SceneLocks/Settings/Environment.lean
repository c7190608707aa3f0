import SceneLocks.Number.Reader
import SceneLocks.Settings.Basic

/-!
# The environment

What variables say about the settings: some override what a file holds, others tell where
the file is.
-/

namespace SceneLocks

open Number

/-- The environment of a process. -/
structure Environment where
  /-- The value of a variable, if it is set. -/
  lookup? : String → Option String
  /-- The home directory of the account. -/
  home? : Option String := none

/-! ## Overrides -/

/-- A setting that a variable can override. -/
inductive Override where
  | timeout
  | retries
  | wait
deriving DecidableEq, Repr

namespace Override

/-- All overrides, in the order in which they are looked at. -/
def all : List Override := [.timeout, .retries, .wait]

/-- The variable. -/
def name : Override → String
  | .timeout => "ARSERVER_LOCK_TIMEOUT"
  | .retries => "ARSERVER_LOCK_RETRIES"
  | .wait => "ARSERVER_LOCK_RETRY_WAIT"

/-- The settings with the number that the text spells; blanks around it do not matter. -/
def assign? (s : Settings) (text : String) : Override → Option Settings
  | .timeout =>
    (Binary64.read? (Text.trim text)).map fun x => { s with locking.timeout := x }
  | .retries =>
    (readCount? (Text.trim text)).map fun n => { s with locking.retries := n }
  | .wait =>
    (Binary64.read? (Text.trim text)).map fun x => { s with locking.wait := x }

end Override

namespace Settings

/-- Applies overrides up to the first that does not spell its setting. -/
def overrideWith (lookup? : String → Option String) :
    List Override → Settings → Settings × Except ConfigError Unit
  | [], s => (s, .ok ())
  | o :: rest, s =>
    match lookup? o.name with
    | none => overrideWith lookup? rest s
    | some text =>
      match o.assign? s text with
      | some s => overrideWith lookup? rest s
      | none => (s, .error (.badOverride o.name text))

/-- The settings with the overrides of the environment, and whether all of them were good. -/
def override (s : Settings) (lookup? : String → Option String) :
    Settings × Except ConfigError Unit :=
  overrideWith lookup? Override.all s

end Settings

/-! ## The place of the file -/

/-- A path below a directory, which is the current one if it is empty. -/
def joinPath (directory name : String) : String :=
  match directory.toList.getLast? with
  | none => name
  | some '/' => directory ++ name
  | some _ => directory ++ "/" ++ name

namespace Environment

/-- The directory for the settings of all programs: an absolute one that is given, or one in
the home directory. -/
def configHome? (env : Environment) : Option String :=
  let given := (env.lookup? "XDG_CONFIG_HOME").filter fun dir => dir.toList.head? = some '/'
  let home := ((env.lookup? "HOME").filter (· ≠ "")).or env.home?
  given.or (home.map (joinPath · ".config"))

/-- The directory of the settings. -/
def settingsDirectory (env : Environment) : Except ConfigError String :=
  match env.lookup? "ARSERVER_CONFIG_DIR" with
  | some dir => .ok dir
  | none =>
    match env.configHome? with
    | some dir => .ok (joinPath dir "arserver")
    | none => .error .noDirectory

/-- The path of the file of settings. -/
def settingsPath (env : Environment) : Except ConfigError String :=
  env.settingsDirectory.map (joinPath · "config.toml")

end Environment

end SceneLocks
