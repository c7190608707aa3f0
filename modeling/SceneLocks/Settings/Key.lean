import SceneLocks.Settings.Basic

/-!
# Keys

Every setting has a key, by which its value can be asked for as text.
-/

namespace SceneLocks

open Number

/-- A setting. -/
inductive Settings.Key where
  | timeout
  | retries
  | wait
  | jitter
  | filter
deriving DecidableEq, Repr

namespace Settings

/-- All keys, in the order of the settings. -/
def Key.all : List Key := [.timeout, .retries, .wait, .jitter, .filter]

def Key.name : Key → String
  | .timeout => "locking.lock_timeout_seconds"
  | .retries => "locking.lock_retries"
  | .wait => "locking.lock_retry_wait_seconds"
  | .jitter => "locking.retry_jitter"
  | .filter => "logging.filter"

def Key.ofName? (name : String) : Option Key := Key.all.find? (·.name = name)

/-- The value of a setting as text. -/
def value (s : Settings) : Key → String
  | .timeout => s.locking.timeout.text
  | .retries => toString s.locking.retries.toNat
  | .wait => s.locking.wait.text
  | .jitter => s.locking.jitter.text
  | .filter => s.filter

/-- The values of all settings. -/
def values (s : Settings) : List String := Key.all.map s.value

/-- The value of the setting with a name. -/
def get (s : Settings) (name : String) : Except ConfigError String :=
  match Key.ofName? name with
  | some key => .ok (s.value key)
  | none => .error (.unknownKey name)

end Settings

end SceneLocks
