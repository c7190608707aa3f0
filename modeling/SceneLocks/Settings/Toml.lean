import SceneLocks.Settings.Basic
import SceneLocks.Toml.Fields
import SceneLocks.Toml.Printer
import SceneLocks.Toml.Reader

/-!
# Settings as TOML

The form in which settings are kept in a file. Missing fields keep their defaults.
-/

namespace SceneLocks

def LockSettings.ofToml? (v : Toml) : Option LockSettings := do
  let d : LockSettings := {}
  match ← v.fields?
    ["lock_timeout_seconds", "lock_retries", "lock_retry_wait_seconds", "retry_jitter"] with
  | [timeout, retries, wait, jitter] =>
    some {
      timeout := ← Toml.orElse d.timeout Toml.double? timeout
      retries := ← Toml.orElse d.retries Toml.count? retries
      wait := ← Toml.orElse d.wait Toml.double? wait
      jitter := ← Toml.orElse d.jitter Toml.double? jitter }
  | _ => none

/-- The filter of the logging section. -/
def Settings.filterOfToml? (default : String) (v : Toml) : Option String := do
  match ← v.fields? ["filter"] with
  | [filter] => Toml.orElse default Toml.string? filter
  | _ => none

def Settings.ofToml? (v : Toml) : Option Settings := do
  let d : Settings := {}
  match ← v.fields? ["locking", "logging"] with
  | [locking, logging] =>
    some {
      locking := ← Toml.orElse d.locking LockSettings.ofToml? locking
      filter := ← Toml.orElse d.filter (Settings.filterOfToml? d.filter) logging }
  | _ => none

namespace Settings

/-- Reads the text of a file. -/
def read? (text : String) : Option Settings :=
  (Toml.read? text).bind fun t => ofToml? t.value

/-- The text of a file that holds the settings. -/
def toml (s : Settings) : String :=
  Toml.sectionText "locking"
      [("lock_timeout_seconds", Toml.floatText s.locking.timeout),
        ("lock_retries", toString s.locking.retries.toNat),
        ("lock_retry_wait_seconds", Toml.floatText s.locking.wait),
        ("retry_jitter", Toml.floatText s.locking.jitter)] ++
    "\n" ++ Toml.sectionText "logging" [("filter", Toml.quoted s.filter)]

end Settings

end SceneLocks
